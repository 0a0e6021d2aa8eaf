import RedoxDrivers.Virtio.Device

/-!
What the poll of a request tells about its completion.

`PendingRequest::poll` compares one used index with one remembered index and looks
at the newest used element only. Two properties of whole runs decide whether that
is enough:

* `delivers_iff_oneAtATime`: no completion is lost in a run exactly when the device
  never completes a request while the driver has yet to return an earlier one;
* `genuine_iff_noStalePoll`: with device resets, a poll only returns what the device
  wrote for its request exactly when no poll meets a used element left over from
  before the reset.

Two completions between two polls lose the first for good
(`first_of_two_completions_lost`), and `reinit` makes the element of an old
request complete a new one (`stale_element_completes`).
-/

namespace RedoxDrivers.Virtio

open Lib Queue List PendingRequest

/-! ### No lost completion -/

/-- Polling any request that the device has completed returns what the device
wrote, unless it has been returned before. -/
def Delivers (p : Profile) (s : System) : Prop :=
  ∀ r ∈ s.requests, ∀ written, r.completed = some written → r.returned = none →
    ∀ waker, ∃ queue, r.future.poll p s.queue waker = .ok (queue, .ready written)

/-- The device completes a request only when the driver has returned the one before. -/
def OneAtATime (s : System) (e : Event) : Prop :=
  ∀ i written, e = .complete i written → s.queue.used.headIndex = s.queue.usedHead

/-- The invariant of the runs whose completions come one at a time: a request that
is completed and not returned is the newest. -/
structure Caught (p : Profile) (size : QueueSize) (s : System) : Prop extends Live p size s where
  waiting : ∀ r ∈ s.requests, ∀ written, r.completed = some written → r.returned = none →
    s.queue.used.headIndex ≠ s.queue.usedHead ∧
      s.latest = some ⟨r.future.firstDescriptor, written⟩

namespace Caught

variable {p : Profile} {size : QueueSize} {q : Queue} {s s' : System} {e : Event}

theorem start (fresh : q.Fresh size) : Caught p size (System.start q) :=
  ⟨.start fresh, by simp [System.start]⟩

section

variable (caught : Caught p size s)

include caught

theorem delivers : Delivers p s := by
  intro r hr written hcompleted hlive waker
  obtain ⟨news, hlatest⟩ := caught.waiting r hr written hcompleted hlive
  obtain ⟨-, hexamined, -⟩ := caught.newest _ hlatest
  obtain ⟨i, hi⟩ := List.getElem?_of_mem hr
  refine ⟨s.queue.recycled r.future waker r.popped, ?_⟩
  rw [poll_news news fun ⟨hp, hzero⟩ =>
    caught.head_ne_zero hlatest (caught.sentBound hp) hzero, hexamined, unwrap, ok_bind,
    if_pos rfl, caught.walk_eq hi hlive, ok_bind]

theorem complete_keeps {i : Nat} {written : U32}
    (idle : s.queue.used.headIndex = s.queue.usedHead) (h : s.complete i written = some s') :
    Caught p size s' := by
  refine ⟨caught.toLive.keeps (e := .complete i written) h, ?_⟩
  have hdevice := caught.deviceUsed_eq
  obtain ⟨r, hr, hnone, rfl⟩ := System.complete_eq_some h
  intro t ht w hcompleted hlive
  rcases mem_or_eq_of_mem_set ht with hold | rfl
  · exact absurd idle (caught.waiting t hold w hcompleted hlive).1
  · cases hcompleted
    refine ⟨fun hround => ?_, rfl⟩
    have hround : s.deviceUsed + 1 = s.queue.usedHead := hround
    bv_omega

theorem poll_keeps {i : Nat} {waker : Waker} (h : s.poll p i waker = some s') :
    Caught p size s' := by
  refine ⟨caught.toLive.keeps (e := .poll i waker) h, ?_⟩
  obtain ⟨r, hr, hlive, rfl | ⟨news, e, pushed, he, hhead, -, rfl⟩⟩ := System.poll_cases h
  · exact caught.waiting
  · -- The poll returned the one request that waited: no other is left.
    intro t ht w hcompleted htlive
    obtain ⟨j, hj⟩ := List.getElem?_of_mem ht
    rcases eq_or_ne i j with rfl | hne
    · rw [List.getElem?_set_self (List.getElem?_eq_some_iff.mp hr).1] at hj
      cases hj
      cases htlive
    · rw [List.getElem?_set_ne hne] at hj
      obtain ⟨-, hlatest⟩ := caught.waiting t (mem_of_getElem? hj) w hcompleted htlive
      have hexamined := (caught.newest _ hlatest).2.1
      rw [he] at hexamined
      cases hexamined
      exact absurd (caught.eq_of_head hr hj hlive htlive hhead.symm) hne

theorem keeps (once : OneAtATime s e) (h : step p s e = some s') : Caught p size s' := by
  cases e with
  | send buffers =>
    refine ⟨caught.toLive.keeps (e := .send buffers) h, ?_⟩
    obtain ⟨r, head, sent⟩ := caught.sent h
    intro t ht w hcompleted hlive
    rw [sent.requests, mem_append, mem_singleton] at ht
    rcases ht with hold | rfl
    · rw [sent.used, sent.usedHead, sent.latest]
      exact caught.waiting t hold w hcompleted hlive
    · rw [sent.completed] at hcompleted
      cases hcompleted
  | complete i written => exact caught.complete_keeps (once i written rfl) h
  | poll => exact caught.poll_keeps h

/-- A completion that comes while another waits hides the other. -/
theorem not_delivers {i : Nat} {written : U32} (news : s.queue.used.headIndex ≠ s.queue.usedHead)
    (h : s.complete i written = some s') : ¬ Delivers p s' := by
  intro delivers
  obtain ⟨e, hlatest, -⟩ := caught.latest_of_news news
  obtain ⟨-, -, j, t, ht, -, hcompleted, hreturned⟩ := caught.newest e hlatest
  obtain ⟨r, hr, hnone, rfl⟩ := System.complete_eq_some h
  have hlive := caught.returned_eq_none (mem_of_getElem? hr) hnone
  have hne : i ≠ j := by
    rintro rfl
    rw [hr] at ht
    cases ht
    rw [hnone] at hcompleted
    cases hcompleted
  have ht' : (s.requests.set i { r with completed := some written })[j]? = some t := by
    rw [List.getElem?_set_ne hne]
    exact ht
  obtain ⟨queue, hpoll⟩ := delivers t (mem_of_getElem? ht') _ hcompleted (hreturned news) 0
  rcases poll_eq_ok hpoll with ⟨hpending, -⟩ | ⟨-, e', -, he', hhead, -⟩
  · cases hpending
  · rw [caught.examined_append] at he'
    cases he'
    exact hne (caught.eq_of_head hr ht hlive (hreturned news) hhead)

/-- From a caught-up state a step keeps every completion deliverable exactly when it
is no second completion. -/
theorem delivers_iff (h : step p s e = some s') : Delivers p s' ↔ OneAtATime s e := by
  constructor
  · rintro delivers i written rfl
    by_contra news
    exact caught.not_delivers news h delivers
  · intro once
    exact (caught.keeps once h).delivers

end

end Caught

/-- **No completion is lost exactly when completions come one at a time.** Over every
interleaving of sends, completions in any order and polls, in either profile: each
completed request whose future has not returned is returned by its next poll, in
every state of the run, if and only if the device only ever completes a request when
the driver has returned the one completed before it. -/
theorem delivers_iff_oneAtATime (p : Profile) (size : QueueSize) (q : Queue)
    (hq : setup size.val = .ok q) (es : List Event) (s : System)
    (h : run (step p) (System.start q) es = some s) :
    Throughout (step p) (System.start q) (Delivers p) es ↔
      Along (step p) (System.start q) OneAtATime es := by
  have fresh := Queue.Fresh.of_setup hq
  exact throughout_iff_along (Caught.start fresh) (Caught.start fresh).delivers
    (fun _ _ _ caught once hstep => caught.keeps once hstep)
    (fun _ _ _ caught hstep => caught.delivers_iff hstep) h

/-- A request of one buffer. -/
def oneBuffer : List Buffer := [⟨0x1000, 512, .empty⟩]

/-- A queue of two entries. -/
def twoEntries : QueueSize := ⟨2, 1, by decide, rfl⟩

theorem delivers_iff_oneAtATime_two_requests : ∃ q s, setup twoEntries.val = .ok q ∧
    run (step .debug) (System.start q)
      [.send oneBuffer, .complete 0 7, .poll 0 0, .send oneBuffer, .complete 1 9] = some s ∧
    (Throughout (step .debug) (System.start q) (Delivers .debug)
        [.send oneBuffer, .complete 0 7, .poll 0 0, .send oneBuffer, .complete 1 9] ↔
      Along (step .debug) (System.start q) OneAtATime
        [.send oneBuffer, .complete 0 7, .poll 0 0, .send oneBuffer, .complete 1 9]) :=
  ⟨_, _, rfl, rfl, delivers_iff_oneAtATime .debug twoEntries _ rfl _ _ rfl⟩

/-- Two completions between two polls: the first request was completed with 7, yet its
poll stays pending, also after the second has returned. -/
theorem first_of_two_completions_lost : ∃ q s r, setup twoEntries.val = .ok q ∧
    run (step .release) (System.start q)
      [.send oneBuffer, .send oneBuffer, .complete 0 7, .complete 1 9, .poll 0 0, .poll 1 1] =
        some s ∧
    s.requests[0]? = some r ∧ r.completed = some 7 ∧ r.returned = none ∧
    (r.future.poll .release s.queue 0).map Prod.snd = .ok .pending :=
  ⟨_, _, _, rfl, rfl, rfl, rfl, rfl, rfl⟩

/-! ### No spurious completion -/

/-- The steps of a queue whose device may be reset. -/
inductive ResetEvent where
  | queue (e : Event)
  | reinit
deriving DecidableEq, Repr

/-- The device is reset and the queue reinitialised: the device starts its used index
at 0 and does not touch the used ring. -/
def System.reinit (s : System) : System :=
  { queue := s.queue.reinit, deviceUsed := 0, latest := none, requests := [] }

def resetStep (p : Profile) (s : System) : ResetEvent → Option System
  | .queue e => step p s e
  | .reinit => if s.requests.all (·.returned.isSome) then some s.reinit else none

/-- A poll that returns does so with what the device wrote for its request. -/
def Genuine (p : Profile) (s : System) (e : ResetEvent) : Prop :=
  ∀ i waker r, e = .queue (.poll i waker) → s.requests[i]? = some r → r.returned = none →
    ∀ queue written, r.future.poll p s.queue waker = .ok (queue, .ready written) →
      r.completed = some written

/-- The step is no poll that meets a used element left over from before a reset. -/
def NoStalePoll (s : System) (e : ResetEvent) : Prop :=
  ∀ i waker r, e = .queue (.poll i waker) → s.requests[i]? = some r → r.returned = none →
    ¬ Stale s r

namespace Inv

variable {p : Profile} {size : QueueSize} {s s' : System} {e : ResetEvent}

section

variable (inv : Inv p size s)

include inv

theorem reinit_keeps : Inv p size s.reinit where
  descriptorLength := inv.descriptorLength
  availableSize := inv.availableSize
  availableLength := inv.availableLength
  usedSize := inv.usedSize
  usedLength := inv.usedLength
  conserved := by simp [System.reinit, reinit, inv.descriptorLength]
  linked := by simp [System.reinit]
  headed := by simp [System.reinit]
  genuine := by simp [System.reinit]
  sentCount := rfl
  sentBound := by simp [System.reinit]
  doneCount := rfl
  newest := by simp [System.reinit]
  quiet := fun _ => ⟨rfl, by simp [System.reinit]⟩

theorem resetStep_keeps (fresh : NoStalePoll s e) (h : resetStep p s e = some s') :
    Inv p size s' := by
  cases e with
  | reinit =>
    rw [resetStep, Option.ite_none_right_eq_some] at h
    obtain ⟨-, hs⟩ := h
    cases hs
    exact inv.reinit_keeps
  | queue e =>
    cases e with
    | send => exact inv.send_keeps h
    | complete => exact inv.complete_keeps h
    | poll i waker => exact inv.poll_keeps (fun r hr hlive => fresh i waker r rfl hr hlive) h

/-- A poll that meets a stale element returns it, although its request is not
completed. -/
theorem poll_stale {i : Nat} {r : Request} (hr : s.requests[i]? = some r)
    (hlive : r.returned = none) (stale : Stale s r) (waker : Waker) : r.completed = none ∧
      ∃ queue written, r.future.poll p s.queue waker = .ok (queue, .ready written) := by
  obtain ⟨hlatest, hne, e, he, hhead⟩ := stale
  obtain ⟨hzero, hnone⟩ := inv.quiet hlatest
  refine ⟨hnone r (mem_of_getElem? hr), s.queue.recycled r.future waker r.popped,
    e.written, ?_⟩
  have news : s.queue.used.headIndex ≠ s.queue.usedHead := fun h => hne (h.trans hzero)
  rw [poll_news news fun h => hne h.2, he, unwrap, ok_bind, if_pos hhead, hhead,
    inv.walk_eq hr hlive, ok_bind]

theorem genuine_iff : Genuine p s e ↔ NoStalePoll s e := by
  constructor
  · intro genuine i waker r he hr hlive stale
    obtain ⟨hnone, queue, written, hpoll⟩ := inv.poll_stale hr hlive stale waker
    rw [genuine i waker r he hr hlive queue written hpoll] at hnone
    cases hnone
  · intro fresh i waker r he hr hlive queue written hpoll
    rcases poll_eq_ok hpoll with ⟨hpending, -⟩ | ⟨news, u, -, hu, hhead, -, hres, -⟩
    · cases hpending
    · cases hres
      exact (inv.own_element hr hlive (fresh i waker r he hr hlive) news hu hhead).2

end

end Inv

/-- **No completion is spurious exactly when no poll meets a stale element.** Over
every interleaving of sends, completions, polls and device resets with `reinit`, in
either profile: each poll that returns `Ready(w)` belongs to a request for which the
device has appended a used element with `written = w` since it was sent, if and only
if no poll finds, before the first completion after a reset, a non-zero used index
whose newest element carries the head of the polled request. -/
theorem genuine_iff_noStalePoll (p : Profile) (size : QueueSize) (q : Queue)
    (hq : setup size.val = .ok q) (es : List ResetEvent) (s : System)
    (h : run (resetStep p) (System.start q) es = some s) :
    Along (resetStep p) (System.start q) (Genuine p) es ↔
      Along (resetStep p) (System.start q) NoStalePoll es :=
  along_iff_along (.start (.of_setup hq))
    (fun _ _ _ (inv : Inv p size _) fresh hstep => inv.resetStep_keeps fresh hstep)
    (fun _ _ _ inv _ => inv.genuine_iff) h

/-- One request before a reset and one after it, each completed before it is polled. -/
def resetBetween : List ResetEvent :=
  [.queue (.send oneBuffer), .queue (.complete 0 7), .queue (.poll 0 0), .reinit,
    .queue (.send oneBuffer), .queue (.complete 0 9), .queue (.poll 0 0)]

theorem genuine_iff_noStalePoll_resetBetween : ∃ q s, setup twoEntries.val = .ok q ∧
    run (resetStep .debug) (System.start q) resetBetween = some s ∧
    (Along (resetStep .debug) (System.start q) (Genuine .debug) resetBetween ↔
      Along (resetStep .debug) (System.start q) NoStalePoll resetBetween) :=
  ⟨_, _, rfl, rfl, genuine_iff_noStalePoll .debug twoEntries _ rfl _ _ rfl⟩

/-- The request sent after a reset has not been completed, and its poll returns the 7
written for the request before the reset. -/
theorem stale_element_completes : ∃ q s r, setup twoEntries.val = .ok q ∧
    run (resetStep .release) (System.start q)
      [.queue (.send oneBuffer), .queue (.complete 0 7), .queue (.poll 0 0), .reinit,
        .queue (.send oneBuffer)] = some s ∧
    s.requests[0]? = some r ∧ r.completed = none ∧
    (r.future.poll .release s.queue 0).map Prod.snd = .ok (.ready 7) :=
  ⟨_, _, _, rfl, rfl, rfl, rfl, rfl⟩

end RedoxDrivers.Virtio
