import RedoxDrivers.Virtio.Completion

/-!
What the queue never loses: its descriptors and its place in the rings.

* `descriptors_conserved`: in every state of every run, the free stack and the
  chains of the unfinished requests are the whole descriptor table, each
  descriptor once; sends and polls take and give back exactly their own.
* `counters_exact`: the `n`-th send fills slot `n` of the available ring, modulo
  its size, and a poll that has news looks at the newest used element; the checked
  `u16` operations of `send` and `poll` stay in range in a run exactly when it has
  fewer than `2 ^ 16` sends.
-/

namespace RedoxDrivers.Virtio

open Lib List Queue PendingRequest Request

/-! ### Descriptors -/

/-- The chains of the unfinished requests, each walked from its first descriptor. -/
def System.chains (s : System) : Except Fault (List (List U16)) :=
  (s.requests.filter (·.returned.isNone)).mapM fun r =>
    walk s.queue.descriptor s.queue.descriptor.length r.future.firstDescriptor

theorem mapM_eq_ok {α β : Type} {f : α → Except Fault β} {g : α → β} {l : List α}
    (h : ∀ a ∈ l, f a = .ok (g a)) : l.mapM f = .ok (l.map g) := by
  induction l with
  | nil => rfl
  | cons a l ih =>
    rw [mapM_cons, h a mem_cons_self, ih fun b hb => h b (mem_cons_of_mem _ hb)]
    rfl

theorem flatten_popped (requests : List Request) :
    ((requests.filter (·.returned.isNone)).map popped).flatten =
      requests.flatMap held := by
  induction requests with
  | nil => rfl
  | cons r requests ih =>
    rw [flatMap_cons, ← ih, held, filter_cons]
    split <;> simp

theorem map_toNat_indices {n : Nat} (hn : n ≤ 65536) : (indices n).map BitVec.toNat = range n := by
  rw [indices, map_map]
  refine (map_congr_left fun k hk => ?_).trans (map_id _)
  have := mem_range.mp hk
  simp only [Function.comp_apply, BitVec.toNat_ofNat, id_eq]
  omega

/-- **Descriptors are conserved.** In every state of every run of sends, completions
and polls: walking the chains of the unfinished requests ends, and the free stack and
those chains are together the indices of the descriptor table, each once. A `send`
pops the chain of its request off the stack and changes no descriptor of an unfinished
chain, whose walk is what its own `send` popped; and a poll that returns pushes
exactly that. -/
theorem descriptors_conserved (p : Profile) (size : QueueSize) (q : Queue)
    (hq : setup size.val = .ok q) (es : List Event) (s : System)
    (h : run (step p) (System.start q) es = some s) : s.queue.descriptor.length = size.val ∧
    (∃ chains, s.chains = .ok chains ∧
      ((s.queue.descriptorStack ++ chains.flatten).map BitVec.toNat).Perm
        (List.range s.queue.descriptor.length)) ∧
    (∀ buffers s', s.send p buffers = some s' →
      (∃ r, s'.requests = s.requests ++ [r] ∧
        s.queue.descriptorStack = r.popped ++ s'.queue.descriptorStack) ∧
      ∀ r ∈ s.requests, r.returned = none → ∀ i ∈ r.popped,
        s'.queue.descriptor[i.toNat]? = s.queue.descriptor[i.toNat]?) ∧
    ∀ (i : Nat) (r : Request), s.requests[i]? = some r → r.returned = none →
      walk s.queue.descriptor s.queue.descriptor.length r.future.firstDescriptor =
        .ok r.popped ∧
      ∀ waker queue written, r.future.poll p s.queue waker = .ok (queue, .ready written) →
        queue.descriptorStack = s.queue.descriptorStack ++ r.popped := by
  have live := Live.of_run hq h
  refine ⟨live.descriptorLength, ⟨_, mapM_eq_ok (g := popped) fun r hr => ?_, ?_⟩,
    fun buffers s' hsend => ?_, fun i r hr hlive => ?_⟩
  · obtain ⟨hmem, hlive⟩ := mem_filter.mp hr
    obtain ⟨i, hi⟩ := getElem?_of_mem hmem
    exact live.walk_eq hi (by simpa using hlive)
  · rw [flatten_popped, live.descriptorLength,
      ← map_toNat_indices (size.le.trans (by decide))]
    exact live.conserved.map BitVec.toNat
  · obtain ⟨r, head, sent⟩ := live.sent hsend
    exact ⟨⟨r, sent.requests, sent.stack⟩,
      fun t ht htlive i hi => live.chain_kept sent ht htlive hi⟩
  · refine ⟨live.walk_eq hr hlive, fun waker queue written hpoll => ?_⟩
    rcases poll_eq_ok hpoll with ⟨hpending, -⟩ | ⟨-, e, pushed, -, -, hwalk, -, rfl⟩
    · cases hpending
    · rw [live.walk_eq hr hlive] at hwalk
      cases hwalk
      rfl

/-- Two sends of which the first has returned. -/
theorem descriptors_conserved_two_requests : ∃ q s, setup twoEntries.val = .ok q ∧
    run (step .debug) (System.start q)
      [.send oneBuffer, .send oneBuffer, .complete 0 7, .poll 0 0] = some s ∧
    ∃ chains, s.chains = .ok chains ∧
      ((s.queue.descriptorStack ++ chains.flatten).map BitVec.toNat).Perm
        (List.range s.queue.descriptor.length) :=
  ⟨_, _, rfl, rfl, (descriptors_conserved .debug twoEntries _ rfl
    [.send oneBuffer, .send oneBuffer, .complete 0 7, .poll 0 0] _ rfl).2.1⟩

/-! ### Ring counters -/

def Event.isSend : Event → Bool
  | .send _ => true
  | _ => false

/-- The number of sends in a run. -/
def sends (es : List Event) : Nat := es.countP Event.isSend

/-- The checked build executes the call of the step without an overflow. -/
def NoOverflow (s : System) : Event → Prop
  | .send buffers => ∀ chain, ChainBuilder.ofBuffers buffers = .ok chain →
      s.queue.send .debug chain ≠ .error .overflow
  | .complete _ _ => True
  | .poll i waker => ∀ r, s.requests[i]? = some r →
      r.future.poll .debug s.queue waker ≠ .error .overflow

section Counters

variable {p : Profile} {size : QueueSize} {q : Queue} {s s' : System} {e : Event}
  {es : List Event}

theorem sends_snoc : sends (es ++ [e]) = sends es + if e.isSend then 1 else 0 := by
  rw [sends, countP_append, countP_singleton]
  rfl

/-- Only sends add requests. -/
theorem Live.length_step (live : Live p size s) (h : step p s e = some s') :
    s'.requests.length = s.requests.length + if e.isSend then 1 else 0 := by
  cases e with
  | send =>
    obtain ⟨r, head, sent⟩ := live.sent h
    simp [sent.requests, Event.isSend]
  | complete =>
    obtain ⟨r, -, -, rfl⟩ := System.complete_eq_some h
    simp [Event.isSend]
  | poll =>
    obtain ⟨r, -, -, rfl | ⟨-, e, pushed, -, -, -, rfl⟩⟩ := System.poll_cases h
    · rfl
    · simp [Event.isSend]

theorem length_eq_sends (hq : setup size.val = .ok q)
    (h : run (step p) (System.start q) es = some s) : s.requests.length = sends es := by
  refine run_induction (motive := fun es s => s.requests.length = sends es) rfl ?_ h
  intro es s e s' hs ih hstep
  rw [(Live.of_run hq hs).length_step hstep, ih, sends_snoc]

theorem Live.toNat_available (live : Live p size s) :
    s.queue.available.headIndex.toNat = s.requests.length % 65536 := by
  rw [live.sentCount, BitVec.toNat_ofNat]

/-- A checked send overflows when its number is the last of a lap of the index. -/
theorem noOverflow_send (live : Live p size s) {buffers : List Buffer}
    (h : s.send p buffers = some s') :
    NoOverflow s (.send buffers) ↔ s.requests.length % 65536 ≠ 65535 := by
  obtain ⟨chain, queue, future, hchain, hsend, -⟩ := System.send_eq_some h
  have hdebug := send_debug hsend
  rw [live.toNat_available] at hdebug
  constructor
  · intro safe hmax
    rw [if_pos hmax] at hdebug
    exact safe chain hchain hdebug
  · intro hroom chain' hchain' hoverflow
    cases hchain.symm.trans hchain'
    rw [hdebug, if_neg hroom] at hoverflow
    cases hoverflow

/-- With fewer than `2 ^ 16` requests a checked poll does not underflow. -/
theorem noOverflow_poll (live : Live p size s) {i : Nat} {waker : Waker}
    (h : s.poll p i waker = some s') (few : s.requests.length ≤ 65535) :
    NoOverflow s (.poll i waker) := by
  obtain ⟨r, hr, hlive, -⟩ := System.poll_cases h
  intro r' hr'
  cases hr.symm.trans hr'
  by_cases news : s.queue.used.headIndex = s.queue.usedHead
  · rw [poll_idle news]
    simp
  · obtain ⟨e, hlatest, hexamined⟩ := live.latest_of_news news
    rw [poll_news news fun hzero => live.head_ne_zero hlatest few hzero.2,
      hexamined, unwrap, ok_bind]
    split
    · rename_i hhead
      rw [hhead, live.walk_eq hr hlive]
      simp
    · simp

/-- The checked operations of a run stay in range exactly if it has fewer than
`2 ^ 16` sends. -/
theorem noOverflow_iff (hq : setup size.val = .ok q)
    (h : run (step p) (System.start q) es = some s) :
    Along (step p) (System.start q) NoOverflow es ↔ sends es ≤ 65535 := by
  refine run_induction
    (motive := fun es _ => Along (step p) (System.start q) NoOverflow es ↔ sends es ≤ 65535)
    ⟨fun _ => Nat.zero_le _, fun _ => along_nil⟩ ?_ h
  intro es s e s' hs ih hstep
  have live : Live p size s := Live.of_run hq hs
  have hlen := length_eq_sends hq hs
  have hlast : (∀ t, run (step p) (System.start q) es = some t → NoOverflow t e) ↔
      NoOverflow s e := by
    simp [hs]
  rw [along_snoc, hlast, ih, sends_snoc]
  cases e with
  | send buffers =>
    rw [noOverflow_send live hstep, hlen, if_pos (by rfl)]
    omega
  | complete => exact and_iff_left trivial
  | poll =>
    exact and_iff_left_of_imp fun few => noOverflow_poll live hstep (hlen ▸ few)

/-- The slot of the `n`-th send is `n` modulo the size, also past `2 ^ 16`: the size
divides it. -/
theorem Live.send_slot (live : Live p size s) {r : Request} {head : U16}
    (sent : Inv.Sent p s s' r head) :
    s'.queue.available.elements[s.requests.length % size.val]? = some head ∧
      s'.queue.available.headIndex.toNat = (s.requests.length + 1) % 2 ^ 16 := by
  have hslot : s.queue.available.headIndex.toNat % s.queue.available.queueSize =
      s.requests.length % size.val := by
    rw [live.toNat_available, live.availableSize, Nat.mod_mod_of_dvd _ size.dvd]
  rw [sent.available, hslot]
  constructor
  · refine getElem?_set_self ?_
    rw [live.availableLength]
    exact Nat.mod_lt _ size.pos
  · simp [live.sentCount]

end Counters

/-- **The ring counters.** In every run of sends, completions and polls, in either
profile: the checked operations of `send` and `poll` stay in range all along the run
exactly if it has fewer than `2 ^ 16` sends; the `n`-th send stores its head in the
available slot `n` modulo the queue size and leaves the index at `n + 1` modulo
`2 ^ 16`; and a poll that has news examines the element appended last. -/
theorem counters_exact (p : Profile) (size : QueueSize) (q : Queue)
    (hq : setup size.val = .ok q) (es : List Event) (s : System)
    (h : run (step p) (System.start q) es = some s) :
    (Along (step p) (System.start q) NoOverflow es ↔ sends es < 2 ^ 16) ∧
    (∀ buffers s', step p s (.send buffers) = some s' → ∃ r head,
      s'.requests = s.requests ++ [r] ∧ r.future.firstDescriptor = head.setWidth 32 ∧
      s'.queue.available.elements[sends es % size.val]? = some head ∧
      s'.queue.available.headIndex.toNat = (sends es + 1) % 2 ^ 16) ∧
    (s.queue.used.headIndex ≠ s.queue.usedHead →
      ∃ e, s.latest = some e ∧ s.queue.examined = some e) := by
  have live := Live.of_run hq h
  refine ⟨(noOverflow_iff hq h).trans Nat.lt_succ_iff.symm, fun buffers s' hsend => ?_,
    live.latest_of_news⟩
  obtain ⟨r, head, sent⟩ := live.sent hsend
  have hslot := live.send_slot sent
  rw [length_eq_sends hq h] at hslot
  exact ⟨r, head, sent.requests, sent.first, hslot⟩

/-! ### The run that overflows -/

/-- Request `n` is sent, completed and polled. -/
def cycle (n : Nat) : List Event := [.send oneBuffer, .complete n 0, .poll n 0]

/-- The requests `0` to `n - 1`, one after the other. -/
def cycles : Nat → List Event
  | 0 => []
  | n + 1 => cycles n ++ cycle n

theorem sends_cycles (n : Nat) : sends (cycles n) = n := by
  induction n with
  | zero => rfl
  | succ n ih =>
    rw [cycles, sends, countP_append]
    exact congrArg (· + 1) ih

/-- After `n` requests that have all returned. -/
structure Settled (p : Profile) (size : QueueSize) (n : Nat) (s : System) : Prop
    extends Caught p size s where
  count : s.requests.length = n
  done : ∀ r ∈ s.requests, r.returned.isSome
  idle : s.queue.used.headIndex = s.queue.usedHead

section Overflow

variable {p : Profile} {size : QueueSize} {q : Queue} {s s' : System} {n : Nat}

/-- A chain that is not longer than the free stack can be sent, unless the available
index overflows. -/
theorem Live.send_total (live : Live p size s) (build : Profile) {chain : List Buffer}
    (ne : chain ≠ []) (len : chain.length ≤ s.queue.descriptorStack.length)
    (room : ¬ (build = .debug ∧ s.requests.length % 65536 = 65535)) :
    ∃ queue future, s.queue.send build chain = .ok (queue, future) := by
  obtain ⟨⟨queue, future⟩, hsend⟩ : ∃ res, s.queue.send build chain = .ok res := by
    refine Queue.send_total ne len live.stack_bound ?_ (live.toNat_available ▸ room)
    rw [live.availableSize, live.availableLength]
    exact Nat.mod_lt _ size.pos
  exact ⟨queue, future, hsend⟩

/-- The chain of `oneBuffer`. -/
theorem ofBuffers_oneBuffer : ∃ chain, ChainBuilder.ofBuffers oneBuffer = .ok chain ∧
    chain.length = 1 :=
  ⟨_, rfl, rfl⟩

namespace Settled

section

variable (settled : Settled p size n s)

include settled

theorem stack_length : s.queue.descriptorStack.length = size.val := by
  have hheld : s.requests.flatMap held = [] := by
    refine flatMap_eq_nil_iff.mpr fun r hr => ?_
    simp [held, Option.isNone_eq_false_iff.mpr (settled.done r hr)]
  have hall := settled.conserved.length_eq
  rw [hheld, append_nil] at hall
  simpa [indices] using hall

theorem send_total (build : Profile) {chain : List Buffer} (one : chain.length = 1)
    (room : ¬ (build = .debug ∧ n % 65536 = 65535)) :
    ∃ queue future, s.queue.send build chain = .ok (queue, future) := by
  refine settled.toLive.send_total build ?_ ?_ (settled.count ▸ room)
  · exact ne_nil_of_length_eq_add_one one
  · rw [one, settled.stack_length]
    exact size.pos

theorem send_enabled (room : n < 65535) : ∃ s', s.send p oneBuffer = some s' := by
  obtain ⟨chain, hchain, one⟩ := ofBuffers_oneBuffer
  obtain ⟨queue, future, hsend⟩ := settled.send_total p one (by omega)
  simp [System.send, hchain, hsend, Except.toOption]

theorem cycle (room : n < 65535) :
    ∃ s', run (step p) s (cycle n) = some s' ∧ Settled p size (n + 1) s' := by
  obtain ⟨s₁, h₁⟩ := settled.send_enabled room
  obtain ⟨r, head, sent⟩ := settled.sent h₁
  have caught₁ : Caught p size s₁ := settled.toCaught.keeps (e := .send oneBuffer) nofun h₁
  have hr : s₁.requests[n]? = some r := by
    simp [sent.requests, settled.count]
  have idle₁ : s₁.queue.used.headIndex = s₁.queue.usedHead := by
    rw [sent.used, sent.usedHead]
    exact settled.idle
  obtain ⟨s₂, h₂⟩ : ∃ s₂, s₁.complete n 0 = some s₂ := by
    simp [System.complete, hr, sent.completed]
  have caught₂ := caught₁.complete_keeps idle₁ h₂
  obtain ⟨r', hr', -, hs₂⟩ := System.complete_eq_some h₂
  cases hr.symm.trans hr'
  have hr₂ : s₂.requests[n]? = some { r with completed := some 0 } := by
    rw [hs₂]
    exact List.getElem?_set_self (List.getElem?_eq_some_iff.mp hr).1
  obtain ⟨queue, hpoll⟩ := caught₂.delivers _ (mem_of_getElem? hr₂) 0 rfl sent.returned 0
  have h₃ : s₂.poll p n 0 = some { s₂ with
      queue
      requests := s₂.requests.set n { r with completed := some 0, returned := some 0 } } := by
    simp [System.poll, hr₂, sent.returned, hpoll, Except.toOption, Poll.value]
  have hrequests : s₂.requests.set n { r with completed := some 0, returned := some 0 } =
      s.requests ++ [{ r with completed := some 0, returned := some 0 }] := by
    simp [hs₂, sent.requests, ← settled.count]
  refine ⟨_, ?_, caught₂.poll_keeps h₃, ?_, ?_, ?_⟩
  · rw [RedoxDrivers.Virtio.cycle, run_cons, step, h₁, Option.bind_some, run_cons, step, h₂,
      Option.bind_some, run_cons, step, h₃]
    rfl
  · simp only [hrequests, length_append, length_singleton, settled.count]
  · intro t ht
    rw [hrequests, mem_append, mem_singleton] at ht
    rcases ht with hold | rfl
    · exact settled.done t hold
    · rfl
  · rcases poll_eq_ok hpoll with ⟨hpending, -⟩ | ⟨-, e, pushed, -, -, -, -, rfl⟩
    · cases hpending
    · rfl

end

theorem of_cycles (hq : setup size.val = .ok q) (hn : n ≤ 65535) :
    ∃ s, run (step p) (System.start q) (cycles n) = some s ∧ Settled p size n s := by
  induction n with
  | zero =>
    have fresh := Fresh.of_setup hq
    exact ⟨_, rfl, .start fresh, rfl, nofun, fresh.usedRingHead.trans fresh.usedHead.symm⟩
  | succ n ih =>
    obtain ⟨s, hs, settled⟩ := ih (by omega)
    obtain ⟨s', hs', settled'⟩ := settled.cycle (by omega)
    refine ⟨s', ?_, settled'⟩
    rw [cycles, run_append, hs]
    exact hs'

end Settled

end Overflow

theorem counters_exact_two_requests : ∃ q s, setup twoEntries.val = .ok q ∧
    run (step .debug) (System.start q) (cycles 2) = some s ∧
    (Along (step .debug) (System.start q) NoOverflow (cycles 2) ↔ sends (cycles 2) < 2 ^ 16) :=
  ⟨_, _, rfl, rfl, (counters_exact .debug twoEntries _ rfl (cycles 2) _ rfl).1⟩

/-- In a checked build 65535 requests go through and the send of the next one
overflows. -/
theorem send_overflows : ∃ q s chain, setup twoEntries.val = .ok q ∧
    run (step .debug) (System.start q) (cycles 65535) = some s ∧
    sends (cycles 65535) = 65535 ∧ ChainBuilder.ofBuffers oneBuffer = .ok chain ∧
    s.queue.send .debug chain = .error .overflow := by
  obtain ⟨q, hq, -⟩ := setup_spec twoEntries
  obtain ⟨s, hs, settled⟩ := Settled.of_cycles (p := .debug) hq (Nat.le_refl 65535)
  obtain ⟨chain, hchain, one⟩ := ofBuffers_oneBuffer
  obtain ⟨queue, future, hsend⟩ := settled.send_total .release one nofun
  refine ⟨q, s, chain, hq, hs, sends_cycles _, hchain, ?_⟩
  rw [send_debug hsend, settled.toLive.toNat_available, settled.count]
  exact if_pos rfl

end RedoxDrivers.Virtio
