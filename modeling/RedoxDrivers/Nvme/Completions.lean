import RedoxDrivers.Nvme.CqReactor

/-!
The NVMe completion queue (`storage/nvmed/src/nvme/queues.rs`).

The controller writes entries to consecutive slots and never says how far it has come. Each
entry carries a phase tag that it inverts after every lap, and the driver takes the entry at
`head` if its tag is the one of the driver's lap. `complete_refines_fifo` says that this makes
a queue: a slot whose turn has not come still has the tag of the lap before (`stale`).
-/

namespace RedoxDrivers.Nvme

open Lib List Option Nat BitVec

/-- The phase tag. -/
def NvmeComp.phase (entry : NvmeComp) : Bool := (entry.status &&& 1) == 1

/-- The entry as the controller posts it in a lap with this phase tag. -/
def NvmeComp.tagged (entry : NvmeComp) (phase : Bool) : NvmeComp :=
  { entry with status := (entry.status &&& ~~~1) ||| (if phase then 1 else 0) }

theorem NvmeComp.phase_tagged (entry : NvmeComp) (phase : Bool) :
    (entry.tagged phase).phase = phase := by
  have hclear : (entry.status &&& ~~~1) &&& (1 : U16) = 0 := by
    rw [BitVec.and_assoc]
    simp
  have hand : (entry.tagged phase).status &&& 1 = if phase then 1 else 0 := by
    rw [tagged, BitVec.and_or_distrib_right, hclear]
    cases phase with
    | true | false => rfl
  rw [NvmeComp.phase, hand]
  cases phase with
  | true | false => rfl

/-- Memory as `Dma::zeroed_slice` gives it. -/
def NvmeComp.zeroed : NvmeComp := ⟨0, 0, 0, 0, 0⟩

/-- `head` is an index of `data`, so the read in `complete` stays within the memory; the length
is a 16-bit number, so `head + 1` does not overflow and the length cast to `u16` is not zero. -/
structure NvmeCompQueue where
  data : List NvmeComp
  head : U16
  phase : Bool
  len_lt : data.length < 2 ^ 16
  head_lt : head.toNat < data.length

namespace NvmeCompQueue

/-- An empty queue of `len` entries. -/
def zeroed (len : Nat) (pos : 0 < len) (len_lt : len < 2 ^ 16) : NvmeCompQueue where
  data := List.replicate len .zeroed
  head := 0
  phase := true
  len_lt := by rwa [length_replicate]
  head_lt := by rwa [length_replicate]

def new : NvmeCompQueue := zeroed 256 (by decide) (by decide)

section

variable (self : NvmeCompQueue)

/-- The entry at `head`. -/
def entry : NvmeComp := self.data.get ⟨self.head.toNat, self.head_lt⟩

/-- The position behind `head`. -/
def nextHead : U16 := (self.head + 1) % BitVec.ofNat 16 self.data.length

theorem nextHead_toNat : self.nextHead.toNat = (self.head.toNat + 1) % self.data.length :=
  NvmeCmdQueue.add_one_umod_toNat self.len_lt self.head_lt

/-- The queue once the entry at `head` has been taken. -/
def advance : NvmeCompQueue :=
  { self with
    head := self.nextHead
    phase := if self.nextHead = 0 then !self.phase else self.phase
    head_lt := by
      rw [nextHead_toNat]
      exact mod_lt _ (zero_lt_of_lt self.head_lt) }

/-- `cmd_opt` makes the call pass over an entry of another command. -/
def complete (cmdOpt : Option (U16 × NvmeCmd)) : Option (U16 × NvmeComp) × NvmeCompQueue :=
  if cmdOpt.any fun (sqId, cmd) => self.entry.sqId != sqId || self.entry.cid != cmd.cid then
    (none, self)
  else if self.entry.phase == self.phase then (some (self.nextHead, self.entry), self.advance)
  else (none, self)

/-- The controller writes an entry to a slot. -/
def post (slot : Nat) (entry : NvmeComp) : NvmeCompQueue :=
  { self with
    data := self.data.set slot entry
    len_lt := by rw [length_set]; exact self.len_lt
    head_lt := by rw [length_set]; exact self.head_lt }

@[simp] theorem post_length (slot : Nat) (e : NvmeComp) :
    (self.post slot e).data.length = self.data.length := length_set

theorem getElem?_head : self.data[self.head.toNat]? = some self.entry := by
  exact List.getElem?_eq_getElem self.head_lt

end

end NvmeCompQueue

open NvmeCompQueue

/-! ### Laps -/

/-- The phase tag of a lap. -/
def lapPhase (lap : Nat) : Bool := lap % 2 == 0

theorem lapPhase_succ (lap : Nat) : lapPhase (lap + 1) = !lapPhase lap := by
  unfold lapPhase
  rcases mod_two_eq_zero_or_one lap with h | h
  all_goals simp [add_mod, h]

/-! ### Posts and calls -/

/-- What a completion queue is for: entries come out once, in the order they went in, each
with the number of entries taken so far, modulo the length. -/
structure Fifo where
  waiting : List NvmeComp
  consumed : Nat
deriving DecidableEq, Repr

namespace Fifo

def push (self : Fifo) (entry : NvmeComp) : Fifo :=
  { self with waiting := self.waiting ++ [entry] }

def pop (self : Fifo) (len : Nat) : Option (U16 × NvmeComp) × Fifo :=
  match self.waiting with
  | [] => (none, self)
  | entry :: rest =>
    (some (BitVec.ofNat 16 ((self.consumed + 1) % len), entry), ⟨rest, self.consumed + 1⟩)

end Fifo

/-- The completion queue between the controller and the driver, beside a `Fifo` that is given
the same entries. `posted` is the number of entries the controller has posted, `taken` that of
the entries the driver has been given; `returned` and `expected` are the results of the calls
of `complete(None)` on the queue and of `pop`. -/
structure CompTraffic where
  queue : NvmeCompQueue
  posted : Nat
  taken : Nat
  fifo : Fifo
  returned : List (Option (U16 × NvmeComp))
  expected : List (Option (U16 × NvmeComp))

inductive CompEvent where
  | post (entry : NvmeComp)
  | complete
deriving DecidableEq, Repr

namespace CompTraffic

def start (queue : NvmeCompQueue) : CompTraffic :=
  { queue, posted := 0, taken := 0, fifo := ⟨[], 0⟩, returned := [], expected := [] }

/-- The entry that the controller posts next if the command's outcome is `entry`. -/
def nextEntry (s : CompTraffic) (entry : NvmeComp) : NvmeComp :=
  entry.tagged (lapPhase (s.posted / s.queue.data.length))

/-- The controller does not get more than the length ahead of the entries that were taken. -/
def step (s : CompTraffic) : CompEvent → Option CompTraffic
  | .post entry =>
    if s.posted < s.taken + s.queue.data.length then
      some { s with
        queue := s.queue.post (s.posted % s.queue.data.length) (s.nextEntry entry)
        posted := s.posted + 1
        fifo := s.fifo.push (s.nextEntry entry) }
    else none
  | .complete =>
    let (result, queue) := s.queue.complete none
    let (wanted, fifo) := s.fifo.pop s.queue.data.length
    some { s with
      queue
      fifo
      taken := s.taken + result.toList.length
      returned := s.returned ++ [result]
      expected := s.expected ++ [wanted] }

/-- The queue holds what the `Fifo` holds, and its tags tell the two apart. -/
structure Tracks (s : CompTraffic) : Prop where
  taken_eq : s.taken = s.fifo.consumed
  posted_eq : s.posted = s.fifo.consumed + s.fifo.waiting.length
  head_eq : s.queue.head.toNat = s.fifo.consumed % s.queue.data.length
  phase_eq : s.queue.phase = lapPhase (s.fifo.consumed / s.queue.data.length)
  kept : Holds s.queue.data s.fifo.consumed s.fifo.waiting
  tagged : ∀ t e, s.fifo.waiting[t]? = some e →
    e.phase = lapPhase ((s.fifo.consumed + t) / s.queue.data.length)
  /-- A slot whose turn comes within the next lap has the tag of the lap before. -/
  stale : ∀ k e, s.posted ≤ k → k < s.posted + s.queue.data.length →
    s.queue.data[k % s.queue.data.length]? = some e →
      e.phase = !lapPhase (k / s.queue.data.length)
  agree : s.returned = s.expected

section Steps

variable {s s' : CompTraffic}

theorem len_pos (s : CompTraffic) : 0 < s.queue.data.length := zero_lt_of_lt s.queue.head_lt

theorem Tracks.start {len : Nat} (pos : 0 < len) (len_lt : len < 2 ^ 16) :
    (start (.zeroed len pos len_lt)).Tracks where
  taken_eq := rfl
  posted_eq := rfl
  head_eq := (Nat.zero_mod _).symm
  phase_eq := by
    change true = lapPhase (0 / _)
    rw [Nat.zero_div]
    rfl
  kept := .nil
  tagged := fun t e h => by cases h
  stale := by
    intro k e _ hlt he
    have hlen : (CompTraffic.start (.zeroed len pos len_lt)).queue.data.length = len :=
      List.length_replicate
    rw [hlen] at hlt ⊢
    have hzero : e = .zeroed := List.eq_of_mem_replicate (List.mem_of_getElem? he)
    have hfirst : k / len = 0 := Nat.div_eq_of_lt (by simpa [CompTraffic.start] using hlt)
    rw [hfirst, hzero]
    rfl
  agree := rfl

section

variable (h : s.Tracks)

include h

theorem Tracks.post {entry : NvmeComp} (hstep : s.step (.post entry) = some s') : s'.Tracks := by
  obtain ⟨hroom, heq⟩ := ite_none_right_eq_some.mp hstep
  cases heq
  rw [h.taken_eq, h.posted_eq] at hroom
  have hposted := h.posted_eq
  have hslot : s.posted % s.queue.data.length < s.queue.data.length := mod_lt _ s.len_pos
  refine ⟨h.taken_eq, ?_, ?_, ?_, ?_, ?_, ?_, h.agree⟩
  · simp only [Fifo.push, length_append, length_singleton]
    omega
  · rw [post_length]
    exact h.head_eq
  · rw [post_length]
    exact h.phase_eq
  · rw [h.posted_eq]
    exact h.kept.push (by omega)
  · intro t e he
    rw [post_length]
    rcases getElem?_push he with ⟨-, he⟩ | ⟨rfl, rfl⟩
    · exact h.tagged t e he
    · rw [nextEntry, NvmeComp.phase_tagged, h.posted_eq]
      rfl
  · intro k e hle hlt he
    rw [post_length] at hlt he ⊢
    change s.posted + 1 ≤ k at hle
    change k < s.posted + 1 + _ at hlt
    rcases lt_or_ge k (s.posted + s.queue.data.length) with hnear | hfar
    · have hne := slot_ne (m := s.queue.data.length) (show s.posted < k by omega) hnear
      refine h.stale k e (by omega) hnear ?_
      rwa [post, List.getElem?_set_ne hne] at he
    · -- The slot that has just been written: its turn comes again a lap later.
      obtain rfl : k = s.posted + s.queue.data.length := by omega
      rw [add_mod_right, post, List.getElem?_set_self hslot] at he
      cases he
      rw [nextEntry, NvmeComp.phase_tagged, add_div_right _ s.len_pos, lapPhase_succ,
        Bool.not_not]

/-- The tag of the entry at `head` is the one of the lap exactly if an entry waits. -/
theorem Tracks.phase_iff : s.queue.entry.phase = s.queue.phase ↔ s.fifo.waiting ≠ [] := by
  have hentry := s.queue.getElem?_head
  rw [h.head_eq] at hentry
  rw [h.phase_eq]
  cases hwaiting : s.fifo.waiting with
  | nil =>
    have hposted : s.posted = s.fifo.consumed := by rw [h.posted_eq, hwaiting]; rfl
    have hstale := h.stale s.fifo.consumed s.queue.entry (by omega)
      (by have := s.len_pos; omega) hentry
    rw [hstale]
    simp
  | cons e =>
    have htag := h.tagged 0 e (by rw [hwaiting]; rfl)
    have hkept := h.kept
    rw [hwaiting] at hkept
    obtain rfl : s.queue.entry = e := some.inj (hentry.symm.trans hkept.head)
    simp [htag]

/-- In every state the call returns what the `Fifo` gives. -/
theorem Tracks.complete_eq : (s.queue.complete none).1 = (s.fifo.pop s.queue.data.length).1 := by
  have hphase := h.phase_iff
  cases hwaiting : s.fifo.waiting with
  | nil =>
    have hne : s.queue.entry.phase ≠ s.queue.phase := fun heq => hphase.mp heq hwaiting
    simp [complete, Fifo.pop, hwaiting, hne]
  | cons e =>
    have heq : s.queue.entry.phase = s.queue.phase := hphase.mpr (by rw [hwaiting]; simp)
    have hkept := h.kept
    rw [hwaiting] at hkept
    have hentry := s.queue.getElem?_head
    rw [h.head_eq] at hentry
    obtain rfl : s.queue.entry = e := some.inj (hentry.symm.trans hkept.head)
    have hhead : s.queue.nextHead =
        BitVec.ofNat 16 ((s.fifo.consumed + 1) % s.queue.data.length) := by
      have hlt := mod_lt (s.fifo.consumed + 1) s.len_pos
      have := s.queue.len_lt
      rw [← toNat_inj, nextHead_toNat, h.head_eq, mod_add_mod,
        toNat_ofNat_of_lt (hlt.trans this)]
    simp [complete, Fifo.pop, hwaiting, heq, hhead]

/-- A call that finds no entry changes nothing. -/
theorem Tracks.complete_none (hwaiting : s.fifo.waiting = []) : s.step .complete = some { s with
      returned := s.returned ++ [none], expected := s.expected ++ [none] } := by
  have hne : s.queue.entry.phase ≠ s.queue.phase := fun heq => h.phase_iff.mp heq hwaiting
  simp [step, complete, Fifo.pop, hwaiting, hne]

/-- A call that finds an entry takes it. -/
theorem Tracks.complete_some {e : NvmeComp} {rest : List NvmeComp}
    (hwaiting : s.fifo.waiting = e :: rest) : ∃ result, s.step .complete = some { s with
      queue := s.queue.advance
      fifo := ⟨rest, s.fifo.consumed + 1⟩
      taken := s.taken + 1
      returned := s.returned ++ [result]
      expected := s.expected ++ [result] } := by
  have heq : s.queue.entry.phase = s.queue.phase := h.phase_iff.mpr (by rw [hwaiting]; simp)
  have hresult := h.complete_eq
  simp only [Fifo.pop, hwaiting] at hresult
  have hcomplete : s.queue.complete none =
      (some (s.queue.nextHead, s.queue.entry), s.queue.advance) := by
    simp [complete, heq]
  refine ⟨some (s.queue.nextHead, s.queue.entry), ?_⟩
  simp only [step, hcomplete, Fifo.pop, hwaiting, ← hresult]
  rfl

theorem Tracks.advance {e : NvmeComp} {rest : List NvmeComp}
    (hwaiting : s.fifo.waiting = e :: rest) {result : Option (U16 × NvmeComp)} : Tracks { s with
      queue := s.queue.advance
      fifo := ⟨rest, s.fifo.consumed + 1⟩
      taken := s.taken + 1
      returned := s.returned ++ [result]
      expected := s.expected ++ [result] } := by
  have hposted := h.posted_eq
  rw [hwaiting, length_cons] at hposted
  have hkept := h.kept
  rw [hwaiting] at hkept
  have hhead : s.queue.nextHead.toNat = (s.fifo.consumed + 1) % s.queue.data.length := by
    rw [nextHead_toNat, h.head_eq, mod_add_mod]
  refine ⟨congrArg (· + 1) h.taken_eq, ?_, hhead, ?_, hkept.tail, ?_, h.stale,
    congrArg (· ++ [result]) h.agree⟩
  · change s.posted = s.fifo.consumed + 1 + rest.length
    omega
  · change (if s.queue.nextHead = 0 then !s.queue.phase else s.queue.phase) =
      lapPhase ((s.fifo.consumed + 1) / s.queue.data.length)
    have hzero : s.queue.nextHead = 0 ↔ (s.fifo.consumed + 1) % s.queue.data.length = 0 := by
      rw [← hhead, ← toNat_inj]
      rfl
    rcases succ_lap s.len_pos s.fifo.consumed with ⟨-, hnext, hlap⟩ | ⟨-, hnext, hlap⟩
    · rw [if_neg (by rw [hzero, hnext]; omega), hlap, h.phase_eq]
    · rw [if_pos (hzero.mpr hnext), hlap, lapPhase_succ, h.phase_eq]
  · intro t e' he'
    have htag := h.tagged (t + 1) e' (by rw [hwaiting]; exact he')
    change e'.phase = lapPhase ((s.fifo.consumed + 1 + t) / s.queue.data.length)
    rw [htag, add_assoc, add_comm 1]

theorem Tracks.step {e : CompEvent} (hstep : s.step e = some s') : s'.Tracks := by
  cases e with
  | post => exact h.post hstep
  | complete =>
    cases hwaiting : s.fifo.waiting with
    | nil =>
      rw [h.complete_none hwaiting] at hstep
      cases hstep
      exact { h with agree := congrArg (· ++ [none]) h.agree }
    | cons =>
      obtain ⟨result, hcomplete⟩ := h.complete_some hwaiting
      rw [hcomplete] at hstep
      cases hstep
      exact h.advance hwaiting

end

theorem step_length {e : CompEvent} (hstep : s.step e = some s') :
    s'.queue.data.length = s.queue.data.length := by
  cases e with
  | post =>
    obtain ⟨-, heq⟩ := ite_none_right_eq_some.mp hstep
    cases heq
    exact post_length _ _ _
  | complete =>
    cases hstep
    change (s.queue.complete none).2.data.length = _
    rw [complete]
    split
    · rfl
    · split
      · rfl
      · rfl

end Steps

end CompTraffic

open CompTraffic

/-- **A completion queue is a queue.** However the controller's posts and the driver's calls of
`complete(None)` follow each other, the calls return what a queue of the posted entries gives. -/
theorem complete_refines_fifo (es : List CompEvent) : Throughout step (.start .new)
      (fun s => s.queue.data.length = 256 ∧ s.returned = s.expected) es := by
  intro pre _ s hs
  have start : (start .new).Tracks := Tracks.start (by decide) (by decide)
  have tracks : s.Tracks := invariant_of_run start (fun _ _ _ h => h.step) hs
  have length : s.queue.data.length = 256 :=
    run_induction (motive := fun _ s => s.queue.data.length = 256) length_replicate
      (fun _ _ _ _ _ h hstep => (step_length hstep).trans h) hs
  exact ⟨length, tracks.agree⟩

theorem complete_refines_fifo_two_entries : ∃ s, run step (.start .new)
        [.complete, .post .zeroed, .post .zeroed, .complete, .complete, .complete] = some s ∧
      s.queue.data.length = 256 ∧ s.returned = s.expected := by
  have hrun : (run step (.start .new)
      [.complete, .post .zeroed, .post .zeroed, .complete, .complete, .complete]).map
        (·.taken) = some 2 := by decide +kernel
  obtain ⟨s, hs, -⟩ := map_eq_some_iff.mp hrun
  exact ⟨s, hs, complete_refines_fifo _ _ prefix_rfl s hs⟩

end RedoxDrivers.Nvme
