import RedoxDrivers.Lib.Laps
import RedoxDrivers.Lib.Runs
import RedoxDrivers.Lib.Rust

/-!
The NVMe submission queue (`storage/nvmed/src/nvme/queues.rs`).

The driver writes commands at `tail`, the controller fetches them in order, and the
driver learns from completion entries how far it has come: that position is `head`.

`is_full` compares `head` with `tail + 1` without reducing the sum modulo the length,
so with `head` at the first slot and `tail` at the last it calls a full queue not full.
`sound_iff_no_submit_before_wrap` says that this is the only way in which guarded
submissions go wrong.
-/

namespace RedoxDrivers.Nvme

open Lib List Option Nat BitVec

structure NvmeCmd where
  opcode : U8
  flags : U8
  cid : U16
  nsid : U32
  mptr : U64
  dptr : U64 × U64
  cdw10 : U32
  cdw11 : U32
  cdw12 : U32
  cdw13 : U32
  cdw14 : U32
  cdw15 : U32
deriving DecidableEq, Repr, Inhabited

/-- The queue copies its entries and never looks into them, so they may carry
bookkeeping beside the command.

`tail` is an index of `data`, so `submit_unchecked` does not index out of bounds; the
length is a 16-bit number, so `tail + 1` does not overflow and the length cast to
`u16` is not zero. The controller reports `head`, and it may be anything. -/
structure NvmeCmdQueue (α : Type) where
  data : List α
  tail : U16
  head : U16
  two_le : 2 ≤ data.length
  len_lt : data.length < 2 ^ 16
  tail_lt : tail.toNat < data.length

variable {α : Type}

namespace NvmeCmdQueue

/-- An empty queue over the memory `data`. -/
def ofData (data : List α) (two_le : 2 ≤ data.length) (len_lt : data.length < 2 ^ 16) :
    NvmeCmdQueue α :=
  { data, tail := 0, head := 0, two_le, len_lt, tail_lt := Nat.lt_of_lt_of_le Nat.zero_lt_two two_le }

def new [Inhabited α] : NvmeCmdQueue α :=
  ofData (List.replicate 64 default) (by rw [length_replicate]; decide)
    (by rw [length_replicate]; decide)

section

variable (self : NvmeCmdQueue α)

def isEmpty : Bool := self.head == self.tail

def isFull : Bool := self.head == self.tail + 1

/-- The position behind `tail`. -/
def nextTail : U16 := (self.tail + 1) % BitVec.ofNat 16 self.data.length

theorem add_one_toNat {pos : U16} {len : Nat} (len_lt : len < 2 ^ 16) (pos_lt : pos.toNat < len) :
    (pos + 1).toNat = pos.toNat + 1 := by
  have hone : (1 : U16).toNat = 1 := rfl
  rw [toNat_add, hone, mod_eq_of_lt (by omega)]

theorem add_one_umod_toNat {pos : U16} {len : Nat} (len_lt : len < 2 ^ 16)
    (pos_lt : pos.toNat < len) :
    ((pos + 1) % BitVec.ofNat 16 len).toNat = (pos.toNat + 1) % len := by
  rw [toNat_umod, toNat_ofNat_of_lt len_lt, add_one_toNat len_lt pos_lt]

theorem nextTail_toNat (q : NvmeCmdQueue α) :
    q.nextTail.toNat = (q.tail.toNat + 1) % q.data.length :=
  add_one_umod_toNat q.len_lt q.tail_lt

/-- Returns the new tail beside the queue. -/
def submitUnchecked (entry : α) : U16 × NvmeCmdQueue α :=
  (self.nextTail,
    { self with
      data := self.data.set self.tail.toNat entry
      tail := self.nextTail
      two_le := by rw [length_set]; exact self.two_le
      len_lt := by rw [length_set]; exact self.len_lt
      tail_lt := by
        rw [length_set, nextTail_toNat]
        exact Nat.mod_lt _ (Nat.lt_of_lt_of_le Nat.zero_lt_two self.two_le) })

/-- What the reactor does with the position a completion entry reports. -/
def setHead (head : U16) : NvmeCmdQueue α := { self with head }

end

section

variable (q : NvmeCmdQueue α) (x : α)

include q x

@[simp] theorem submitUnchecked_tail : (q.submitUnchecked x).2.tail = q.nextTail := rfl

@[simp] theorem submitUnchecked_head : (q.submitUnchecked x).2.head = q.head := rfl

@[simp] theorem submitUnchecked_length :
    (q.submitUnchecked x).2.data.length = q.data.length := length_set

end

@[simp] theorem setHead_length (q : NvmeCmdQueue α) (k : U16) :
    (q.setHead k).data.length = q.data.length := rfl

theorem isEmpty_iff {q : NvmeCmdQueue α} : q.isEmpty = true ↔ q.head.toNat = q.tail.toNat := by
  rw [isEmpty, beq_iff_eq, toNat_inj]

/-- `is_full` as the code computes it: no wrap behind the last slot. -/
theorem isFull_iff {q : NvmeCmdQueue α} : q.isFull = true ↔ q.head.toNat = q.tail.toNat + 1 := by
  rw [isFull, beq_iff_eq, ← toNat_inj, add_one_toNat q.len_lt q.tail_lt]

/-- `head` is at the first slot and a submission takes `tail` to the last one. -/
def BeforeWrap (q : NvmeCmdQueue α) : Prop := q.head = 0 ∧ q.tail.toNat + 2 = q.data.length

instance (q : NvmeCmdQueue α) : Decidable q.BeforeWrap := inferInstanceAs (Decidable (_ ∧ _))

end NvmeCmdQueue

open NvmeCmdQueue

/-! ### Guarded submissions and head updates -/

/-- A queue between a driver that asks `is_full` before it submits and a controller.
Beside the queue, for the statements: the commands the controller has not fetched, how
many it has fetched, and how many of these the last head update has reported. -/
structure SubmissionRing (α : Type) where
  queue : NvmeCmdQueue α
  unfetched : List α
  fetched : Nat
  reported : Nat

/-- `updateHead k` reports that the controller had fetched `k` commands. -/
inductive RingEvent (α : Type) where
  | submit (entry : α)
  | fetch
  | updateHead (k : Nat)

namespace SubmissionRing

def start (queue : NvmeCmdQueue α) : SubmissionRing α :=
  { queue, unfetched := [], fetched := 0, reported := 0 }

variable (s : SubmissionRing α)

def submitted : Nat := s.fetched + s.unfetched.length

/-- Completion entries are read in the order the controller posts them, and each reports
how far it had come then, so the reported positions do not go back. -/
def step : RingEvent α → Option (SubmissionRing α)
  | .submit entry =>
    if s.queue.isFull then none
    else some { s with
      queue := (s.queue.submitUnchecked entry).2
      unfetched := s.unfetched ++ [entry] }
  | .fetch =>
    match s.unfetched with
    | [] => none
    | _ :: rest => some { s with unfetched := rest, fetched := s.fetched + 1 }
  | .updateHead k =>
    if s.reported ≤ k ∧ k ≤ s.fetched then
      some { s with
        queue := s.queue.setHead (BitVec.ofNat 16 (k % s.queue.data.length))
        reported := k }
    else none

/-- What the queue is for. -/
structure Sound : Prop where
  /-- One slot at least is free. -/
  unfetched_lt : s.unfetched.length + 1 ≤ s.queue.data.length
  /-- The controller still finds every command it has not fetched. -/
  kept : Holds s.queue.data s.fetched s.unfetched
  isEmpty_iff : s.queue.isEmpty = true ↔ s.unfetched = [] ∧ s.reported = s.fetched
  /-- Full means one free slot, wherever `tail` stands. -/
  isFull_iff : s.queue.isFull = true ↔ s.submitted + 1 = s.reported + s.queue.data.length
  /-- The slot that a submission writes is not that of an unfetched command. -/
  tail_free : s.queue.isFull = false → ∀ k, s.fetched ≤ k → k < s.submitted →
    k % s.queue.data.length ≠ s.queue.tail.toNat

/-- The queue's positions are those of the counts. -/
structure Tracks : Prop where
  tail_eq : s.queue.tail.toNat = s.submitted % s.queue.data.length
  head_eq : s.queue.head.toNat = s.reported % s.queue.data.length
  reported_le : s.reported ≤ s.fetched
  near : s.submitted < s.reported + s.queue.data.length
  kept : Holds s.queue.data s.fetched s.unfetched

/-- `head` at the first slot and `tail` at the last. -/
def AtWrap : Prop :=
  s.queue.head.toNat = 0 ∧ s.queue.tail.toNat + 1 = s.queue.data.length

section Steps

variable {s s' : SubmissionRing α} {e : RingEvent α}

theorem Tracks.start (data : List α) (two_le : 2 ≤ data.length) (len_lt : data.length < 2 ^ 16) :
    (start (.ofData data two_le len_lt)).Tracks where
  tail_eq := (zero_mod _).symm
  head_eq := (zero_mod _).symm
  reported_le := le_rfl
  near := Nat.lt_of_lt_of_le Nat.zero_lt_two (two_le.trans (Nat.le_add_left _ _))
  kept := .nil

theorem len_pos (s : SubmissionRing α) : 0 < s.queue.data.length :=
  Nat.lt_of_lt_of_le Nat.zero_lt_two s.queue.two_le

section

variable (h : s.Tracks)

include h

theorem Tracks.reported_le_submitted : s.reported ≤ s.submitted :=
  h.reported_le.trans (le_add_right _ _)

/-- Away from the wrap, `is_full` is exact. -/
theorem Tracks.isFull_iff (away : ¬ s.AtWrap) :
    s.queue.isFull = true ↔ s.submitted + 1 = s.reported + s.queue.data.length := by
  rw [← succ_slot_eq_iff h.reported_le_submitted h.near, NvmeCmdQueue.isFull_iff, h.head_eq,
    h.tail_eq]
  unfold AtWrap at away
  rw [h.head_eq, h.tail_eq] at away
  have hlt := mod_lt s.reported s.len_pos
  rcases succ_lap s.len_pos s.submitted with ⟨-, hnext, -⟩ | ⟨hend, hnext, -⟩
  · rw [hnext, eq_comm]
  · omega

/-- At the wrap the queue is full and `is_full` denies it. -/
theorem Tracks.isFull_wrong (wrap : s.AtWrap) :
    s.queue.isFull = false ∧ s.submitted + 1 = s.reported + s.queue.data.length := by
  obtain ⟨hhead, htail⟩ := wrap
  constructor
  · rw [Bool.eq_false_iff, Ne, NvmeCmdQueue.isFull_iff, hhead]
    omega
  · rw [← succ_slot_eq_iff h.reported_le_submitted h.near, ← h.head_eq, hhead, add_mod,
      ← h.tail_eq, ← add_mod_mod, mod_mod, add_mod_mod, htail, mod_self]

theorem Tracks.sound_iff : s.Sound ↔ ¬ s.AtWrap := by
  constructor
  · intro sound wrap
    obtain ⟨hfull, hcount⟩ := h.isFull_wrong wrap
    exact absurd (sound.isFull_iff.mpr hcount) (by simp [hfull])
  · intro away
    have hle := h.reported_le
    have hnear := h.near
    unfold submitted at hnear
    refine ⟨by omega, h.kept, ?_, h.isFull_iff away, ?_⟩
    · rw [NvmeCmdQueue.isEmpty_iff, h.head_eq, h.tail_eq,
        slot_eq_iff h.reported_le_submitted h.near, submitted, ← length_eq_zero_iff]
      omega
    · intro hfull k hk hlt
      have hroom := mt (h.isFull_iff away).mpr (by simp [hfull])
      rw [h.tail_eq]
      unfold submitted at hroom hlt ⊢
      exact slot_ne hlt (by omega)

theorem Tracks.submit (away : ¬ s.AtWrap) {entry : α} (hstep : s.step (.submit entry) = some s') :
    s'.Tracks ∧ (s'.AtWrap ↔ s.queue.BeforeWrap) := by
  obtain ⟨hfull, ⟨⟩⟩ := ite_none_left_eq_some.mp hstep
  have hroom := mt (h.isFull_iff away).mpr hfull
  have hnear := h.near
  have hle := h.reported_le
  have htail : s.queue.nextTail.toNat = (s.submitted + 1) % s.queue.data.length := by
    rw [nextTail_toNat, h.tail_eq, mod_add_mod]
  constructor
  · constructor
    · simpa [submitted, add_assoc] using htail
    · simpa using h.head_eq
    · exact hle
    · simp only [submitted, length_append, length_singleton,
        submitUnchecked_length] at hnear hroom ⊢
      omega
    · have := h.kept.push (x := entry) (by unfold submitted at hnear; omega)
      rw [← submitted, ← h.tail_eq] at this
      exact this
  · simp only [AtWrap, BeforeWrap, submitUnchecked_length,
      submitUnchecked_head, submitUnchecked_tail, ← toNat_inj,
      nextTail_toNat]
    have hlt := s.queue.tail_lt
    have htwo := s.queue.two_le
    refine and_congr_right fun _ => ?_
    rcases Nat.lt_or_eq_of_le hlt with hin | hlast
    · rw [mod_eq_of_lt hin]
    · rw [succ_eq_add_one] at hlast
      rw [hlast, mod_self]
      omega

theorem Tracks.fetch (away : ¬ s.AtWrap) (hstep : s.step .fetch = some s') :
    s'.Tracks ∧ ¬ s'.AtWrap := by
  cases hcons : s.unfetched with
  | nil =>
    rw [step, hcons] at hstep
    cases hstep
  | cons x rest =>
    rw [step, hcons] at hstep
    cases hstep
    have hsub : s.submitted = s.fetched + 1 + rest.length := by
      rw [submitted, hcons, length_cons]
      omega
    have hkept := h.kept
    have hnear := h.near
    rw [hcons] at hkept
    rw [hsub] at hnear
    exact ⟨⟨by rw [h.tail_eq, hsub]; rfl, h.head_eq, h.reported_le.trans (le_succ _),
      hnear, hkept.tail⟩, away⟩

theorem Tracks.updateHead (away : ¬ s.AtWrap) {k : Nat} (hstep : s.step (.updateHead k) = some s') :
    s'.Tracks ∧ ¬ s'.AtWrap := by
  obtain ⟨⟨hback, hk⟩, ⟨⟩⟩ := ite_none_right_eq_some.mp hstep
  have hnear := h.near
  have hlen := s.queue.len_lt
  have hmod := mod_lt k s.len_pos
  have hhead : (BitVec.ofNat 16 (k % s.queue.data.length)).toNat = k % s.queue.data.length :=
    toNat_ofNat_of_lt (hmod.trans hlen)
  have tracks : Tracks { s with
      queue := s.queue.setHead (BitVec.ofNat 16 (k % s.queue.data.length)), reported := k } :=
    ⟨h.tail_eq, hhead, hk, hnear.trans_le (Nat.add_le_add_right hback _), h.kept⟩
  refine ⟨tracks, fun wrap => ?_⟩
  -- A full lap behind the new head is one behind the old head too, so they are the same.
  have hcount := (tracks.isFull_wrong wrap).2
  obtain rfl : k = s.reported := by
    simp only [submitted, setHead_length] at hcount hnear
    omega
  exact away ⟨by rw [h.head_eq, ← hhead]; exact wrap.1, wrap.2⟩

end

/-- The event is a submission that takes `tail` to the last slot with `head` at the first. -/
def SubmitsBeforeWrap (s : SubmissionRing α) : RingEvent α → Prop
  | .submit _ => s.queue.BeforeWrap
  | .fetch | .updateHead _ => False

instance (s : SubmissionRing α) : ∀ e, Decidable (SubmitsBeforeWrap s e)
  | .submit _ => inferInstanceAs (Decidable s.queue.BeforeWrap)
  | .fetch | .updateHead _ => inferInstanceAs (Decidable False)

theorem Tracks.step (h : s.Tracks) (away : ¬ s.AtWrap) (hstep : s.step e = some s') :
    s'.Tracks ∧ (s'.AtWrap ↔ SubmitsBeforeWrap s e) := by
  cases e with
  | submit => exact h.submit away hstep
  | fetch =>
    obtain ⟨tracks, wrap⟩ := h.fetch away hstep
    exact ⟨tracks, iff_of_false wrap id⟩
  | updateHead =>
    obtain ⟨tracks, wrap⟩ := h.updateHead away hstep
    exact ⟨tracks, iff_of_false wrap id⟩

end Steps

/-- The states that runs without such a submission pass through. -/
def Clear : Prop := s.Tracks ∧ ¬ s.AtWrap

/-- **Submission queue.** In a run of guarded submissions, fetches and head updates the
queue keeps a slot free, keeps every unfetched command, and tells empty and full apart in
all its states, exactly if no submission takes `tail` to the last slot while `head` is at
the first. -/
theorem sound_iff_no_submit_before_wrap (data : List α) (two_le : 2 ≤ data.length)
    (len_lt : data.length < 2 ^ 16) {es : List (RingEvent α)} {s : SubmissionRing α}
    (h : run step (start (.ofData data two_le len_lt)) es = some s) :
    Throughout step (start (.ofData data two_le len_lt)) Sound es ↔
      Along step (start (.ofData data two_le len_lt)) (fun s e => ¬ SubmitsBeforeWrap s e) es := by
  have init : (start (.ofData data two_le len_lt)).Clear := by
    refine ⟨Tracks.start data two_le len_lt, ?_⟩
    rintro ⟨-, hlast⟩
    simp only [start, ofData] at hlast
    have hzero : (0 : U16).toNat = 0 := rfl
    omega
  refine throughout_iff_along init (init.1.sound_iff.mpr init.2) ?_ ?_ h
  · rintro s e s' ⟨tracks, away⟩ hP hstep
    obtain ⟨tracks', wrap⟩ := tracks.step away hstep
    exact ⟨tracks', mt wrap.mp hP⟩
  · rintro s e s' ⟨tracks, away⟩ hstep
    obtain ⟨tracks', wrap⟩ := tracks.step away hstep
    rw [tracks'.sound_iff, wrap]

/-- Two commands are submitted, and the controller fetches the first. -/
def twoCommands : List (RingEvent Nat) := [.submit 7, .submit 8, .fetch, .updateHead 1]

theorem twoCommands_sound : ∃ s, run step (start .new) twoCommands = some s ∧
      Throughout step (start .new) Sound twoCommands :=
  ⟨_, rfl, (sound_iff_no_submit_before_wrap (List.replicate 64 default) (by decide) (by decide)
    (rfl : run step (start .new) twoCommands = some _)).mpr (by decide)⟩

/-- After 64 submissions to a new queue, none of them fetched, the queue calls itself
empty and not full, and the next submission goes to the slot of the first one. -/
theorem full_lap_looks_empty : ∃ s, run step (start (.new : NvmeCmdQueue NvmeCmd))
        (List.replicate 64 (.submit default)) = some s ∧
      s.unfetched.length = 64 ∧ s.fetched = 0 ∧ s.queue.isEmpty = true ∧
      s.queue.isFull = false ∧ s.queue.tail = 0 ∧ ¬ s.Sound := by
  have result : (run step (start (.new : NvmeCmdQueue NvmeCmd))
      (List.replicate 64 (.submit default))).map (fun s => (s.unfetched.length, s.fetched,
        s.queue.isEmpty, s.queue.isFull, s.queue.tail, s.queue.data.length)) =
      some (64, 0, true, false, 0, 64) := by decide +kernel
  obtain ⟨s, hs, heq⟩ := map_eq_some_iff.mp result
  simp only [Prod.mk.injEq] at heq
  obtain ⟨hun, hfetched, hempty, hfull, htail, hlen⟩ := heq
  refine ⟨s, hs, hun, hfetched, hempty, hfull, htail, fun sound => ?_⟩
  have := sound.unfetched_lt
  omega

end SubmissionRing

end RedoxDrivers.Nvme
