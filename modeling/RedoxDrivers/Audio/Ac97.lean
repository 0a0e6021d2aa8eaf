import RedoxDrivers.Lib.Image
import RedoxDrivers.Lib.Laps
import RedoxDrivers.Lib.Runs
import RedoxDrivers.Lib.Rust

/-!
Playback of `ac97d` (`audio/ac97d/src/device.rs`).

The hardware plays the buffers of a ring of 32. The register CIV is the buffer that it plays, and
LVI the last one that it may play: there it halts until LVI moves on. A `write` fills the buffer
behind LVI and moves LVI there, unless LVI is three buffers ahead of CIV.

A write takes many steps, and the hardware fetches bytes and goes on to the next buffer between any
two of them. `playback_sound` says that it plays what was written, and in that order: the buffer that
is being filled is never one of those from CIV to LVI.
-/

namespace RedoxDrivers.Audio

open Lib Lib.Image List Option Nat

namespace Ac97

def NUM_SUB_BUFFS : Nat := 32
def SUB_BUFF_SIZE : Nat := 2048

/-- Where a call of `write` is. The length of `buf` and the handle have been checked. -/
inductive Phase where
  | idle
  | called (buf : List U8)
  /-- `queued` is how many buffers were behind the one that was played when CIV was read. -/
  | compare (buf : List U8) (civ queued : Nat)
  | storing (buf : List U8) (lvi i : Nat)
deriving DecidableEq, Repr

end Ac97

/-- The driver and the PCM out box of the device. `pos` bytes of the buffer at CIV have been
fetched. What was played, what was accepted and how many buffers were queued when a write was
refused is there for the statements. -/
structure Ac97 where
  buf : Nat → U8
  handles : List Nat
  nextId : Nat
  phase : Ac97.Phase
  results : List (Except Errno (Option Nat))
  civ : Nat
  lvi : Nat
  pos : Nat
  current : List U8
  played : List (List U8)
  accepted : List (List U8)
  refusals : List Nat

namespace Ac97

/-- What is in a buffer before anything was written. -/
def silence : List U8 := List.replicate SUB_BUFF_SIZE 0

/-- After `init`. -/
def init : Ac97 where
  buf _ := 0
  handles := []
  nextId := 0
  phase := .idle
  results := []
  civ := 0
  lvi := 0
  pos := 0
  current := []
  played := []
  accepted := []
  refusals := []

inductive Event where
  | openHandle (uid : U32)
  | close (id : Nat)
  | write (id : Nat) (buf : List U8)
  | readCiv
  | readLvi
  | store
  | writeLvi
  | fetch
  | advance
deriving DecidableEq, Repr

section

variable (s : Ac97)

/-- The buffers that the hardware has still to play after the one it is at. -/
def queued : Nat := (s.lvi + NUM_SUB_BUFFS - s.civ) % NUM_SUB_BUFFS

def openHandle (uid : U32) : Ac97 :=
  if uid = 0 then { s with handles := s.handles ++ [s.nextId], nextId := s.nextId + 1 } else s

def returns (result : Except Errno (Option Nat)) : Ac97 :=
  { s with phase := .idle, results := s.results ++ [result] }

/-- The first checks of `write`. -/
def beginWrite (id : Nat) (buf : List U8) : Ac97 :=
  if id ∉ s.handles then s.returns (.error .ebadf)
  else if buf.length ≠ SUB_BUFF_SIZE then s.returns (.error .einval)
  else { s with phase := .called buf }

/-- LVI is read and compared with the value of CIV from before. -/
def compareLvi (buf : List U8) (civ queued : Nat) : Ac97 :=
  if s.lvi = (civ + 3) % NUM_SUB_BUFFS then
    { s.returns (.ok none) with refusals := s.refusals ++ [queued] }
  else { s with phase := .storing buf ((s.lvi + 1) % NUM_SUB_BUFFS) 0 }

def storeByte (buf : List U8) (lvi i : Nat) (byte : U8) : Ac97 :=
  { s with
    buf := Function.update s.buf (lvi * SUB_BUFF_SIZE + i) byte
    phase := .storing buf lvi (i + 1) }

def writeLvi (buf : List U8) (lvi : Nat) : Ac97 :=
  { s.returns (.ok (some SUB_BUFF_SIZE)) with lvi, accepted := s.accepted ++ [buf] }

/-- The hardware fetches the next byte of the buffer at CIV, and has played it when it has them all. -/
def fetchByte : Ac97 :=
  let current := s.current ++ [s.buf (s.civ * SUB_BUFF_SIZE + s.pos)]
  { s with
    pos := s.pos + 1
    current
    played := if s.pos + 1 = SUB_BUFF_SIZE then s.played ++ [current] else s.played }

def advanceCiv : Ac97 :=
  { s with civ := (s.civ + 1) % NUM_SUB_BUFFS, pos := 0, current := [] }

/-- Calls come one after the other. The hardware goes on whenever it has something to play. -/
def step : Event → Option Ac97
  | .openHandle uid => if s.phase = .idle then some (s.openHandle uid) else none
  | .close id => if s.phase = .idle then some { s with handles := s.handles.filter (· ≠ id) } else none
  | .write id buf => if s.phase = .idle then some (s.beginWrite id buf) else none
  | .readCiv =>
    match s.phase with
    | .called buf => some { s with phase := .compare buf s.civ s.queued }
    | _ => none
  | .readLvi =>
    match s.phase with
    | .compare buf civ queued => some (s.compareLvi buf civ queued)
    | _ => none
  | .store =>
    match s.phase with
    | .storing buf lvi i => buf[i]?.map (s.storeByte buf lvi i)
    | _ => none
  | .writeLvi =>
    match s.phase with
    | .storing buf lvi i => if i = SUB_BUFF_SIZE then some (s.writeLvi buf lvi) else none
    | _ => none
  | .fetch => if s.pos < SUB_BUFF_SIZE then some s.fetchByte else none
  | .advance => if s.pos = SUB_BUFF_SIZE ∧ s.civ ≠ s.lvi then some s.advanceCiv else none

/-- The hardware has played the last buffer that it may play. -/
def Halted : Prop := s.pos = SUB_BUFF_SIZE ∧ s.civ = s.lvi

end

/-- What is claimed of a state. The first buffer that is played is the one at CIV after `init`. -/
structure Sound (s : Ac97) : Prop where
  ahead : s.queued ≤ 3
  apart : ∀ buf lvi i, s.phase = .storing buf lvi i → lvi ∉ segment NUM_SUB_BUFFS s.civ (s.queued + 1)
  inOrder : s.played <+: silence :: s.accepted
  once : s.Halted → s.played = silence :: s.accepted
  refused : ∀ n ∈ s.refusals, n = 3

/-! ### The invariant -/

/-- All buffers that were given to the hardware. -/
def items (s : Ac97) : List (List U8) := silence :: s.accepted

/-- A call in progress, when the hardware is at item `k`. A value of CIV that was read is that of an
item `k₀` where the hardware was before. -/
def PhaseOk (s : Ac97) (k : Nat) : Phase → Prop
  | .idle => True
  | .called buf => buf.length = SUB_BUFF_SIZE
  | .compare buf civ queued => buf.length = SUB_BUFF_SIZE ∧
      ∃ k₀ ≤ k, civ = k₀ % NUM_SUB_BUFFS ∧ s.accepted.length ≤ k₀ + 3 ∧
        queued = s.accepted.length - k₀
  | .storing buf lvi i => buf.length = SUB_BUFF_SIZE ∧
      lvi = (s.accepted.length + 1) % NUM_SUB_BUFFS ∧ s.accepted.length < k + 3 ∧
      Filled s.buf SUB_BUFF_SIZE lvi buf i

/-- The hardware is at item `k` and has played those before it. The items that are left are in their
buffers. -/
structure Inv (s : Ac97) (k : Nat) : Prop where
  civ_eq : s.civ = k % NUM_SUB_BUFFS
  lvi_eq : s.lvi = s.accepted.length % NUM_SUB_BUFFS
  le : k ≤ s.accepted.length
  near : s.accepted.length ≤ k + 3
  sizes : ∀ item ∈ s.items, item.length = SUB_BUFF_SIZE
  filled : ∀ j item, k ≤ j → s.items[j]? = some item →
    Filled s.buf SUB_BUFF_SIZE (j % NUM_SUB_BUFFS) item SUB_BUFF_SIZE
  pos_le : s.pos ≤ SUB_BUFF_SIZE
  current_eq : ∀ item, s.items[k]? = some item → s.current = item.take s.pos
  played_eq : s.played = s.items.take (if s.pos = SUB_BUFF_SIZE then k + 1 else k)
  refused : ∀ n ∈ s.refusals, n = 3
  phase_ok : s.PhaseOk k s.phase

theorem Inv.init : Inv init 0 where
  civ_eq := rfl
  lvi_eq := rfl
  le := le_refl 0
  near := zero_le 3
  sizes item hitem := by
    rw [mem_singleton.mp hitem]
    exact length_replicate
  filled j item _ hitem i byte _ hbyte := by
    rw [mem_singleton.mp (mem_of_getElem? hitem)] at hbyte
    exact (eq_of_mem_replicate (mem_of_getElem? hbyte)).symm
  pos_le := zero_le _
  current_eq _ _ := take_zero.symm
  played_eq := rfl
  refused _ h := by cases h
  phase_ok := trivial

section Keep

variable {s s' : Ac97} {k : Nat} {buf : List U8} {lvi i : Nat}

section

variable (h : Inv s k)

include h

theorem Inv.lt_items : k < s.items.length := by
  have hle := h.le
  show k < s.accepted.length + 1
  omega

theorem Inv.queued_eq : s.queued = s.accepted.length - k := by
  have hle := h.le
  have hnear := h.near
  rw [queued, h.civ_eq, h.lvi_eq]
  refine slot_distance hle ?_
  show s.accepted.length < k + 32
  omega

/-- The buffer behind the last item is none of those that the hardware may fetch. -/
theorem Inv.next_ne {j : Nat} (hj : k ≤ j) (hle : j ≤ s.accepted.length) :
    j % NUM_SUB_BUFFS ≠ (s.accepted.length + 1) % NUM_SUB_BUFFS := by
  have hnear := h.near
  refine slot_ne (by omega) ?_
  show s.accepted.length + 1 < j + 32
  omega

/-- Steps that touch neither the ring nor the hardware. -/
theorem Inv.withPhase {phase : Phase} {handles : List Nat} {nextId : Nat}
    {results : List (Except Errno (Option Nat))} (hphase : s.PhaseOk k phase) :
    Inv { s with phase, handles, nextId, results } k :=
  { h with
    phase_ok := by
      cases phase with
      | idle | called | compare => exact hphase
      | storing => exact hphase }

theorem Inv.beginWrite (id : Nat) (buf : List U8) : Inv (s.beginWrite id buf) k := by
  unfold Ac97.beginWrite
  split
  · exact h.withPhase trivial
  · split
    · exact h.withPhase trivial
    · exact h.withPhase (not_not.mp ‹_›)

theorem Inv.readCiv (hphase : s.phase = .called buf) :
    Inv { s with phase := .compare buf s.civ s.queued } k := by
  have hlen := h.phase_ok
  rw [hphase] at hlen
  exact h.withPhase ⟨hlen, k, le_refl k, h.civ_eq, h.near, h.queued_eq⟩

theorem Inv.compareLvi {civ queued : Nat} (hphase : s.phase = .compare buf civ queued) :
    Inv (s.compareLvi buf civ queued) k := by
  have hok := h.phase_ok
  rw [hphase] at hok
  obtain ⟨hlen, k₀, hk₀, rfl, hnear, rfl⟩ := hok
  have hle := h.le
  -- LVI has not moved since CIV was read.
  have hfull : s.lvi = (k₀ % NUM_SUB_BUFFS + 3) % NUM_SUB_BUFFS ↔ s.accepted.length = k₀ + 3 := by
    rw [h.lvi_eq, mod_add_mod]
    refine slot_eq_iff hnear ?_
    show k₀ + 3 < s.accepted.length + 32
    omega
  unfold Ac97.compareLvi
  split
  · refine { h with refused := ?_, phase_ok := trivial }
    intro n hn
    rcases mem_append.mp hn with hold | hnew
    · exact h.refused n hold
    · rw [mem_singleton.mp hnew, hfull.mp ‹_›]
      omega
  · refine h.withPhase ⟨hlen, ?_, ?_, nofun⟩
    · rw [h.lvi_eq, mod_add_mod]
    · omega

theorem Inv.storeByte {byte : U8} (hphase : s.phase = .storing buf lvi i)
    (hbyte : buf[i]? = some byte) : Inv (s.storeByte buf lvi i byte) k := by
  have hok := h.phase_ok
  rw [hphase] at hok
  obtain ⟨hlen, rfl, hroom, hstored⟩ := hok
  have hi : i < SUB_BUFF_SIZE := hlen ▸ (List.getElem?_eq_some_iff.mp hbyte).1
  refine { h with filled := ?_, phase_ok := ⟨hlen, rfl, hroom, hstored.snoc hbyte⟩ }
  intro j item hj hitem
  have hlt : j < s.accepted.length + 1 := (List.getElem?_eq_some_iff.mp hitem).1
  exact (h.filled j item hj hitem).update (le_refl _) (h.next_ne hj (by omega)) hi

theorem Inv.writeLvi (hphase : s.phase = .storing buf lvi SUB_BUFF_SIZE) :
    Inv (s.writeLvi buf lvi) k := by
  have hok := h.phase_ok
  rw [hphase] at hok
  obtain ⟨hlen, rfl, hroom, hstored⟩ := hok
  have hle := h.le
  have hitems : (s.writeLvi buf ((s.accepted.length + 1) % NUM_SUB_BUFFS)).items = s.items ++ [buf] := rfl
  have hlength : (s.accepted ++ [buf]).length = s.accepted.length + 1 := length_append
  refine { h with
    lvi_eq := ?_, le := ?_, near := ?_, sizes := ?_, filled := ?_, current_eq := ?_, played_eq := ?_
    phase_ok := trivial }
  · show (s.accepted.length + 1) % NUM_SUB_BUFFS = (s.accepted ++ [buf]).length % NUM_SUB_BUFFS
    rw [hlength]
  · show k ≤ (s.accepted ++ [buf]).length
    omega
  · show (s.accepted ++ [buf]).length ≤ k + 3
    omega
  · intro item hitem
    rw [hitems] at hitem
    rcases mem_append.mp hitem with hold | hnew
    · exact h.sizes item hold
    · rw [mem_singleton.mp hnew]
      exact hlen
  · intro j item hj hitem
    rw [hitems] at hitem
    rcases getElem?_push hitem with ⟨hold, hget⟩ | ⟨rfl, rfl⟩
    · exact h.filled j item hj hget
    · exact hstored
  · intro item hitem
    rw [hitems, getElem?_append_left h.lt_items] at hitem
    exact h.current_eq item hitem
  · have hlt := h.lt_items
    rw [hitems, take_append_of_le_length (by split <;> omega)]
    exact h.played_eq

theorem Inv.fetchByte (hpos : s.pos < SUB_BUFF_SIZE) : Inv s.fetchByte k := by
  obtain ⟨item, hitem⟩ : ∃ item, s.items[k]? = some item := ⟨_, getElem?_eq_getElem h.lt_items⟩
  have hsize := h.sizes item (mem_of_getElem? hitem)
  have hbyte := getElem?_eq_getElem (show s.pos < item.length by omega)
  have hcurrent : s.current ++ [s.buf (s.civ * SUB_BUFF_SIZE + s.pos)] = item.take (s.pos + 1) := by
    rw [h.current_eq item hitem, h.civ_eq, h.filled k item (le_refl k) hitem _ _ hpos hbyte,
      take_add_one, hbyte]
    rfl
  refine { h with pos_le := hpos, current_eq := ?_, played_eq := ?_ }
  · intro item' hitem'
    cases hitem.symm.trans hitem'
    exact hcurrent
  · have hplayed := h.played_eq
    rw [if_neg (Nat.ne_of_lt hpos)] at hplayed
    show (if s.pos + 1 = SUB_BUFF_SIZE then s.played ++ [_] else s.played) =
      s.items.take (if s.pos + 1 = SUB_BUFF_SIZE then k + 1 else k)
    split
    · rename_i hlast
      rw [hcurrent, hplayed, hlast, ← hsize, take_length, take_add_one, hitem]
      rfl
    · exact hplayed

theorem Inv.advanceCiv (hpos : s.pos = SUB_BUFF_SIZE) (hne : s.civ ≠ s.lvi) :
    Inv s.advanceCiv (k + 1) := by
  have hle := h.le
  have hlt : k < s.accepted.length := by
    refine lt_of_le_of_ne hle fun heq => hne ?_
    rw [h.civ_eq, h.lvi_eq, heq]
  refine { h with
    civ_eq := ?_, le := hlt, near := le_succ_of_le h.near, filled := ?_
    pos_le := zero_le _, current_eq := fun _ _ => take_zero.symm, played_eq := ?_
    phase_ok := ?_ }
  · show (s.civ + 1) % NUM_SUB_BUFFS = (k + 1) % NUM_SUB_BUFFS
    rw [h.civ_eq, mod_add_mod]
  · exact fun j item hj => h.filled j item (le_of_succ_le hj)
  · have hplayed := h.played_eq
    rwa [if_pos hpos] at hplayed
  · have hok := h.phase_ok
    show s.PhaseOk (k + 1) s.phase
    cases hphase : s.phase with
    | idle => trivial
    | called =>
      rw [hphase] at hok
      exact hok
    | compare =>
      rw [hphase] at hok
      obtain ⟨hlen, k₀, hk₀, hrest⟩ := hok
      exact ⟨hlen, k₀, le_succ_of_le hk₀, hrest⟩
    | storing =>
      rw [hphase] at hok
      obtain ⟨hlen, hlvi, hroom, hstored⟩ := hok
      exact ⟨hlen, hlvi, lt_succ_of_lt hroom, hstored⟩

theorem Inv.step {e : Event} (hstep : s.step e = some s') : ∃ k', Inv s' k' := by
  cases e with
  | openHandle =>
    simp only [Ac97.step, ite_none_right_eq_some, some_inj] at hstep
    obtain ⟨hidle, rfl⟩ := hstep
    unfold Ac97.openHandle
    split
    · exact ⟨k, h.withPhase h.phase_ok⟩
    · exact ⟨k, h⟩
  | close =>
    simp only [Ac97.step, ite_none_right_eq_some, some_inj] at hstep
    obtain ⟨hidle, rfl⟩ := hstep
    exact ⟨k, h.withPhase h.phase_ok⟩
  | write id buf =>
    simp only [Ac97.step, ite_none_right_eq_some, some_inj] at hstep
    obtain ⟨hidle, rfl⟩ := hstep
    exact ⟨k, h.beginWrite id buf⟩
  | readCiv =>
    cases hphase : s.phase with
    | called =>
      simp only [Ac97.step, hphase, some_inj] at hstep
      exact ⟨k, hstep ▸ h.readCiv hphase⟩
    | _ => simp [Ac97.step, hphase] at hstep
  | readLvi =>
    cases hphase : s.phase with
    | compare =>
      simp only [Ac97.step, hphase, some_inj] at hstep
      exact ⟨k, hstep ▸ h.compareLvi hphase⟩
    | _ => simp [Ac97.step, hphase] at hstep
  | store =>
    cases hphase : s.phase with
    | storing =>
      simp only [Ac97.step, hphase, map_eq_some_iff] at hstep
      obtain ⟨byte, hbyte, rfl⟩ := hstep
      exact ⟨k, h.storeByte hphase hbyte⟩
    | _ => simp [Ac97.step, hphase] at hstep
  | writeLvi =>
    cases hphase : s.phase with
    | storing =>
      simp only [Ac97.step, hphase, ite_none_right_eq_some, some_inj] at hstep
      obtain ⟨rfl, rfl⟩ := hstep
      exact ⟨k, h.writeLvi hphase⟩
    | _ => simp [Ac97.step, hphase] at hstep
  | fetch =>
    simp only [Ac97.step, ite_none_right_eq_some, some_inj] at hstep
    obtain ⟨hpos, rfl⟩ := hstep
    exact ⟨k, h.fetchByte hpos⟩
  | advance =>
    simp only [Ac97.step, ite_none_right_eq_some, some_inj] at hstep
    obtain ⟨⟨hpos, hne⟩, rfl⟩ := hstep
    exact ⟨k + 1, h.advanceCiv hpos hne⟩

theorem Inv.sound : s.Sound where
  ahead := by
    have hnear := h.near
    rw [h.queued_eq]
    omega
  apart buf lvi i hphase := by
    have hok := h.phase_ok
    have hle := h.le
    rw [hphase] at hok
    obtain ⟨-, rfl, -, -⟩ := hok
    rw [h.queued_eq, h.civ_eq, segment_congr (mod_mod _ _)]
    intro hmem
    obtain ⟨t, ht, heq⟩ := mem_map.mp hmem
    have ht' := mem_range.mp ht
    exact h.next_ne (le_add_right k t) (by omega) heq
  inOrder := by
    rw [h.played_eq]
    exact take_prefix _ _
  once hhalted := by
    obtain ⟨hpos, heq⟩ := hhalted
    have hle := h.le
    have hnear := h.near
    rw [h.civ_eq, h.lvi_eq] at heq
    have hk : k = s.accepted.length := (slot_eq_iff hle (by show _ < k + 32; omega)).mp heq
    rw [h.played_eq, if_pos hpos, hk]
    exact take_of_length_le (le_refl _)
  refused := h.refused

end

end Keep

theorem inv_of_run {es : List Event} {s : Ac97} (h : run step init es = some s) : ∃ k, Inv s k := by
  have keep : ∀ s e s', (∃ k, Inv s k) → step s e = some s' → ∃ k, Inv s' k := by
    rintro s e s' ⟨k, hinv⟩ hstep
    exact hinv.step hstep
  exact invariant_of_run ⟨0, Inv.init⟩ keep h

/-- Whatever is written and whenever the hardware goes on, it plays what was accepted. -/
theorem playback_sound (es : List Event) (s : Ac97) (h : run step init es = some s) : s.Sound := by
  obtain ⟨k, hinv⟩ := inv_of_run h
  exact hinv.sound

section Calls

variable {s : Ac97} {buf : List U8} {accepted : List (List U8)}

/-- The hardware is at the first buffer, and nothing has been refused. -/
structure AtFirst (s : Ac97) (phase : Phase) (pos : Nat) (accepted : List (List U8)) : Prop where
  phase_eq : s.phase = phase
  opened : 0 ∈ s.handles
  pos_eq : s.pos = pos
  civ_eq : s.civ = 0
  lvi_eq : s.lvi = accepted.length
  accepted_eq : s.accepted = accepted
  refusals_eq : s.refusals = []

/-- A call of `write`, without anything in between. -/
def wholeWrite (buf : List U8) : List Event :=
  [.write 0 buf, .readCiv, .readLvi] ++ (replicate SUB_BUFF_SIZE .store ++ [.writeLvi])

theorem run_wholeWrite (h : AtFirst s .idle SUB_BUFF_SIZE accepted) (size : buf.length = SUB_BUFF_SIZE)
    (few : accepted.length < 3) : ∃ s', run step s (wholeWrite buf) = some s' ∧
      AtFirst s' .idle SUB_BUFF_SIZE (accepted ++ [buf]) := by
  have hbegin : run step s [.write 0 buf, .readCiv, .readLvi] =
      some { s with phase := .storing buf (accepted.length + 1) 0 } := by
    have room : accepted.length ≠ 3 % NUM_SUB_BUFFS := Nat.ne_of_lt few
    have hnext : (accepted.length + 1) % NUM_SUB_BUFFS = accepted.length + 1 :=
      mod_eq_of_lt (by rw [NUM_SUB_BUFFS]; omega)
    simp [run_cons, step, h.phase_eq, beginWrite, h.opened, size, compareLvi, h.civ_eq, h.lvi_eq,
      room, hnext]
  obtain ⟨t, hstores, ht⟩ : ∃ t, run step { s with phase := .storing buf (accepted.length + 1) 0 }
      (replicate SUB_BUFF_SIZE .store) = some t ∧
        AtFirst t (.storing buf (accepted.length + 1) SUB_BUFF_SIZE) SUB_BUFF_SIZE accepted := by
    refine run_replicate
      (I := fun k t => AtFirst t (.storing buf (accepted.length + 1) k) SUB_BUFF_SIZE accepted)
      { h with phase_eq := rfl } fun k hk t ht => ?_
    refine ⟨t.storeByte buf _ k (buf.get ⟨k, size ▸ hk⟩), ?_, { ht with phase_eq := rfl }⟩
    simp [step, ht.phase_eq, size, hk]
  refine ⟨t.writeLvi buf (accepted.length + 1), ?_, { ht with
    phase_eq := rfl, lvi_eq := by simp [writeLvi], accepted_eq := congrArg (· ++ [buf]) ht.accepted_eq }⟩
  rw [wholeWrite, run_append, hbegin, bind_some, run_append, hstores, bind_some]
  simp [run_cons, step, ht.phase_eq]

theorem run_refused (h : AtFirst s .idle SUB_BUFF_SIZE accepted) (size : buf.length = SUB_BUFF_SIZE)
    (full : accepted.length = 3) :
    ∃ s', run step s [.write 0 buf, .readCiv, .readLvi, .advance] = some s' ∧
      s'.civ = 1 ∧ s'.accepted = accepted ∧ s'.refusals = [3] := by
  refine ⟨{ s with
    phase := .idle, results := s.results ++ [.ok none], refusals := [3]
    civ := 1, pos := 0, current := [] }, ?_, rfl, h.accepted_eq, rfl⟩
  simp [run_cons, step, h.phase_eq, beginWrite, h.opened, size, compareLvi, h.civ_eq, h.lvi_eq, full,
    NUM_SUB_BUFFS, returns, h.refusals_eq, h.pos_eq, advanceCiv, queued]

/-- The first buffer is played to its end. Three buffers are written behind it, and a fourth write is
refused. Then the hardware goes on. -/
def fourthRefused : List Event :=
  .openHandle 0 :: (replicate SUB_BUFF_SIZE .fetch ++ (wholeWrite (replicate SUB_BUFF_SIZE 1) ++
    (wholeWrite (replicate SUB_BUFF_SIZE 2) ++ (wholeWrite (replicate SUB_BUFF_SIZE 3) ++
      [.write 0 (replicate SUB_BUFF_SIZE 4), .readCiv, .readLvi, .advance]))))

theorem fourthRefused_sound : ∃ s, run step init fourthRefused = some s ∧ s.civ = 1 ∧
    s.accepted.length = 3 ∧ s.refusals = [3] ∧ s.Sound := by
  have hopen : step init (.openHandle 0) = some (init.openHandle 0) := rfl
  obtain ⟨s₀, hplay, h₀⟩ : ∃ t, run step (init.openHandle 0) (replicate SUB_BUFF_SIZE .fetch) = some t ∧
      AtFirst t .idle SUB_BUFF_SIZE [] := by
    refine run_replicate (I := fun k t => AtFirst t .idle k [])
      ⟨rfl, mem_singleton_self 0, rfl, rfl, rfl, rfl, rfl⟩ fun k hk t ht => ?_
    exact ⟨t.fetchByte, if_pos (ht.pos_eq ▸ hk), { ht with pos_eq := congrArg (· + 1) ht.pos_eq }⟩
  obtain ⟨s₁, hrun₁, h₁⟩ := run_wholeWrite h₀ (length_replicate (a := 1)) (by decide)
  obtain ⟨s₂, hrun₂, h₂⟩ := run_wholeWrite h₁ (length_replicate (a := 2)) (by simp)
  obtain ⟨s₃, hrun₃, h₃⟩ := run_wholeWrite h₂ (length_replicate (a := 3)) (by simp)
  obtain ⟨s, hlast, hciv, haccepted, hrefusals⟩ :=
    run_refused h₃ (length_replicate (a := 4)) (by simp)
  have hrun : run step init fourthRefused = some s := by
    rw [fourthRefused, run_cons, hopen, bind_some, run_append, hplay, bind_some, run_append, hrun₁,
      bind_some, run_append, hrun₂, bind_some, run_append, hrun₃, bind_some, hlast]
  refine ⟨s, hrun, hciv, ?_, hrefusals, playback_sound fourthRefused s hrun⟩
  rw [haccepted]
  rfl

end Calls

end Ac97

end RedoxDrivers.Audio
