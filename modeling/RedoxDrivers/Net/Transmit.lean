import RedoxDrivers.Lib.Laps
import RedoxDrivers.Lib.Runs
import RedoxDrivers.Lib.Rust

/-!
The transmit rings of `e1000d` and `ixgbed` (`net/e1000d/src/device.rs`, `net/ixgbed/src/device.rs`).

The driver fills descriptors at `transmit_index` and moves the tail register behind them. The
hardware goes from the head register to the tail and takes a ring whose head is its tail for an
empty one. `transmit_ring_free` counts down to zero before the driver looks for descriptors that
are done. The two drivers differ in the layout of a descriptor (`TxFormat`) and in the length of
the ring.

A call of `write_packet` takes several steps, and the hardware may move between any two of them.
Nothing keeps the driver from filling the whole ring, which makes the tail the head again: then
the hardware sends nothing any more. `transmit_exact` says that this and a wrong length in the
descriptor are all that can go wrong.
-/

namespace RedoxDrivers.Net

open Lib Function List Option Nat

def wrapRing (index ringSize : Nat) : Nat := (index + 1) &&& (ringSize - 1)

/-- The index wraps around at the end of a ring whose length is a power of two. -/
theorem wrapRing_eq (index k : Nat) : wrapRing index (2 ^ k) = (index + 1) % 2 ^ k :=
  and_two_pow_sub_one_eq_mod _ _

/-- A buffer is a `[u8; 16384]`. -/
def BUFFER_LEN : Nat := 16384

/-! ### Descriptors -/

/-- What a driver writes to a descriptor for a packet, and how the hardware reads and marks it. The
address of the buffer never changes. `Says` is what the descriptor of a packet of so many bytes has
to be, in all fields that depend on the length. -/
structure TxFormat where
  Desc : Type
  zeroed : Desc
  ringBits : Nat
  fill : Nat → Desc → Desc
  done : Desc → Bool
  markDone : Desc → Desc
  length : Desc → Nat
  Says : Desc → Nat → Prop
  done_fill : ∀ n d, done (fill n d) = false
  done_markDone : ∀ d, done (markDone d) = true
  length_of_says : ∀ d n, Says d n → length d = n

def TxFormat.ringLen (F : TxFormat) : Nat := 2 ^ F.ringBits

theorem TxFormat.ringLen_pos (F : TxFormat) : 0 < F.ringLen := Nat.two_pow_pos _

namespace E1000

structure Td where
  length : U16
  cso : U8
  command : U8
  status : U8
  css : U8
  special : U16
deriving DecidableEq, Repr

def TD_CMD_EOP : U8 := 1
def TD_CMD_IFCS : U8 := 1 <<< 1
def TD_CMD_RS : U8 := 1 <<< 3
def TD_DD : U8 := 1

/-- The length is one less than that of the buffer at most. -/
def lengthOf (n : Nat) : Nat := min n (BUFFER_LEN - 1)

def fill (n : Nat) (_ : Td) : Td where
  length := .ofNat 16 (lengthOf n)
  cso := 0
  command := TD_CMD_EOP ||| TD_CMD_IFCS ||| TD_CMD_RS
  status := 0
  css := 0
  special := 0

def format : TxFormat where
  Desc := Td
  zeroed := ⟨0, 0, 0, 0, 0, 0⟩
  ringBits := 4
  fill := fill
  done td := td.status ≠ 0
  markDone td := { td with status := td.status ||| TD_DD }
  length td := td.length.toNat
  Says td n := td.length.toNat = n
  done_fill _ _ := rfl
  done_markDone td := by
    refine decide_eq_true fun h => ?_
    have hbit := congrArg (BitVec.getLsbD · 0) h
    simp [TD_DD] at hbit
  length_of_says _ _ h := h

/-- The length in the descriptor is that of what is copied, except that it ends at 16383. -/
theorem says_fill (n : Nat) (td : Td) : format.Says (fill n td) (min n BUFFER_LEN) ↔ n ≤ 16383 := by
  have hle : lengthOf n ≤ BUFFER_LEN - 1 := min_le_right _ _
  show (BitVec.ofNat 16 (lengthOf n)).toNat = _ ↔ _
  rw [BitVec.toNat_ofNat, mod_eq_of_lt (hle.trans_lt (by decide)), lengthOf, BUFFER_LEN]
  omega

end E1000

open E1000

namespace Ixgbe

/-- The last four bytes are `olinfo_status` when the driver writes them, and `status` when it
reads them back. -/
structure AdvTxDesc where
  cmdTypeLen : U32
  olinfoStatus : U32
deriving DecidableEq, Repr

def IXGBE_ADVTXD_PAYLEN_SHIFT : Nat := 14
def IXGBE_ADVTXD_DCMD_EOP : U32 := 0x01000000
def IXGBE_ADVTXD_DCMD_RS : U32 := 0x08000000
def IXGBE_ADVTXD_DCMD_IFCS : U32 := 0x02000000
def IXGBE_ADVTXD_DTYP_DATA : U32 := 0x00300000
def IXGBE_ADVTXD_DCMD_DEXT : U32 := 0x20000000
def IXGBE_ADVTXD_STAT_DD : U32 := 0x00000001

/-- What `cmd_type_len` has above the length. -/
def command : U32 :=
  IXGBE_ADVTXD_DCMD_EOP ||| IXGBE_ADVTXD_DCMD_RS ||| IXGBE_ADVTXD_DCMD_IFCS |||
    IXGBE_ADVTXD_DCMD_DEXT ||| IXGBE_ADVTXD_DTYP_DATA

def fill (n : Nat) (_ : AdvTxDesc) : AdvTxDesc where
  cmdTypeLen := command ||| .ofNat 32 n
  olinfoStatus := (BitVec.ofNat 32 n) <<< IXGBE_ADVTXD_PAYLEN_SHIFT

/-- The length of the data is in the low 16 bits of `cmd_type_len`, and once more as that of the
payload in `olinfo_status`. -/
structure Says (desc : AdvTxDesc) (n : Nat) : Prop where
  data : (desc.cmdTypeLen.setWidth 16).toNat = n
  command : desc.cmdTypeLen >>> 16 = command >>> 16
  payload : (desc.olinfoStatus >>> IXGBE_ADVTXD_PAYLEN_SHIFT).toNat = n

def format : TxFormat where
  Desc := AdvTxDesc
  zeroed := ⟨0, 0⟩
  ringBits := 5
  fill := fill
  done desc := desc.olinfoStatus &&& IXGBE_ADVTXD_STAT_DD ≠ 0
  markDone desc := { desc with olinfoStatus := desc.olinfoStatus ||| IXGBE_ADVTXD_STAT_DD }
  length desc := (desc.cmdTypeLen.setWidth 16).toNat
  Says := Says
  done_fill n _ := by
    refine decide_eq_false (not_not.mpr ?_)
    rw [fill, IXGBE_ADVTXD_PAYLEN_SHIFT, IXGBE_ADVTXD_STAT_DD]
    ext i
    simp
    omega
  done_markDone desc := by
    refine decide_eq_true fun h => ?_
    have hbit := congrArg (BitVec.getLsbD · 0) h
    simp [IXGBE_ADVTXD_STAT_DD] at hbit
  length_of_says _ _ h := h.data

/-- The packet fits into the buffer, or what its length has beyond that of the buffer is lost in
either field. -/
def Fits (n : Nat) : Prop :=
  n ≤ 16384 ∨ n % 2 ^ 18 = 16384 ∧ (command ||| .ofNat 32 n) >>> 16 = command >>> 16

instance (n : Nat) : Decidable (Fits n) := inferInstanceAs (Decidable (_ ∨ _))

theorem data_fill (n : Nat) (desc : AdvTxDesc) :
    ((fill n desc).cmdTypeLen.setWidth 16).toNat = n % 2 ^ 16 := by
  have hcommand : command.setWidth 16 = 0#16 := by decide
  rw [fill, BitVec.setWidth_or, hcommand, BitVec.zero_or, BitVec.toNat_setWidth, BitVec.toNat_ofNat]
  omega

theorem payload_fill (n : Nat) (desc : AdvTxDesc) :
    ((fill n desc).olinfoStatus >>> IXGBE_ADVTXD_PAYLEN_SHIFT).toNat = n % 2 ^ 18 := by
  rw [fill, IXGBE_ADVTXD_PAYLEN_SHIFT, BitVec.toNat_ushiftRight, BitVec.toNat_shiftLeft,
    BitVec.toNat_ofNat, shiftLeft_eq, shiftRight_eq_div_pow]
  omega

theorem says_fill (n : Nat) (desc : AdvTxDesc) :
    Says (fill n desc) (min n BUFFER_LEN) ↔ Fits n := by
  have hmin : min n BUFFER_LEN = min n 16384 := rfl
  constructor
  · rintro ⟨-, hcommand, hpayload⟩
    rw [payload_fill] at hpayload
    rcases lt_or_ge 16384 n with hlt | hle
    · exact .inr ⟨by omega, hcommand⟩
    · exact .inl hle
  · rintro (hle | ⟨hmod, hcommand⟩)
    · refine ⟨by rw [data_fill]; omega, ?_, by rw [payload_fill]; omega⟩
      have hzero : BitVec.ofNat 32 n >>> 16 = 0#32 := by
        rw [← BitVec.toNat_inj, BitVec.toNat_ushiftRight, BitVec.toNat_ofNat,
          shiftRight_eq_div_pow]
        exact div_eq_of_lt (by omega)
      rw [fill, BitVec.ushiftRight_or_distrib, hzero, BitVec.or_zero]
    · exact ⟨by rw [data_fill]; omega, hcommand, by rw [payload_fill]; omega⟩

end Ixgbe

/-! ### The ring -/

/-- How far a call of `write_packet` is. -/
inductive TxPhase where
  | idle
  | cleaning (buf : List U8)
  | filling (buf : List U8)
  | ringing (count : Nat)
deriving DecidableEq, Repr

/-- The driver, the ring that it shares with the hardware, and what has happened so far: the packets
that were copied to a buffer, the numbers that were returned, the packets that were sent, and how
many descriptors the hardware has marked and the driver has reclaimed. -/
structure Tx (F : TxFormat) where
  ring : Nat → F.Desc
  buffers : Nat → List U8
  free : Nat
  index : Nat
  cleanIndex : Nat
  phase : TxPhase
  head : Nat
  tail : Nat
  filled : List (List U8)
  returned : List Nat
  sent : List (List U8)
  marked : Nat
  cleaned : Nat

inductive TxEvent where
  | call (buf : List U8)
  | clean
  | fill
  | ring
  | transmit
  | mark
deriving DecidableEq, Repr

namespace Tx

variable {F : TxFormat}

def new (F : TxFormat) : Tx F where
  ring _ := F.zeroed
  buffers _ := List.replicate BUFFER_LEN 0
  free := F.ringLen
  index := 0
  cleanIndex := 0
  phase := .idle
  head := 0
  tail := 0
  filled := []
  returned := []
  sent := []
  marked := 0
  cleaned := 0

section

variable (s : Tx F)

/-- A descriptor that is done is reclaimed. -/
def reclaim : Tx F :=
  { s with
    cleanIndex := wrapRing s.cleanIndex F.ringLen
    free := s.free + 1
    cleaned := s.cleaned + 1 }

/-- One round of the loop that looks for descriptors that are done. -/
def cleanRound (buf : List U8) : Tx F :=
  if F.done (s.ring s.cleanIndex) then
    if F.ringLen ≤ s.reclaim.free then { s.reclaim with phase := .filling buf } else s.reclaim
  else if 0 < s.free then { s with phase := .filling buf }
  else if F.ringLen ≤ s.free then { s with phase := .filling buf }
  else s

/-- The packet is copied, and the descriptor filled. -/
def fillDesc (buf : List U8) : Tx F :=
  let i := min buf.length BUFFER_LEN
  { s with
    buffers := update s.buffers s.index (buf.take i ++ (s.buffers s.index).drop i)
    ring := update s.ring s.index (F.fill buf.length (s.ring s.index))
    index := wrapRing s.index F.ringLen
    free := s.free - 1
    phase := .ringing i
    filled := s.filled ++ [buf.take i] }

/-- The hardware sends what is in the buffer at the head. -/
def transmitHead : Tx F :=
  { s with
    sent := s.sent ++ [(s.buffers s.head).take (F.length (s.ring s.head))]
    head := (s.head + 1) % F.ringLen }

/-- The hardware marks the oldest descriptor that it has sent and not marked. -/
def markOldest : Tx F :=
  { s with
    ring := update s.ring (s.marked % F.ringLen) (F.markDone (s.ring (s.marked % F.ringLen)))
    marked := s.marked + 1 }

def step : TxEvent → Option (Tx F)
  | .call buf =>
    if s.phase = .idle then
      some { s with phase := if s.free = 0 then .cleaning buf else .filling buf }
    else none
  | .clean =>
    match s.phase with
    | .cleaning buf => some (s.cleanRound buf)
    | _ => none
  | .fill =>
    match s.phase with
    | .filling buf => some (s.fillDesc buf)
    | _ => none
  | .ring =>
    match s.phase with
    | .ringing i => some { s with tail := s.index, phase := .idle, returned := s.returned ++ [i] }
    | _ => none
  | .transmit => if s.head ≠ s.tail then some s.transmitHead else none
  | .mark => if s.marked < s.sent.length then some s.markOldest else none

/-! ### What is claimed -/

/-- The events of the hardware. -/
def TxEvent.IsHardware (e : TxEvent) : Prop := e = .transmit ∨ e = .mark

/-- The hardware goes on until all that was queued is sent and marked. -/
def Drains : Prop :=
  ∃ es s', (∀ e ∈ es, TxEvent.IsHardware e) ∧ run step s es = some s' ∧
    s'.sent.length = s.returned.length ∧ s'.marked = s.returned.length

/-- A call that waits for a free descriptor gets one. -/
def WaitEnds : Prop :=
  ∀ buf, s.phase = .cleaning buf → ∃ es s',
    (∀ e ∈ es, TxEvent.IsHardware e ∨ e = .clean) ∧ run step s es = some s' ∧
      s'.phase = .filling buf

structure Sound : Prop where
  accounts : (s.filled.length - s.cleaned) + s.free = F.ringLen
  index_eq : s.index = s.filled.length % F.ringLen
  cleanIndex_eq : s.cleanIndex = s.cleaned % F.ringLen
  /-- The hardware has finished with what is going to be overwritten. -/
  finished : ∀ buf, s.phase = .filling buf → 0 < s.free ∧
    ∀ t, s.marked ≤ t → t < s.filled.length → t % F.ringLen ≠ s.index
  tail_ne_head : s.sent.length < s.returned.length → s.tail ≠ s.head
  inOrder : s.sent <+: s.filled
  returned_eq : s.returned <+: s.filled.map List.length
  length_eq : ∀ t packet, s.sent.length ≤ t → s.filled[t]? = some packet →
    F.Says (s.ring (t % F.ringLen)) packet.length
  drains : s.Drains
  waitEnds : s.WaitEnds

/-- The buffer that is going to be copied. -/
def inHand : Option (List U8) :=
  match s.phase with
  | .filling buf => some buf
  | _ => none

end

/-- The condition on a step: the length of the packet is one that the descriptor can hold, and the
hardware has something of the last lap behind it when the tail moves. -/
def Meets (fits : Nat → Prop) (s : Tx F) : TxEvent → Prop
  | .fill => ∀ buf ∈ s.inHand, fits buf.length
  | .ring => s.returned.length + 1 < s.sent.length + F.ringLen
  | _ => True

instance (fits : Nat → Prop) [DecidablePred fits] (s : Tx F) : DecidablePred (s.Meets fits)
  | .call _ => isTrue trivial
  | .clean => isTrue trivial
  | .fill => inferInstanceAs (Decidable (∀ buf ∈ s.inHand, fits buf.length))
  | .ring => inferInstanceAs (Decidable (_ < _))
  | .transmit => isTrue trivial
  | .mark => isTrue trivial

theorem inHand_eq {s : Tx F} {buf : List U8} (h : s.phase = .filling buf) : s.inHand = some buf := by
  rw [inHand, h]

/-! ### The invariant -/

/-- What has been returned, given how far the call is. -/
def Returned (s : Tx F) : Prop :=
  match s.phase with
  | .ringing i => s.filled.map List.length = s.returned ++ [i]
  | .cleaning _ => s.filled.map List.length = s.returned ∧ s.free < F.ringLen
  | .filling _ => s.filled.map List.length = s.returned ∧ 0 < s.free
  | .idle => s.filled.map List.length = s.returned

structure Inv (s : Tx F) : Prop where
  index_eq : s.index = s.filled.length % F.ringLen
  cleanIndex_eq : s.cleanIndex = s.cleaned % F.ringLen
  head_eq : s.head = s.sent.length % F.ringLen
  tail_eq : s.tail = s.returned.length % F.ringLen
  cleaned_le : s.cleaned ≤ s.marked
  marked_le : s.marked ≤ s.sent.length
  sent_le : s.sent.length ≤ s.returned.length
  counts : s.filled.length + s.free = F.ringLen + s.cleaned
  returned : s.Returned
  done_iff : ∀ t, s.cleaned ≤ t → t < s.filled.length →
    (F.done (s.ring (t % F.ringLen)) = true ↔ t < s.marked)
  desc : ∀ t packet, s.sent.length ≤ t → s.filled[t]? = some packet →
    F.Says (s.ring (t % F.ringLen)) packet.length ∧
      (s.buffers (t % F.ringLen)).take packet.length = packet
  inOrder : s.sent <+: s.filled
  room : s.returned.length < s.sent.length + F.ringLen

theorem wrapRing_mod (k : Nat) : wrapRing (k % F.ringLen) F.ringLen = (k + 1) % F.ringLen := by
  rw [TxFormat.ringLen, wrapRing_eq, mod_add_mod]

theorem Inv.new : Inv (new F) where
  index_eq := (zero_mod _).symm
  cleanIndex_eq := (zero_mod _).symm
  head_eq := (zero_mod _).symm
  tail_eq := (zero_mod _).symm
  cleaned_le := le_refl _
  marked_le := le_refl _
  sent_le := le_refl _
  counts := add_comm _ _
  returned := rfl
  done_iff _ _ h := absurd h (not_lt_zero _)
  desc _ _ _ h := by cases h
  inOrder := prefix_rfl
  room := by
    have := F.ringLen_pos
    show 0 < 0 + F.ringLen
    omega

section Keep

variable {s : Tx F} {buf : List U8}

section

variable (h : Inv s)

include h

/-- What was returned falls short of what was filled by the packet in hand at most. -/
theorem Inv.returned_le : s.returned.length ≤ s.filled.length ∧
    s.filled.length ≤ s.returned.length + 1 := by
  have hret := h.returned
  unfold Returned at hret
  split at hret
  · have hlen := congrArg length hret
    rw [length_map, length_append, length_singleton] at hlen
    omega
  · have hlen := congrArg length hret.1
    rw [length_map] at hlen
    omega
  · have hlen := congrArg length hret.1
    rw [length_map] at hlen
    omega
  · have hlen := congrArg length hret
    rw [length_map] at hlen
    omega

/-- Descriptors that are not reclaimed are in different slots. -/
theorem Inv.slot_ne {t u : Nat} (ht : s.cleaned ≤ t) (htu : t < u) (hu : u < s.filled.length) :
    t % F.ringLen ≠ u % F.ringLen := by
  have := h.counts
  exact Lib.slot_ne htu (by omega)

theorem Inv.call (hphase : s.phase = .idle) :
    Inv { s with phase := if s.free = 0 then .cleaning buf else .filling buf } := by
  have hret := h.returned
  rw [Returned, hphase] at hret
  by_cases hfree : s.free = 0
  · rw [if_pos hfree]
    exact { h with returned := ⟨hret, hfree.symm ▸ F.ringLen_pos⟩ }
  · rw [if_neg hfree]
    exact { h with returned := ⟨hret, Nat.pos_of_ne_zero hfree⟩ }

theorem Inv.clean (hphase : s.phase = .cleaning buf) : Inv (s.cleanRound buf) := by
  have hret := h.returned
  rw [Returned, hphase] at hret
  have hcounts := h.counts
  unfold cleanRound
  split
  · -- The descriptor that is done is the oldest one, so the hardware has marked it.
    rename_i hdone
    have hmarked : s.cleaned < s.marked := by
      refine (h.done_iff _ (le_refl _) (by omega)).mp ?_
      rwa [← h.cleanIndex_eq]
    have hreclaim (phase : TxPhase) (hreturned : Returned { s.reclaim with phase }) :
        Inv { s.reclaim with phase } :=
      { h with
        cleanIndex_eq := by
          show wrapRing s.cleanIndex F.ringLen = _
          rw [h.cleanIndex_eq, wrapRing_mod]
          rfl
        cleaned_le := hmarked
        counts := by
          show s.filled.length + (s.free + 1) = F.ringLen + (s.cleaned + 1)
          omega
        returned := hreturned
        done_iff := fun t ht => h.done_iff t (le_of_succ_le ht) }
    split
    · exact hreclaim _ ⟨hret.1, succ_pos _⟩
    · rename_i hfree
      have hkeep := hreclaim s.phase
      rw [hphase] at hkeep
      have hsame : ({ s.reclaim with phase := .cleaning buf } : Tx F) = s.reclaim := by
        rw [← hphase]
        rfl
      rw [hsame] at hkeep
      refine hkeep ?_
      rw [← hsame]
      exact ⟨hret.1, not_le.mp hfree⟩
  · split
    · exact { h with returned := ⟨hret.1, ‹_›⟩ }
    · split
      · exact { h with returned := ⟨hret.1, F.ringLen_pos.trans_le ‹_›⟩ }
      · exact h

theorem Inv.fill (hphase : s.phase = .filling buf)
    (htold : F.Says (F.fill buf.length (s.ring s.index)) (min buf.length BUFFER_LEN)) :
    Inv (s.fillDesc buf) := by
  have hret := h.returned
  rw [Returned, hphase] at hret
  have hcounts := h.counts
  have hle := h.returned_le
  have hcopied : (buf.take (min buf.length BUFFER_LEN)).length = min buf.length BUFFER_LEN := by
    rw [length_take]
    omega
  have hslot (t : Nat) (ht : s.cleaned ≤ t) (hlt : t < s.filled.length) :
      t % F.ringLen ≠ s.index := by
    rw [h.index_eq]
    exact Lib.slot_ne hlt (by omega)
  refine { h with index_eq := ?_, counts := ?_, returned := ?_, done_iff := ?_, desc := ?_, inOrder := ?_ }
  · show wrapRing s.index F.ringLen = (s.filled ++ [_]).length % F.ringLen
    rw [h.index_eq, wrapRing_mod, length_append, length_singleton]
  · show (s.filled ++ [_]).length + (s.free - 1) = F.ringLen + s.cleaned
    rw [length_append, length_singleton]
    omega
  · show (s.filled ++ [_]).map length = s.returned ++ [_]
    rw [map_append, hret.1, map_singleton, hcopied]
  · intro t ht hlt
    have hlt' : t < s.filled.length + 1 := by simpa [fillDesc] using hlt
    show F.done (update s.ring s.index _ (t % F.ringLen)) = true ↔ t < s.marked
    rcases lt_or_eq_of_le (le_of_lt_succ hlt') with hold | rfl
    · rw [update_of_ne (hslot t ht hold)]
      exact h.done_iff t ht hold
    · rw [← h.index_eq, update_self, F.done_fill]
      have := h.marked_le
      have := h.sent_le
      simp
      omega
  · intro t packet ht hpacket
    show F.Says (update s.ring s.index _ (t % F.ringLen)) _ ∧
      (update s.buffers s.index _ (t % F.ringLen)).take _ = _
    have hpacket' : (s.filled ++ [buf.take (min buf.length BUFFER_LEN)])[t]? = some packet := hpacket
    have ht' : s.sent.length ≤ t := ht
    have := h.cleaned_le
    have := h.marked_le
    rcases getElem?_push hpacket' with ⟨hlt, hold⟩ | ⟨rfl, rfl⟩
    · have hne := hslot t (by omega) hlt
      rw [update_of_ne hne, update_of_ne hne]
      exact h.desc t packet ht' hold
    · rw [← h.index_eq, update_self, update_self, hcopied]
      exact ⟨htold, take_left' hcopied⟩
  · exact h.inOrder.trans (prefix_append _ _)

theorem Inv.ring {i : Nat} (hphase : s.phase = .ringing i)
    (hroom : s.returned.length + 1 < s.sent.length + F.ringLen) :
    Inv { s with tail := s.index, phase := .idle, returned := s.returned ++ [i] } := by
  have hret := h.returned
  rw [Returned, hphase] at hret
  have hlen : s.filled.length = (s.returned ++ [i]).length := by
    rw [← hret, length_map]
  have hsucc : (s.returned ++ [i]).length = s.returned.length + 1 := length_append
  refine { h with tail_eq := ?_, sent_le := ?_, returned := hret, room := ?_ }
  · rw [h.index_eq, hlen]
  · show s.sent.length ≤ (s.returned ++ [i]).length
    have := h.sent_le
    omega
  · show (s.returned ++ [i]).length < s.sent.length + F.ringLen
    omega

/-- The hardware sees that the ring is not empty. -/
theorem Inv.head_ne_tail_iff : s.head ≠ s.tail ↔ s.sent.length < s.returned.length := by
  have hle := h.sent_le
  have hslot := slot_eq_iff h.sent_le h.room
  rw [h.head_eq, h.tail_eq, Ne, hslot]
  omega

end

theorem Inv.transmit (h : Inv s) (hne : s.head ≠ s.tail) : Inv s.transmitHead := by
  have hlt := h.head_ne_tail_iff.mp hne
  have hpacket := getElem?_eq_getElem (hlt.trans_le h.returned_le.1)
  obtain ⟨htold, hbytes⟩ := h.desc _ _ (le_refl _) hpacket
  have hsucc : (s.sent ++ [(s.buffers s.head).take (F.length (s.ring s.head))]).length =
      s.sent.length + 1 := length_append
  refine { h with head_eq := ?_, marked_le := ?_, sent_le := ?_, desc := ?_, inOrder := ?_, room := ?_ }
  · show (s.head + 1) % F.ringLen = (s.sent ++ [_]).length % F.ringLen
    rw [hsucc, h.head_eq, mod_add_mod]
  · show s.marked ≤ (s.sent ++ [_]).length
    have := h.marked_le
    omega
  · show (s.sent ++ [_]).length ≤ s.returned.length
    omega
  · intro t packet ht
    refine h.desc t packet ?_
    have : (s.sent ++ [(s.buffers s.head).take (F.length (s.ring s.head))]).length ≤ t := ht
    omega
  · show s.sent ++ [_] <+: s.filled
    rw [h.head_eq, F.length_of_says _ _ htold, hbytes]
    exact snoc_prefix h.inOrder hpacket
  · show s.returned.length < (s.sent ++ [_]).length + F.ringLen
    have := h.room
    omega

theorem Inv.mark (h : Inv s) (hlt : s.marked < s.sent.length) : Inv s.markOldest := by
  have hcleaned := h.cleaned_le
  have hsent := h.sent_le
  have hfilled := h.returned_le
  refine { h with cleaned_le := le_succ_of_le hcleaned, marked_le := hlt, done_iff := ?_, desc := ?_ }
  · intro t ht hlt'
    have hlt'' : t < s.filled.length := hlt'
    show F.done (update s.ring _ _ (t % F.ringLen)) = true ↔ t < s.marked + 1
    rcases lt_trichotomy t s.marked with hbefore | rfl | hafter
    · rw [update_of_ne (h.slot_ne ht hbefore (by omega)), h.done_iff t ht hlt'']
      omega
    · rw [update_self, F.done_markDone]
      simp
    · rw [update_of_ne (h.slot_ne hcleaned hafter hlt'').symm, h.done_iff t ht hlt'']
      omega
  · intro t packet ht hpacket
    have hpacket' : s.filled[t]? = some packet := hpacket
    have hget : t < s.filled.length := (List.getElem?_eq_some_iff.mp hpacket').1
    have ht' : s.sent.length ≤ t := ht
    show F.Says (update s.ring _ _ (t % F.ringLen)) _ ∧ _
    rw [update_of_ne (h.slot_ne hcleaned (by omega) hget).symm]
    exact h.desc t packet ht' hpacket'

end Keep

/-- What a step can do. -/
inductive Move (s : Tx F) : TxEvent → Tx F → Prop where
  | call {buf} : s.phase = .idle →
      Move s (.call buf) { s with phase := if s.free = 0 then .cleaning buf else .filling buf }
  | clean {buf} : s.phase = .cleaning buf → Move s .clean (s.cleanRound buf)
  | fill {buf} : s.phase = .filling buf → Move s .fill (s.fillDesc buf)
  | ring {i} : s.phase = .ringing i →
      Move s .ring { s with tail := s.index, phase := .idle, returned := s.returned ++ [i] }
  | transmit : s.head ≠ s.tail → Move s .transmit s.transmitHead
  | mark : s.marked < s.sent.length → Move s .mark s.markOldest

theorem step_move {s s' : Tx F} {e : TxEvent} (h : step s e = some s') : Move s e s' := by
  cases e with
  | call =>
    obtain ⟨hphase, ⟨⟩⟩ := ite_none_right_eq_some.mp h
    exact .call hphase
  | clean =>
    simp only [step] at h
    split at h
    · cases h
      exact .clean ‹_›
    · cases h
  | fill =>
    simp only [step] at h
    split at h
    · cases h
      exact .fill ‹_›
    · cases h
  | ring =>
    simp only [step] at h
    split at h
    · cases h
      exact .ring ‹_›
    · cases h
  | transmit =>
    obtain ⟨hne, ⟨⟩⟩ := ite_none_right_eq_some.mp h
    exact .transmit hne
  | mark =>
    obtain ⟨hlt, ⟨⟩⟩ := ite_none_right_eq_some.mp h
    exact .mark hlt

variable {fits : Nat → Prop} {s s' : Tx F}

/-- The steps that meet the condition keep the invariant. -/
theorem Inv.step (hfits : ∀ n d, F.Says (F.fill n d) (min n BUFFER_LEN) ↔ fits n) {e : TxEvent}
    (h : Inv s) (hmeets : s.Meets fits e) (hstep : step s e = some s') : Inv s' := by
  cases step_move hstep with
  | call hphase => exact h.call hphase
  | clean hphase => exact h.clean hphase
  | fill hphase => exact h.fill hphase ((hfits _ _).mpr (hmeets _ (inHand_eq hphase)))
  | ring hphase => exact h.ring hphase hmeets
  | transmit hne => exact h.transmit hne
  | mark hlt => exact h.mark hlt

/-! ### Progress -/

/-- What the hardware leaves alone. -/
structure SameDriver (s s' : Tx F) : Prop where
  phase : s'.phase = s.phase
  returned : s'.returned = s.returned
  filled : s'.filled = s.filled
  free : s'.free = s.free
  cleaned : s'.cleaned = s.cleaned

theorem SameDriver.trans {s'' : Tx F} (h : SameDriver s s') (h' : SameDriver s' s'') :
    SameDriver s s'' :=
  ⟨h'.phase.trans h.phase, h'.returned.trans h.returned, h'.filled.trans h.filled,
    h'.free.trans h.free, h'.cleaned.trans h.cleaned⟩

/-- The hardware is never stuck before all that was queued is sent and marked. The induction is on
what is left to do. -/
theorem Inv.drain (h : Inv s) : ∃ es s', (∀ e ∈ es, TxEvent.IsHardware e) ∧
    run Tx.step s es = some s' ∧ Inv s' ∧ SameDriver s s' ∧
      s'.sent.length = s.returned.length ∧ s'.marked = s.returned.length := by
  obtain ⟨work, hwork⟩ : ∃ work, work = (s.returned.length - s.sent.length) +
    (s.returned.length - s.marked) := ⟨_, rfl⟩
  induction work using Nat.strong_induction_on generalizing s with
  | _ work ih =>
    have hsent := h.sent_le
    have hmarked := h.marked_le
    -- One step of the hardware, and then the rest.
    have hgo (e : TxEvent) (mid : Tx F) (he : TxEvent.IsHardware e) (hstep : Tx.step s e = some mid)
        (hmid : Inv mid) (hsame : SameDriver s mid)
        (hless : (mid.returned.length - mid.sent.length) + (mid.returned.length - mid.marked) < work) :
        ∃ es s', (∀ e ∈ es, TxEvent.IsHardware e) ∧ run Tx.step s es = some s' ∧ Inv s' ∧
          SameDriver s s' ∧ s'.sent.length = s.returned.length ∧ s'.marked = s.returned.length := by
      obtain ⟨es, s', hes, hrun, hinv, hsame', hlast⟩ := ih _ hless hmid rfl
      refine ⟨e :: es, s', ?_, ?_, hinv, hsame.trans hsame', hsame.returned ▸ hlast⟩
      · intro e' he'
        rcases mem_cons.mp he' with rfl | he'
        · exact he
        · exact hes e' he'
      · rw [run_cons, hstep]
        exact hrun
    rcases lt_or_eq_of_le hsent with hlt | hall
    · have hne := h.head_ne_tail_iff.mpr hlt
      refine hgo .transmit s.transmitHead (.inl rfl) (if_pos hne) (h.transmit hne)
        ⟨rfl, rfl, rfl, rfl, rfl⟩ ?_
      show (s.returned.length - (s.sent ++ [_]).length) + (s.returned.length - s.marked) < work
      rw [length_append, length_singleton]
      omega
    · rcases lt_or_eq_of_le hmarked with hlt | hdone
      · refine hgo .mark s.markOldest (.inr rfl) (if_pos hlt) (h.mark hlt) ⟨rfl, rfl, rfl, rfl, rfl⟩ ?_
        show (s.returned.length - s.sent.length) + (s.returned.length - (s.marked + 1)) < work
        omega
      · exact ⟨[], s, nofun, rfl, h, ⟨rfl, rfl, rfl, rfl, rfl⟩, hall, hdone.trans hall⟩

/-- With all descriptors marked, the loop reclaims one in every round until it ends. -/
theorem Inv.reclaimAll {buf : List U8} (h : Inv s) (hphase : s.phase = .cleaning buf)
    (hall : s.marked = s.filled.length) :
    ∃ es s', (∀ e ∈ es, e = TxEvent.clean) ∧ run Tx.step s es = some s' ∧
      s'.phase = .filling buf := by
  obtain ⟨left, hleft⟩ : ∃ left, left = F.ringLen - s.free := ⟨_, rfl⟩
  induction left generalizing s with
  | zero =>
    have hret := h.returned
    rw [Returned, hphase] at hret
    omega
  | succ left ih =>
    have hcounts := h.counts
    have hround : Tx.step s .clean = some (s.cleanRound buf) := by
      simp only [Tx.step, hphase]
    have hdone : F.done (s.ring s.cleanIndex) = true := by
      rw [h.cleanIndex_eq]
      exact (h.done_iff _ (le_refl _) (by omega)).mpr (by omega)
    by_cases hlast : F.ringLen ≤ s.reclaim.free
    · refine ⟨[.clean], { s.reclaim with phase := .filling buf }, by simp, ?_, rfl⟩
      rw [run_cons, hround, cleanRound, if_pos hdone, if_pos hlast]
      rfl
    · have hnext : s.cleanRound buf = s.reclaim := by
        rw [cleanRound, if_pos hdone, if_neg hlast]
      have hinv := h.clean hphase
      rw [hnext] at hinv hround
      have hfree : s.reclaim.free = s.free + 1 := rfl
      obtain ⟨es, s', hes, hrun, hend⟩ := ih hinv hphase hall (by omega)
      refine ⟨.clean :: es, s', ?_, ?_, hend⟩
      · intro e he
        rcases mem_cons.mp he with rfl | he
        · rfl
        · exact hes e he
      · rw [run_cons, hround]
        exact hrun

theorem Inv.waitEnds (h : Inv s) : s.WaitEnds := by
  intro buf hphase
  obtain ⟨es, mid, hes, hrun, hmid, hsame, -, hmarked⟩ := h.drain
  have hret := h.returned
  rw [Returned, hphase] at hret
  have hfilled : s.filled.length = s.returned.length := by
    rw [← hret.1, length_map]
  obtain ⟨es', s', hes', hrun', hend⟩ := hmid.reclaimAll (hsame.phase.trans hphase)
    (by rw [hmarked, hsame.filled, hfilled])
  refine ⟨es ++ es', s', ?_, ?_, hend⟩
  · intro e he
    exact (mem_append.mp he).imp (hes e) (hes' e)
  · rw [run_append, hrun]
    exact hrun'

/-! ### Soundness -/

theorem Inv.returned_prefix (h : Inv s) : s.returned <+: s.filled.map length := by
  have hret := h.returned
  unfold Returned at hret
  split at hret
  · exact ⟨_, hret.symm⟩
  · rw [hret.1]
  · rw [hret.1]
  · rw [hret]

theorem Inv.sound (h : Inv s) : Sound s where
  accounts := by
    have := h.counts
    have := h.cleaned_le
    have := h.marked_le
    have := h.sent_le
    have := h.returned_le
    omega
  index_eq := h.index_eq
  cleanIndex_eq := h.cleanIndex_eq
  finished buf hphase := by
    have hret := h.returned
    rw [Returned, hphase] at hret
    refine ⟨hret.2, fun t ht hlt => ?_⟩
    have := h.counts
    have := h.cleaned_le
    rw [h.index_eq]
    exact Lib.slot_ne hlt (by omega)
  tail_ne_head hlt := (h.head_ne_tail_iff.mpr hlt).symm
  inOrder := h.inOrder
  returned_eq := h.returned_prefix
  length_eq t packet ht hpacket := (h.desc t packet ht hpacket).1
  drains := by
    obtain ⟨es, s', hes, hrun, -, -, hlast⟩ := h.drain
    exact ⟨es, s', hes, hrun, hlast⟩
  waitEnds := h.waitEnds

/-- A descriptor with a wrong length. -/
theorem Inv.says_of_sound {buf : List U8} (h : Inv s) (hsound : Sound (s.fillDesc buf)) :
    F.Says (F.fill buf.length (s.ring s.index)) (min buf.length BUFFER_LEN) := by
  have hsent := h.sent_le.trans h.returned_le.1
  have htold : F.Says (update s.ring s.index _ (s.filled.length % F.ringLen)) _ :=
    hsound.length_eq s.filled.length (buf.take (min buf.length BUFFER_LEN)) hsent
      getElem?_concat_length
  rw [← h.index_eq, update_self, length_take] at htold
  rwa [show min (min buf.length BUFFER_LEN) buf.length = min buf.length BUFFER_LEN by omega] at htold

/-- A tail that has caught up with the head. -/
theorem Inv.room_of_sound {s : Tx F} {i : Nat} (h : Inv s) (hphase : s.phase = .ringing i)
    (hsound : Sound { s with tail := s.index, phase := .idle, returned := s.returned ++ [i] }) :
    s.returned.length + 1 < s.sent.length + F.ringLen := by
  have hret := h.returned
  rw [Returned, hphase] at hret
  have hlen := congrArg length hret
  rw [length_map, length_append, length_singleton] at hlen
  have hcounts := h.counts
  have hcleaned := h.cleaned_le
  have hmarked := h.marked_le
  have hsent := h.sent_le
  by_contra hfull
  have hlap : s.filled.length = s.sent.length + F.ringLen := by omega
  have hne := hsound.tail_ne_head (by
    rw [length_append]
    exact lt_succ_of_le hsent)
  refine hne ?_
  rw [h.index_eq, h.head_eq, hlap, add_mod_right]

theorem exact_step (hfits : ∀ n d, F.Says (F.fill n d) (min n BUFFER_LEN) ↔ fits n) {e : TxEvent}
    (h : Inv s) (hstep : step s e = some s') : Sound s' ↔ s.Meets fits e := by
  refine ⟨fun hsound => ?_, fun hmeets => (h.step hfits hmeets hstep).sound⟩
  cases step_move hstep with
  | fill hphase =>
    intro buf' hbuf
    cases (inHand_eq hphase).symm.trans hbuf
    exact (hfits _ _).mp (h.says_of_sound hsound)
  | ring hphase => exact h.room_of_sound hphase hsound
  | call | clean | transmit | mark => trivial

/-- A run is sound exactly if each of its steps meets the condition. -/
theorem transmit_exact (hfits : ∀ n d, F.Says (F.fill n d) (min n BUFFER_LEN) ↔ fits n) {es : List TxEvent}
    (h : run step (new F) es = some s) :
    Throughout step (new F) Sound es ↔ Along step (new F) (Meets fits) es :=
  throughout_iff_along Inv.new Inv.new.sound (fun _ _ _ hinv hmeets => hinv.step hfits hmeets)
    (fun _ _ _ hinv => exact_step hfits hinv) h

end Tx

open Tx

/-! ### The two drivers -/

/-- The transmit rings are sound exactly in the runs in which the packets are short enough and the
tail never catches up with the head. -/
theorem transmit_rings_sound (es : List TxEvent) (s : Tx format) (s' : Tx Ixgbe.format) :
    (run step (new format) es = some s →
      (Throughout step (new format) Sound es ↔
        Along step (new format) (Meets (· ≤ 16383)) es)) ∧
    (run step (new Ixgbe.format) es = some s' →
      (Throughout step (new Ixgbe.format) Sound es ↔
        Along step (new Ixgbe.format) (Meets Ixgbe.Fits) es)) :=
  ⟨transmit_exact says_fill, transmit_exact Ixgbe.says_fill⟩

/-- A lap of packets, two of which are marked only when a call waits for a descriptor. The call
reclaims them and takes the first descriptor once more. -/
def twoReclaimed (lap : Nat) : List TxEvent :=
  (List.replicate lap [.call [1, 2, 3], .fill, .ring, .transmit]).flatten ++
    [.call [4, 5], .clean, .mark, .mark, .clean, .clean, .clean, .fill, .ring, .transmit]

theorem second_lap_sound : Throughout step (new format) Sound (twoReclaimed 16) ∧
      Throughout step (new Ixgbe.format) Sound (twoReclaimed 32) := by
  obtain ⟨s, hs⟩ : ∃ s, run step (new format) (twoReclaimed 16) = some s :=
    isSome_iff_exists.mp (by decide +kernel)
  obtain ⟨s', hs'⟩ : ∃ s, run step (new Ixgbe.format) (twoReclaimed 32) = some s :=
    isSome_iff_exists.mp (by decide +kernel)
  exact ⟨((transmit_rings_sound (twoReclaimed 16) s (.new _)).1 hs).mpr (by decide +kernel),
    ((transmit_rings_sound (twoReclaimed 32) (.new _) s').2 hs').mpr (by decide +kernel)⟩

/-- A lap of packets that the hardware has not got round to. -/
def wholeLap : List TxEvent := (List.replicate 16 [.call [0], .fill, .ring]).flatten

/-- The ring that is full is taken for an empty one. -/
theorem full_ring_not_sound : ¬ Throughout step (new format) Sound wholeLap := by
  intro h
  have hrun : (run step (new format) wholeLap).map
      (fun s => (s.sent.length, s.returned.length, s.tail, s.head)) = some (0, 16, 0, 0) := by
    decide +kernel
  obtain ⟨s, hs, hvalues⟩ := map_eq_some_iff.mp hrun
  have hsound := h wholeLap prefix_rfl s hs
  simp only [Prod.mk.injEq] at hvalues
  obtain ⟨hsent, hreturned, htail, hhead⟩ := hvalues
  exact hsound.tail_ne_head (by omega) (htail.trans hhead.symm)

end RedoxDrivers.Net
