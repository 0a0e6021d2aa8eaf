import RedoxDrivers.Net.Transmit

/-!
The receive rings of `e1000d` and `ixgbed` (`net/e1000d/src/device.rs`, `net/ixgbed/src/device.rs`).

The hardware delivers packets to the descriptors from the head register on, and stops in front of
the tail. The driver reads the packet at `receive_index` once its descriptor is done, clears the
descriptor and moves the tail there, so that there is always one descriptor that belongs to
neither of them. `receive_refines_fifo` says that this makes a queue. The two drivers differ in
the layout of a descriptor, and `ixgbed` panics at a packet that goes on in the next one.
-/

namespace RedoxDrivers.Net

open Lib Function List Option Nat

/-! ### Descriptors -/

/-- How a driver reads a descriptor and gives it back. -/
structure RxFormat where
  Desc : Type
  zeroed : Desc
  ringBits : Nat
  done : Desc → Bool
  endOfPacket : Desc → Bool
  length : Desc → Nat
  clear : Desc → Desc
  /-- Whether a packet that goes on in the next descriptor is refused with a panic. -/
  checksEnd : Bool
  done_zeroed : done zeroed = false
  done_clear : ∀ d, done (clear d) = false

def RxFormat.ringLen (F : RxFormat) : Nat := 2 ^ F.ringBits

theorem RxFormat.ringLen_pos (F : RxFormat) : 0 < F.ringLen := Nat.two_pow_pos _

namespace E1000

structure Rd where
  length : U16
  checksum : U16
  status : U8
  error : U8
  special : U16
deriving DecidableEq, Repr

def RD_DD : U8 := 1
def RD_EOP : U8 := 1 <<< 1

def rxFormat : RxFormat where
  Desc := Rd
  zeroed := ⟨0, 0, 0, 0, 0⟩
  ringBits := 4
  done desc := desc.status &&& RD_DD = RD_DD
  endOfPacket desc := desc.status &&& RD_EOP = RD_EOP
  length desc := desc.length.toNat
  clear desc := { desc with status := 0 }
  checksEnd := false
  done_zeroed := rfl
  done_clear _ := by
    show decide ((0 : U8) &&& RD_DD = RD_DD) = false
    decide

end E1000

namespace Ixgbe

/-- The last eight bytes are the status, the length and the VLAN tag when the driver reads them. It
writes them as `hdr_addr`. -/
structure AdvRxDesc where
  statusError : U32
  length : U16
  vlan : U16
deriving DecidableEq, Repr

def IXGBE_RXDADV_STAT_DD : U32 := 0x01
def IXGBE_RXDADV_STAT_EOP : U32 := 0x02

def rxFormat : RxFormat where
  Desc := AdvRxDesc
  zeroed := ⟨0, 0, 0⟩
  ringBits := 5
  done desc := desc.statusError &&& IXGBE_RXDADV_STAT_DD ≠ 0
  endOfPacket desc := desc.statusError &&& IXGBE_RXDADV_STAT_EOP ≠ 0
  length desc := desc.length.toNat
  clear _ := ⟨0, 0, 0⟩
  checksEnd := true
  done_zeroed := rfl
  done_clear _ := rfl

end Ixgbe

/-! ### The ring -/

inductive RxPhase where
  | idle
  | releasing
  | panicked
deriving DecidableEq, Repr

/-- The driver, the ring, the packets that were delivered, the number of those that were read, and
what the calls have returned. -/
structure Rx (F : RxFormat) where
  ring : Nat → F.Desc
  buffers : Nat → List U8
  index : Nat
  phase : RxPhase
  head : Nat
  tail : Nat
  delivered : List (List U8)
  taken : Nat
  results : List (Except Fault (Option (List U8)))

inductive RxEvent (F : RxFormat) where
  | deliver (packet : List U8) (desc : F.Desc)
  | read (len : Nat)
  | release

namespace Rx

variable {F : RxFormat}

/-- The hardware has all descriptors but the last one. -/
def new (F : RxFormat) : Rx F where
  ring _ := F.zeroed
  buffers _ := List.replicate BUFFER_LEN 0
  index := 0
  phase := .idle
  head := 0
  tail := F.ringLen - 1
  delivered := []
  taken := 0
  results := []

/-- The descriptor that is read next. -/
def current (s : Rx F) : F.Desc := s.ring s.index

/-- `available_for_read`. -/
def available (s : Rx F) : Except Fault Nat :=
  if F.done s.current then
    if F.checksEnd ∧ ¬ F.endOfPacket s.current then .error .assertFailed
    else .ok (F.length s.current)
  else .ok 0

/-- What `read_packet` copies to a buffer of `len` bytes. -/
def readPacket (s : Rx F) (len : Nat) : Except Fault (Option (List U8)) :=
  if F.done s.current then
    if F.checksEnd ∧ ¬ F.endOfPacket s.current then .error .assertFailed
    else if BUFFER_LEN < F.length s.current then .error .outOfBounds
    else .ok (some (((s.buffers s.index).take (F.length s.current)).take len))
  else .ok none

/-- The packet has been copied and its descriptor is cleared. -/
def takePacket (s : Rx F) (bytes : List U8) : Rx F :=
  { s with
    ring := update s.ring s.index (F.clear s.current)
    phase := .releasing
    taken := s.taken + 1
    results := s.results ++ [.ok (some bytes)] }

/-- The tail register is written, and the driver goes on to the next descriptor. -/
def releaseDesc (s : Rx F) : Rx F :=
  { s with tail := s.index, index := wrapRing s.index F.ringLen, phase := .idle }

/-- A packet goes to the descriptor at the head. -/
def deliverHead (s : Rx F) (packet : List U8) (desc : F.Desc) : Rx F :=
  { s with
    ring := update s.ring s.head desc
    buffers := update s.buffers s.head (packet ++ (s.buffers s.head).drop packet.length)
    head := (s.head + 1) % F.ringLen
    delivered := s.delivered ++ [packet] }

/-- What the hardware writes to a descriptor: it is done, it holds a whole packet, and the packet
fits in the buffer. -/
structure Fits (F : RxFormat) (packet : List U8) (desc : F.Desc) : Prop where
  done : F.done desc = true
  endOfPacket : F.endOfPacket desc = true
  length : F.length desc = packet.length
  le : packet.length ≤ BUFFER_LEN

instance (packet : List U8) (desc : F.Desc) : Decidable (Fits F packet desc) :=
  decidable_of_iff (F.done desc = true ∧ F.endOfPacket desc = true ∧ F.length desc = packet.length ∧
      packet.length ≤ BUFFER_LEN)
    ⟨fun h => ⟨h.1, h.2.1, h.2.2.1, h.2.2.2⟩, fun h => ⟨h.1, h.2, h.3, h.4⟩⟩

def step (s : Rx F) : RxEvent F → Option (Rx F)
  | .deliver packet desc =>
    if s.head ≠ s.tail ∧ Fits F packet desc then some (s.deliverHead packet desc) else none
  | .read len =>
    if s.phase = .idle then
      match s.readPacket len with
      | .error fault => some { s with phase := .panicked, results := s.results ++ [.error fault] }
      | .ok none => some { s with results := s.results ++ [.ok none] }
      | .ok (some bytes) => some (s.takePacket bytes)
    else none
  | .release => if s.phase = .releasing then some s.releaseDesc else none

end Rx

/-! ### The queue -/

/-- A queue of packets, and what was returned for the reads so far. -/
structure PacketFifo where
  pending : List (List U8)
  results : List (Option (List U8))

namespace PacketFifo

def empty : PacketFifo := ⟨[], []⟩

/-- A read takes the first packet, if there is one, and as many bytes of it as fit. -/
def read (q : PacketFifo) (len : Nat) : PacketFifo :=
  match q.pending with
  | [] => { q with results := q.results ++ [none] }
  | packet :: rest => ⟨rest, q.results ++ [some (packet.take len)]⟩

def step {F : RxFormat} (q : PacketFifo) : RxEvent F → PacketFifo
  | .deliver packet _ => { q with pending := q.pending ++ [packet] }
  | .read len => q.read len
  | .release => q

end PacketFifo

namespace Rx

variable {F : RxFormat}

/-- The slots that belong to the hardware: those from the head to the tail. -/
def Owned (s : Rx F) (slot : Nat) : Prop :=
  slot ∈ segment F.ringLen s.head ((s.tail + F.ringLen - s.head) % F.ringLen)

/-- The slots of packets that have not been read. -/
def Unread (s : Rx F) (slot : Nat) : Prop :=
  ∃ t, s.taken ≤ t ∧ t < s.delivered.length ∧ t % F.ringLen = slot

/-- `available_for_read` tells whether the next read returns something. -/
def Announces (s : Rx F) : Prop :=
  ∃ n, s.available = .ok n ∧
    (n ≠ 0 ↔ ∀ len, 0 < len → ∃ bytes, s.readPacket len = .ok (some bytes) ∧ bytes ≠ [])

/-! ### The invariant -/

/-- The hardware has come to the slot of packet `delivered.length`, and the driver to that of packet
`released`. The descriptor in front of it is the tail. -/
structure Inv (s : Rx F) (released : Nat) : Prop where
  index_eq : s.index = released % F.ringLen
  head_eq : s.head = s.delivered.length % F.ringLen
  tail_eq : s.tail = (released + F.ringLen - 1) % F.ringLen
  taken_eq : (s.phase = .idle ∧ s.taken = released) ∨ (s.phase = .releasing ∧ s.taken = released + 1)
  taken_le : s.taken ≤ s.delivered.length
  delivered_lt : s.delivered.length < released + F.ringLen
  unread : ∀ t packet, s.taken ≤ t → s.delivered[t]? = some packet →
    Fits F packet (s.ring (t % F.ringLen)) ∧
      (s.buffers (t % F.ringLen)).take packet.length = packet
  rest : ∀ t, s.delivered.length ≤ t → t < released + F.ringLen →
    F.done (s.ring (t % F.ringLen)) = false
  cleared : s.phase = .releasing → F.done s.current = false

theorem Inv.new : Inv (new F) 0 where
  index_eq := (zero_mod _).symm
  head_eq := (zero_mod _).symm
  tail_eq := by
    have := F.ringLen_pos
    show F.ringLen - 1 = (0 + F.ringLen - 1) % F.ringLen
    rw [zero_add, mod_eq_of_lt (by omega)]
  taken_eq := .inl ⟨rfl, rfl⟩
  taken_le := le_refl _
  delivered_lt := by
    have := F.ringLen_pos
    show 0 < 0 + F.ringLen
    omega
  unread _ _ _ h := by cases h
  rest _ _ _ := F.done_zeroed
  cleared h := by cases h

section Keep

variable {s : Rx F} {released : Nat}

section

variable (h : Inv s released)

include h

theorem Inv.released_le : released ≤ s.taken := by
  rcases h.taken_eq with ⟨-, h⟩ | ⟨-, h⟩
  · omega
  · omega

/-- The hardware is in front of the tail. -/
theorem Inv.head_ne_tail_iff : s.head ≠ s.tail ↔ s.delivered.length + 1 < released + F.ringLen := by
  have hle := h.delivered_lt
  have htaken := h.taken_le
  have hreleased := h.released_le
  have hslot : s.delivered.length % F.ringLen = (released + F.ringLen - 1) % F.ringLen ↔
      s.delivered.length = released + F.ringLen - 1 := slot_eq_iff (by omega) (by omega)
  rw [h.head_eq, h.tail_eq, Ne, hslot]
  omega

theorem Inv.deliver {packet : List U8} {desc : F.Desc} (hne : s.head ≠ s.tail)
    (hfits : Fits F packet desc) : Inv (s.deliverHead packet desc) released := by
  have hlt := h.head_ne_tail_iff.mp hne
  have htaken := h.taken_le
  have hreleased := h.released_le
  have hsucc : (s.delivered ++ [packet]).length = s.delivered.length + 1 := length_append
  refine { h with
    head_eq := ?_, taken_le := ?_, delivered_lt := ?_, unread := ?_, rest := ?_, cleared := ?_ }
  · show (s.head + 1) % F.ringLen = (s.delivered ++ [packet]).length % F.ringLen
    rw [hsucc, h.head_eq, mod_add_mod]
  · show s.taken ≤ (s.delivered ++ [packet]).length
    omega
  · show (s.delivered ++ [packet]).length < released + F.ringLen
    omega
  · intro t packet' ht hpacket
    have hpacket' : (s.delivered ++ [packet])[t]? = some packet' := hpacket
    have ht' : s.taken ≤ t := ht
    show Fits F packet' (update s.ring s.head desc (t % F.ringLen)) ∧
      (update s.buffers s.head _ (t % F.ringLen)).take packet'.length = packet'
    rcases getElem?_push hpacket' with ⟨hold, hget⟩ | ⟨rfl, rfl⟩
    · have hslot : t % F.ringLen ≠ s.head := by
        rw [h.head_eq]
        exact slot_ne hold (by omega)
      rw [update_of_ne hslot, update_of_ne hslot]
      exact h.unread t packet' ht' hget
    · rw [← h.head_eq, update_self, update_self]
      exact ⟨hfits, take_left⟩
  · intro t ht hlt'
    have ht' : (s.delivered ++ [packet]).length ≤ t := ht
    show F.done (update s.ring s.head desc (t % F.ringLen)) = false
    have hslot : t % F.ringLen ≠ s.head := by
      rw [h.head_eq]
      exact (slot_ne (by omega) (by omega)).symm
    rw [update_of_ne hslot]
    exact h.rest t (by omega) hlt'
  · intro hphase
    have hphase' : s.phase = .releasing := hphase
    have hslot : s.index ≠ s.head := by
      rw [h.index_eq, h.head_eq]
      refine slot_ne ?_ (by omega)
      rcases h.taken_eq with ⟨hidle, -⟩ | ⟨-, heq⟩
      · cases hidle.symm.trans hphase'
      · omega
    show F.done (update s.ring s.head desc s.index) = false
    rw [update_of_ne hslot]
    exact h.cleared hphase'

section

variable (hphase : s.phase = .idle)

include hphase

theorem Inv.taken_idle : s.taken = released := by
  rcases h.taken_eq with ⟨-, h⟩ | ⟨hphase', -⟩
  · exact h
  · cases hphase.symm.trans hphase'

/-- What is in the descriptor and the buffer that are read next. -/
theorem Inv.current_fits {packet : List U8} (hget : s.delivered[s.taken]? = some packet) :
    Fits F packet s.current ∧ (s.buffers s.index).take packet.length = packet := by
  rw [current, h.index_eq, ← h.taken_idle hphase]
  exact h.unread _ _ (le_refl _) hget

theorem Inv.current_rest (hget : s.delivered[s.taken]? = none) : F.done s.current = false := by
  have hle := getElem?_eq_none_iff.mp hget
  have hreleased := h.taken_idle hphase
  have hpos := F.ringLen_pos
  rw [current, h.index_eq, ← hreleased]
  exact h.rest _ hle (by omega)

/-- A read returns the first packet that has not been read. -/
theorem Inv.readPacket_eq (len : Nat) :
    s.readPacket len = .ok (s.delivered[s.taken]?.map (·.take len)) := by
  unfold readPacket
  cases hget : s.delivered[s.taken]? with
  | none => simp [h.current_rest hphase hget]
  | some =>
    obtain ⟨hfits, hbytes⟩ := h.current_fits hphase hget
    have hle := not_lt.mpr hfits.le
    simp [hfits.done, hfits.endOfPacket, hfits.length, hle, hbytes]

theorem Inv.available_eq : s.available = .ok ((s.delivered[s.taken]?.map length).getD 0) := by
  unfold available
  cases hget : s.delivered[s.taken]? with
  | none => simp [h.current_rest hphase hget]
  | some =>
    obtain ⟨hfits, -⟩ := h.current_fits hphase hget
    simp [hfits.done, hfits.endOfPacket, hfits.length]

theorem Inv.announces : s.Announces := by
  refine ⟨_, h.available_eq hphase, ?_⟩
  simp only [h.readPacket_eq hphase]
  cases s.delivered[s.taken]? with
  | none => exact ⟨fun hne => absurd rfl hne, fun hall => by simpa using hall 1 one_pos⟩
  | some packet =>
    cases packet with
    | nil => exact ⟨fun hne => absurd rfl hne, fun hall => by simpa using hall 1 one_pos⟩
    | cons =>
      refine ⟨fun _ len hlen => ⟨_, rfl, ?_⟩, fun _ => succ_ne_zero _⟩
      cases len with
      | zero => exact absurd hlen (lt_irrefl 0)
      | succ => exact cons_ne_nil _ _

theorem Inv.take {bytes : List U8} (hlt : s.taken < s.delivered.length) :
    Inv (s.takePacket bytes) released := by
  have hreleased := h.taken_idle hphase
  have hbound := h.delivered_lt
  refine { h with
    taken_eq := .inr ⟨rfl, congrArg (· + 1) hreleased⟩, taken_le := hlt
    unread := ?_, rest := ?_, cleared := ?_ }
  · intro t packet ht hget
    have ht' : s.taken + 1 ≤ t := ht
    have hin : t < s.delivered.length := (List.getElem?_eq_some_iff.mp hget).1
    have hslot : t % F.ringLen ≠ s.index := by
      rw [h.index_eq, ← hreleased]
      exact (slot_ne (by omega) (by omega)).symm
    show Fits F packet (update s.ring s.index _ (t % F.ringLen)) ∧ _
    rw [update_of_ne hslot]
    exact h.unread t packet (by omega) hget
  · intro t ht htl
    have ht' : s.delivered.length ≤ t := ht
    have hslot : t % F.ringLen ≠ s.index := by
      rw [h.index_eq, ← hreleased]
      exact (slot_ne (by omega) (by omega)).symm
    show F.done (update s.ring s.index _ (t % F.ringLen)) = false
    rw [update_of_ne hslot]
    exact h.rest t ht' htl
  · intro _
    show F.done (update s.ring s.index _ s.index) = false
    rw [update_self]
    exact F.done_clear _

end

theorem Inv.release (hphase : s.phase = .releasing) : Inv s.releaseDesc (released + 1) := by
  have htaken : s.taken = released + 1 := by
    rcases h.taken_eq with ⟨hidle, -⟩ | ⟨-, heq⟩
    · cases hidle.symm.trans hphase
    · exact heq
  have hbound := h.delivered_lt
  refine { h with
    index_eq := ?_, tail_eq := ?_, taken_eq := .inl ⟨rfl, htaken⟩, delivered_lt := ?_, rest := ?_
    cleared := fun h => by cases h }
  · show wrapRing s.index F.ringLen = (released + 1) % F.ringLen
    rw [h.index_eq, RxFormat.ringLen, wrapRing_eq, mod_add_mod]
  · show s.index = (released + 1 + F.ringLen - 1) % F.ringLen
    rw [h.index_eq, Nat.add_right_comm, Nat.add_sub_cancel, Nat.add_mod_right]
  · show s.delivered.length < released + 1 + F.ringLen
    omega
  · intro t ht hlt
    rcases lt_or_ge t (released + F.ringLen) with hold | hnew
    · exact h.rest t ht hold
    · -- The descriptor that was just read is a lap behind.
      obtain rfl : t = released + F.ringLen := by omega
      rw [add_mod_right, ← h.index_eq]
      exact h.cleared hphase

/-- The hardware does not get at packets that have not been read. -/
theorem Inv.not_unread_of_owned {slot : Nat} (howned : s.Owned slot) :
    ¬ s.Unread slot ∧ F.done (s.ring slot) = false := by
  have hbound := h.delivered_lt
  have htaken := h.taken_le
  have hreleased := h.released_le
  have hdistance : (s.tail + F.ringLen - s.head) % F.ringLen =
      released + F.ringLen - 1 - s.delivered.length := by
    rw [h.tail_eq, h.head_eq]
    exact slot_distance (by omega) (by omega)
  rw [Owned, hdistance, h.head_eq, segment_congr (mod_mod _ _)] at howned
  obtain ⟨k, hk, rfl⟩ := mem_map.mp howned
  have hk' := mem_range.mp hk
  constructor
  · rintro ⟨t, ht, hlt, heq⟩
    exact slot_ne (by omega) (by omega) heq
  · exact h.rest _ (by omega) (by omega)

end

/-- What a step can do. -/
theorem step_cases {e : RxEvent F} {s' : Rx F} (h : step s e = some s') :
    (∃ packet desc, e = .deliver packet desc ∧ s.head ≠ s.tail ∧ Fits F packet desc ∧
      s' = s.deliverHead packet desc) ∨
    (∃ len, e = .read len ∧ s.phase = .idle ∧
      ((∃ fault, s.readPacket len = .error fault ∧
          s' = { s with phase := .panicked, results := s.results ++ [.error fault] }) ∨
        (s.readPacket len = .ok none ∧ s' = { s with results := s.results ++ [.ok none] }) ∨
        ∃ bytes, s.readPacket len = .ok (some bytes) ∧ s' = s.takePacket bytes)) ∨
    (e = .release ∧ s.phase = .releasing ∧ s' = s.releaseDesc) := by
  cases e with
  | deliver packet desc =>
    simp only [step, ite_none_right_eq_some, some_inj] at h
    exact .inl ⟨packet, desc, rfl, h.1.1, h.1.2, h.2.symm⟩
  | read len =>
    simp only [step, ite_none_right_eq_some] at h
    obtain ⟨hphase, h⟩ := h
    refine .inr (.inl ⟨len, rfl, hphase, ?_⟩)
    split at h
    · cases h
      exact .inl ⟨_, ‹_›, rfl⟩
    · cases h
      exact .inr (.inl ⟨‹_›, rfl⟩)
    · cases h
      exact .inr (.inr ⟨_, ‹_›, rfl⟩)
  | release =>
    simp only [step, ite_none_right_eq_some, some_inj] at h
    exact .inr (.inr ⟨rfl, h.1, h.2.symm⟩)

end Keep

/-! ### The refinement -/

/-- The ring and the queue beside it: the same packets are waiting, and the calls have returned the
same. -/
structure Tracks (s : Rx F) (q : PacketFifo) : Prop where
  pending : q.pending = s.delivered.drop s.taken
  results : s.results = q.results.map .ok

/-- One step of both. -/
theorem tracks_step {s s' : Rx F} {q : PacketFifo} {e : RxEvent F} {released : Nat}
    (h : Inv s released) (htracks : Tracks s q) (hstep : step s e = some s') :
    (∃ released', Inv s' released') ∧ Tracks s' (q.step e) := by
  obtain ⟨packet, desc, rfl, hne, hfits, rfl⟩ | ⟨len, rfl, hphase, hread⟩ | ⟨rfl, hphase, rfl⟩ :=
    step_cases hstep
  · refine ⟨⟨released, h.deliver hne hfits⟩, ?_, htracks.results⟩
    show q.pending ++ [packet] = (s.delivered ++ [packet]).drop s.taken
    rw [drop_append_of_le_length h.taken_le, htracks.pending]
  · have hresult := h.readPacket_eq hphase len
    cases hget : s.delivered[s.taken]? with
    | none =>
      have hempty : q.pending = [] := by
        rw [htracks.pending]
        exact drop_eq_nil_of_le (getElem?_eq_none_iff.mp hget)
      rw [hget] at hresult
      obtain ⟨fault, herror, -⟩ | ⟨-, rfl⟩ | ⟨bytes, hsome, -⟩ := hread
      · cases hresult.symm.trans herror
      · refine ⟨⟨released, { h with }⟩, ?_⟩
        rw [PacketFifo.step, PacketFifo.read, hempty]
        refine ⟨hempty.symm.trans htracks.pending, ?_⟩
        rw [map_append, htracks.results]
        rfl
      · cases hresult.symm.trans hsome
    | some packet =>
      obtain ⟨hlt, hpacket⟩ := List.getElem?_eq_some_iff.mp hget
      have hpending : q.pending = packet :: s.delivered.drop (s.taken + 1) := by
        rw [htracks.pending, drop_eq_getElem_cons hlt, hpacket]
      rw [hget] at hresult
      obtain ⟨fault, herror, -⟩ | ⟨hnone, -⟩ | ⟨bytes, hsome, rfl⟩ := hread
      · cases hresult.symm.trans herror
      · cases hresult.symm.trans hnone
      · cases hresult.symm.trans hsome
        refine ⟨⟨released, h.take hphase hlt⟩, ?_⟩
        rw [PacketFifo.step, PacketFifo.read, hpending]
        refine ⟨rfl, ?_⟩
        show s.results ++ [_] = (q.results ++ [_]).map .ok
        rw [map_append, htracks.results]
        rfl
  · exact ⟨⟨released + 1, h.release hphase⟩, htracks.pending, htracks.results⟩

/-- A run of the ring and the queue beside it. -/
theorem tracks_run {es : List (RxEvent F)} {s : Rx F} (h : run step (new F) es = some s) :
    (∃ released, Inv s released) ∧ Tracks s (es.foldl PacketFifo.step .empty) := by
  refine run_induction (motive := fun es s => (∃ released, Inv s released) ∧
    Tracks s (es.foldl PacketFifo.step .empty)) ⟨⟨0, Inv.new⟩, rfl, rfl⟩ ?_ h
  rintro es s e s' - ⟨⟨released, hinv⟩, htracks⟩ hstep
  rw [foldl_append]
  exact tracks_step hinv htracks hstep

/-- What is claimed of a state, given the queue. -/
structure Refines (s : Rx F) (q : PacketFifo) : Prop where
  results : s.results = q.results.map .ok
  unread : ∀ slot, s.Owned slot → ¬ s.Unread slot ∧ F.done (s.ring slot) = false
  announces : s.phase = .idle → s.Announces

theorem refines_run {es : List (RxEvent F)} {s : Rx F} (h : run step (new F) es = some s) :
    Refines s (es.foldl PacketFifo.step .empty) := by
  obtain ⟨⟨released, hinv⟩, htracks⟩ := tracks_run h
  exact ⟨htracks.results, fun _ => hinv.not_unread_of_owned, hinv.announces⟩

end Rx

/-- The receive rings are queues. -/
theorem receive_refines_fifo : (∀ es s, run Rx.step (Rx.new E1000.rxFormat) es = some s →
      s.Refines (es.foldl PacketFifo.step .empty)) ∧
    (∀ es s, run Rx.step (Rx.new Ixgbe.rxFormat) es = some s →
      s.Refines (es.foldl PacketFifo.step .empty)) :=
  ⟨fun _ _ => Rx.refines_run, fun _ _ => Rx.refines_run⟩

/-- A packet of two bytes that is read to a buffer of one. -/
def oneReceived {F : RxFormat} (desc : F.Desc) : List (RxEvent F) :=
  [.read 8, .deliver [1, 2] desc, .read 1, .release, .read 8]

theorem one_packet_received :
    (∃ s, run Rx.step (Rx.new E1000.rxFormat) (oneReceived ⟨2, 0, 3, 0, 0⟩) = some s ∧
      s.Refines ⟨[], [none, some [1], none]⟩) ∧
    (∃ s, run Rx.step (Rx.new Ixgbe.rxFormat) (oneReceived ⟨3, 2, 0⟩) = some s ∧
      s.Refines ⟨[], [none, some [1], none]⟩) :=
  ⟨⟨_, rfl, receive_refines_fifo.1 (oneReceived ⟨2, 0, 3, 0, 0⟩) _ rfl⟩,
    ⟨_, rfl, receive_refines_fifo.2 (oneReceived ⟨3, 2, 0⟩) _ rfl⟩⟩

end RedoxDrivers.Net
