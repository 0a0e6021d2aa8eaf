import RedoxDrivers.Xhci.Reactor

/-!
The calls that put work on a ring and wait for its event (`xhcid/src/xhci/scheme.rs`):
`execute_command`, `execute_control_transfer` and `execute_transfer`.

Each of them stores its TRBs in consecutive slots of a ring and creates a future, which
registers with the reactor when it is first polled. `execute_segment` says which slots
the TRBs take and which addresses the future registers.
-/

namespace RedoxDrivers.Xhci

open Lib List Nat

/-- What a closure of the caller stores into the TRB it is given. -/
abbrev Store := Trb → Bool → Trb

/-- The work of a call: the slots of its TRBs, and what its future registers. -/
structure Td where
  slots : List Nat
  kind : StateKind
  isIsochOrVf : Bool
deriving DecidableEq, Repr

/-- Stores into the TRBs that successive calls of `next` return. -/
def Ring.enqueueAll : Ring → List Store → Except Fault (List Nat × Ring)
  | self, [] => .ok ([], self)
  | self, store :: stores => do
    let (i, self) ← self.enqueue store
    let (slots, self) ← enqueueAll self stores
    return (i :: slots, self)

/-- The source takes references to the two TRBs. -/
def nextTransferEventTrb (ac64 : Bool) (ringId : RingId) (ring : Ring) (slots : List Nat)
    (firstIndex lastIndex : Nat) : Except Fault Td := do
  let lastTrb ← index ring.trbs lastIndex
  if lastTrb.isTransferTrb then
    return ⟨slots, .transfer (ring.trbPhysPtr ac64 firstIndex) (ring.trbPhysPtr ac64 lastIndex) ringId,
      lastTrb.trbType == TrbType.isoch.toU8⟩
  else .error .assertFailed

def nextCommandCompletionEventTrb (ac64 : Bool) (commandRing : Ring) (cmdIndex : Nat) :
    Except Fault Td := do
  let trb ← index commandRing.trbs cmdIndex
  if trb.isCommandTrb then
    return ⟨[cmdIndex], .commandCompletion (commandRing.trbPhysPtr ac64 cmdIndex), false⟩
  else .error .assertFailed

def executeCommand (ac64 : Bool) (commandRing : Ring) (f : Store) : Except Fault (Td × Ring) := do
  let (cmdIndex, commandRing) ← commandRing.enqueue f
  let td ← nextCommandCompletionEventTrb ac64 commandRing cmdIndex
  return (td, commandRing)

/-- The closure stores the data stages `d` and breaks after `last`. -/
def executeControlTransfer (ac64 : Bool) (port : U8) (ring : Ring) (setup : U64)
    (tk : TransferKind) (d : List Store) (last : Store) : Except Fault (Td × Ring) := do
  let (firstIndex, ring) ← ring.enqueue fun _ cycle => .setup setup tk cycle
  let (data, ring) ← ring.enqueueAll (if tk = .noData then [] else d ++ [last])
  let (lastIndex, ring) ← ring.enqueue fun _ cycle =>
    .statusStage 0 (tk != .in) true false false cycle
  let td ← nextTransferEventTrb ac64 (.defaultControlPipe port) ring
    (firstIndex :: data ++ [lastIndex]) firstIndex lastIndex
  return (td, ring)

/-- The closure stores the TRBs `d` and breaks after `last`. Only the last TRB is known to
the future ("TODO: find first TRB"). -/
def executeTransfer (ac64 : Bool) (ringId : RingId) (ring : Ring) (d : List Store)
    (last : Store) : Except Fault (Td × Ring) := do
  let (slots, ring) ← ring.enqueueAll d
  let (lastIndex, ring) ← ring.enqueue last
  let td ← nextTransferEventTrb ac64 ringId ring (slots ++ [lastIndex]) lastIndex lastIndex
  return (td, ring)

/-- A call and its arguments. -/
inductive Call where
  | command (f : Store)
  | control (port : U8) (setup : U64) (tk : TransferKind) (d : List Store) (last : Store)
  | transfer (port endpNum : U8) (streamId : U16) (d : List Store) (last : Store)

namespace Call

/-- The ring that the call picks. -/
def ring (hci : Hci) : Call → Option Ring
  | .command _ => some hci.cmd
  | .control port .. => do
    match ← (← hci.portStates port.toNat).endpointStates 0 with
    | .ring ring => some ring
    | .streams _ => none
  | .transfer port endpNum .. => do
    match ← (← hci.portStates port.toNat).endpointStates endpNum with
    | .ring ring => some ring
    | .streams rings => rings 1

/-- The ring that the call's future names. -/
def ringId : Call → Option RingId
  | .command _ => none
  | .control port .. => some (.defaultControlPipe port)
  | .transfer port endpNum streamId .. => some ⟨port, endpNum, streamId⟩

def execute (ac64 : Bool) (ring : Ring) : Call → Except Fault (Td × Ring)
  | .command f => executeCommand ac64 ring f
  | .control port setup tk d last => executeControlTransfer ac64 port ring setup tk d last
  | .transfer port endpNum streamId d last =>
    executeTransfer ac64 ⟨port, endpNum, streamId⟩ ring d last

end Call

/-! ### The slots of a call -/

namespace Ring

/-- A link ring that can be enqueued to. -/
structure Usable (r : Ring) : Prop where
  isLink : r.link = true
  two : 2 ≤ r.trbs.length
  index : r.i < r.trbs.length

/-- The same memory, whatever it holds. -/
structure SamePlace (r r' : Ring) : Prop where
  base : r'.base = r.base
  length : r'.trbs.length = r.trbs.length

variable {r r' : Ring} {ac64 : Bool}

theorem SamePlace.trans {r'' : Ring} (h : SamePlace r r') (h' : SamePlace r' r'') :
    SamePlace r r'' :=
  ⟨h'.base.trans h.base, h'.length.trans h.length⟩

theorem SamePlace.trbPhysPtr (h : SamePlace r r') (i : Nat) :
    r'.trbPhysPtr ac64 i = r.trbPhysPtr ac64 i := by
  unfold Ring.trbPhysPtr physBase
  rw [h.base]

/-- An enqueue takes the slot at the index, or the first one if the index is at the link. -/
theorem enqueue_slot (usable : r.Usable) {store : Store} {i : Nat}
    (h : r.enqueue store = .ok (i, r')) :
    i = r.i % (r.trbs.length - 1) ∧ r'.Usable ∧ SamePlace r r' ∧
      r'.i % (r.trbs.length - 1) = (r.i + 1) % (r.trbs.length - 1) := by
  have htwo := usable.two
  have hindex := usable.index
  obtain ⟨⟨j, r₁⟩, hnext, h⟩ := bind_eq_ok.mp h
  obtain ⟨trbs, hmodify, h⟩ := bind_eq_ok.mp h
  obtain ⟨-, rfl⟩ := modifyAt_eq_ok.mp hmodify
  cases h
  by_cases hlast : r.i + 1 = r.trbs.length
  · rw [nextIndex_wrap usable.isLink hlast htwo] at hnext
    cases hnext
    have hi : r.i = r.trbs.length - 1 := by omega
    refine ⟨by rw [hi, mod_self], ⟨usable.isLink, ?_, ?_⟩, ⟨rfl, ?_⟩, ?_⟩
    · simpa using htwo
    · simp only [length_modify]
      omega
    · simp
    · rw [hi, add_mod_left]
  · rw [nextIndex_inside (by omega)] at hnext
    cases hnext
    refine ⟨(mod_eq_of_lt (by omega)).symm, ⟨usable.isLink, ?_, ?_⟩, ⟨rfl, ?_⟩, rfl⟩
    · simpa using htwo
    · simp only [length_modify]
      omega
    · simp

/-- Enqueues take consecutive slots. -/
theorem enqueueAll_slots (usable : r.Usable) {stores : List Store} {slots : List Nat}
    (h : r.enqueueAll stores = .ok (slots, r')) :
    slots = segment (r.trbs.length - 1) r.i stores.length ∧ r'.Usable ∧ SamePlace r r' ∧
      r'.i % (r.trbs.length - 1) = (r.i + stores.length) % (r.trbs.length - 1) := by
  induction stores generalizing r slots with
  | nil =>
    cases h
    exact ⟨rfl, usable, ⟨rfl, rfl⟩, rfl⟩
  | cons store stores ih =>
    obtain ⟨⟨i, r₁⟩, hfirst, h⟩ := bind_eq_ok.mp h
    obtain ⟨⟨more, r₂⟩, hmore, h⟩ := bind_eq_ok.mp h
    cases h
    obtain ⟨hi, usable₁, place₁, hnext⟩ := enqueue_slot usable hfirst
    obtain ⟨hslots, usable₂, place₂, hlast⟩ := ih usable₁ hmore
    rw [place₁.length] at hslots hlast
    refine ⟨?_, usable₂, place₁.trans place₂, ?_⟩
    · rw [length_cons, add_comm, segment_add, segment_one, ← hi, hslots,
        segment_congr hnext]
      rfl
    · rw [hlast, add_mod, hnext, ← add_mod, length_cons, add_assoc,
        add_comm 1]

end Ring

namespace Call

variable {r r' : Ring} {ac64 : Bool} {td : Td}

/-- What the future of a call registers: the address of the command, the first and the last
address of a control transfer, and the last one of another transfer. -/
def Registers (ac64 : Bool) (r : Ring) (slots : List Nat) (kind : StateKind) : Call → Prop
  | .command _ => ∃ i, slots = [i] ∧ kind = .commandCompletion (r.trbPhysPtr ac64 i)
  | .control port .. => ∃ first last, slots.head? = some first ∧ slots.getLast? = some last ∧
      kind = .transfer (r.trbPhysPtr ac64 first) (r.trbPhysPtr ac64 last)
        (.defaultControlPipe port)
  | .transfer port endpNum streamId .. => ∃ last, slots.getLast? = some last ∧
      kind = .transfer (r.trbPhysPtr ac64 last) (r.trbPhysPtr ac64 last) ⟨port, endpNum, streamId⟩

theorem nextTransferEventTrb_eq_ok {ringId : RingId} {slots : List Nat} {first last : Nat}
    (h : nextTransferEventTrb ac64 ringId r slots first last = .ok td) : td.slots = slots ∧
      td.kind = .transfer (r.trbPhysPtr ac64 first) (r.trbPhysPtr ac64 last) ringId := by
  obtain ⟨trb, -, h⟩ := bind_eq_ok.mp h
  split at h
  · cases h
    exact ⟨rfl, rfl⟩
  · cases h

/-- A command takes the slot at the index, or the first one if the index is at the link. -/
theorem executeCommand_eq_ok (usable : r.Usable) {f : Store}
    (h : executeCommand ac64 r f = .ok (td, r')) : td.slots = [r.i % (r.trbs.length - 1)] ∧
      td.kind = .commandCompletion (r.trbPhysPtr ac64 (r.i % (r.trbs.length - 1))) ∧
      r'.Usable ∧ r.SamePlace r' := by
  obtain ⟨⟨i, r₁⟩, henqueue, h⟩ := bind_eq_ok.mp h
  obtain ⟨td', hnext, h⟩ := bind_eq_ok.mp h
  cases h
  obtain ⟨trb, -, hnext⟩ := bind_eq_ok.mp hnext
  obtain ⟨rfl, usable', place, -⟩ := Ring.enqueue_slot usable henqueue
  split at hnext
  · cases hnext
    exact ⟨rfl, by rw [place.trbPhysPtr], usable', place⟩
  · cases hnext

/-- **The slots of a call.** A call takes consecutive slots of its ring, and its future
registers their addresses. -/
theorem execute_segment (usable : r.Usable) {call : Call} (h : call.execute ac64 r = .ok (td, r')) :
    (∃ len, td.slots = segment (r.trbs.length - 1) r.i (len + 1)) ∧
      call.Registers ac64 r td.slots td.kind := by
  cases call with
  | command =>
    obtain ⟨hslots, hkind, -⟩ := executeCommand_eq_ok usable h
    exact ⟨⟨0, hslots⟩, _, hslots, hkind⟩
  | control port setup tk d last =>
    obtain ⟨⟨i, r₁⟩, hfirst, h⟩ := bind_eq_ok.mp h
    obtain ⟨⟨data, r₂⟩, hdata, h⟩ := bind_eq_ok.mp h
    obtain ⟨⟨j, r₃⟩, hlast, h⟩ := bind_eq_ok.mp h
    obtain ⟨td', hnext, h⟩ := bind_eq_ok.mp h
    cases h
    obtain ⟨hi, usable₁, place₁, hnext₁⟩ := Ring.enqueue_slot usable hfirst
    obtain ⟨hslots, usable₂, place₂, hnext₂⟩ := Ring.enqueueAll_slots usable₁ hdata
    obtain ⟨hj, -, place₃, -⟩ := Ring.enqueue_slot usable₂ hlast
    obtain ⟨htd, hkind⟩ := nextTransferEventTrb_eq_ok hnext
    have place := (place₁.trans place₂).trans place₃
    rw [place₁.length] at hslots hnext₂
    rw [place₂.length, place₁.length] at hj
    refine ⟨⟨1 + (if tk = .noData then [] else d ++ [last]).length, ?_⟩, i, j, ?_, ?_, ?_⟩
    · rw [htd, segment_add, segment_add, segment_one, segment_one, ← hi, hslots,
        segment_congr hnext₁, hj, hnext₂, add_mod, hnext₁, ← add_mod, add_assoc]
      rfl
    · rw [htd]
      rfl
    · rw [htd, List.getLast?_concat]
    · rw [hkind, place.trbPhysPtr, place.trbPhysPtr]
  | transfer port endpNum streamId d =>
    obtain ⟨⟨data, r₁⟩, hdata, h⟩ := bind_eq_ok.mp h
    obtain ⟨⟨j, r₂⟩, hlast, h⟩ := bind_eq_ok.mp h
    obtain ⟨td', hnext, h⟩ := bind_eq_ok.mp h
    cases h
    obtain ⟨hslots, usable₁, place₁, hnext₁⟩ := Ring.enqueueAll_slots usable hdata
    obtain ⟨hj, -, place₂, -⟩ := Ring.enqueue_slot usable₁ hlast
    obtain ⟨htd, hkind⟩ := nextTransferEventTrb_eq_ok hnext
    rw [place₁.length] at hj
    refine ⟨⟨d.length, ?_⟩, j, ?_, ?_⟩
    · rw [htd, segment_add, segment_one, hslots, hj, hnext₁]
    · rw [htd, List.getLast?_concat]
    · rw [hkind, (place₁.trans place₂).trbPhysPtr]

end Call

end RedoxDrivers.Xhci
