import RedoxDrivers.Lib.Runs
import RedoxDrivers.Pcid.Handler

/-!
The subdrivers of `pcid` and the configuration space they share (`handle_spawn` in
`pcid/src/driver_handler.rs`, `pcid/src/cfg_access`).

Each connection has a thread that takes one request after the other, works out the response and sends it.
The accesses to the configuration space go through one lock, and what is wrong with an offset is found out by
assertions while the lock is held. A thread that panics there leaves the lock poisoned, and from then on
every access of every thread panics on `lock().unwrap()`.

`isolated_of_harmless` says when the connections do not get into each other's way: as long as the requests
name offsets that the access method takes and message data that `pci_types` takes, and the devices have
vendor specific capabilities of a proper length. A request with another offset ends it.
-/

namespace RedoxDrivers.Pcid

open Lib Accesses

/-! ### Configuration access -/

/-- A range of buses with memory-mapped configuration space. -/
structure Alloc where
  seg : U16
  startBus : U8
  endBus : U8
  base : Nat
deriving DecidableEq, Repr

def bytesPerBus : Nat := 0x100000

/-- Where an access goes to. -/
inductive Target where
  | mmio (addr : Nat)
  | port (address : U32)
deriving DecidableEq, Repr

/-- `Pci::address`. -/
def portAddress (address : Address) (offset : U8) : Except Fault U32 :=
  if offset &&& 0xfc ≠ offset then .error .assertFailed
  else .ok (0x80000000 ||| (address.bus.setWidth 32 <<< 16) ||| (BitVec.ofNat 32 address.device <<< 11) |||
    (BitVec.ofNat 32 address.function <<< 8) ||| offset.setWidth 32)

/-- The same for an offset of 16 bits. -/
def fallbackAddress (address : Address) (offset : U16) : Except Fault U32 :=
  if offset.toNat < 0x100 then portAddress address (offset.setWidth 8) else .error .unwrapNone

def busAddrOffsetInDwords (address : Address) (offset : U16) : Except Fault Nat :=
  if offset &&& 0xfffc ≠ offset then .error .assertFailed
  else if offset &&& 0x0fff ≠ offset then .error .assertFailed
  else .ok ((address.device.val <<< 15 ||| address.function.val <<< 12 ||| offset.toNat) >>> 2)

/-- Which of the locks are poisoned: the one of `Pcie`, and the one of `Pci` inside it. -/
structure Locks where
  pcie : Bool
  fallback : Bool
deriving DecidableEq, Repr

def Locks.fresh : Locks := ⟨false, false⟩

/-- The ranges are in the order of their first buses. All functions are in segment 0. -/
structure Pcie where
  allocs : List Alloc

namespace Pcie

variable (pcie : Pcie) (locks : Locks) (address : Address) (offset : U16)

/-- The range that starts at the bus or is the next one below it. -/
def busAddr (bus : U8) : Option Nat :=
  match (pcie.allocs.filter fun alloc => alloc.seg = 0 ∧ alloc.startBus ≤ bus).getLast? with
  | none => none
  | some alloc =>
    if alloc.startBus ≠ bus ∧ bus > alloc.endBus then none
    else some (alloc.base + (bus.toNat - alloc.startBus.toNat) * bytesPerBus)

def mmioAddr : Except Fault (Option Nat) :=
  match pcie.busAddr address.bus with
  | none => .ok none
  | some base => do
    let dwords ← busAddrOffsetInDwords address offset
    return some (base + 4 * dwords)

/-- The part that `read` and `write` have in common, and the locks afterwards. -/
def access : Except Fault Target × Locks :=
  if locks.pcie then (.error .unwrapNone, locks)
  else
    match pcie.mmioAddr address offset with
    | .error fault => (.error fault, { locks with pcie := true })
    | .ok (some addr) => (.ok (.mmio addr), locks)
    | .ok none =>
      if locks.fallback then (.error .unwrapNone, { locks with pcie := true })
      else
        match fallbackAddress address offset with
        | .error fault => (.error fault, ⟨true, true⟩)
        | .ok port => (.ok (.port port), locks)

/-- How far the access method of the bus reaches. -/
def limit : Nat := if (pcie.busAddr address.bus).isSome then 0x1000 else 0x100

/-- The offsets of the dwords that it can reach. -/
def Takes : Prop :=
  offset.toNat % 4 = 0 ∧ offset.toNat < pcie.limit address

instance : Decidable (pcie.Takes address offset) :=
  inferInstanceAs (Decidable (_ ∧ _))

end Pcie

open Pcie

/-! ### Connections -/

inductive Phase where
  | waiting
  /-- A request is being worked on, and this is left to do. -/
  | working (rest : Config PcidClientResponse)
  /-- The thread has panicked. -/
  | gone

structure Connection where
  phase : Phase
  received : Nat
  responses : List PcidClientResponse

variable {ι : Type} [DecidableEq ι]

structure ClientState (ι : Type) where
  locks : Locks
  connections : ι → Connection

inductive ClientEvent (ι : Type) where
  | request (client : ι) (req : PcidClientRequest)
  /-- The thread goes on. If it makes an access, the device answers with `answer`. -/
  | go (client : ι) (answer : U32)

def ClientState.start : ClientState ι where
  locks := .fresh
  connections := fun _ => ⟨.waiting, 0, []⟩

namespace ClientState

variable (s : ClientState ι) (client : ι)

def setPhase (phase : Phase) : ClientState ι :=
  { s with connections := Function.update s.connections client { s.connections client with phase } }

def receive (rest : Config PcidClientResponse) : ClientState ι :=
  { s with
    connections := Function.update s.connections client
      { s.connections client with
        phase := .working rest
        received := (s.connections client).received + 1 } }

def send (response : PcidClientResponse) : ClientState ι :=
  { s with
    connections := Function.update s.connections client
      { s.connections client with
        phase := .waiting
        responses := (s.connections client).responses ++ [response] } }

end ClientState

section System

variable (pcie : Pcie) (handlers : ι → DriverHandler)

/-- An access, after which `rest` is left to do. -/
def accessStep (s : ClientState ι) (client : ι) (offset : U16) (rest : Config PcidClientResponse) :
    ClientState ι :=
  match pcie.access s.locks (handlers client).args.addr offset with
  | (.ok _, locks) => { s.setPhase client (.working rest) with locks }
  | (.error _, locks) => { s.setPhase client .gone with locks }

def workStep (s : ClientState ι) (client : ι) (answer : U32) : Config PcidClientResponse → ClientState ι
  | .done response => s.send client response
  | .panic _ => s.setPhase client .gone
  | .read offset next => accessStep pcie handlers s client offset (next answer)
  | .write offset _ next => accessStep pcie handlers s client offset next

def clientStep (s : ClientState ι) : ClientEvent ι → Option (ClientState ι)
  | .request client req =>
    match (s.connections client).phase with
    | .waiting => some (s.receive client ((handlers client).respond req))
    | _ => none
  | .go client answer =>
    match (s.connections client).phase with
    | .working rest => some (workStep pcie handlers s client answer rest)
    | _ => none

/-- How many requests have no response yet. -/
def Phase.pending : Phase → Nat
  | .working _ => 1
  | _ => 0

structure Connection.Served (conn : Connection) : Prop where
  /-- The handler was not terminated. -/
  alive : conn.phase ≠ .gone
  /-- Each request has its response, but for the one that is worked on, -/
  answered : conn.responses.length + conn.phase.pending = conn.received
  /-- and of that one finitely many accesses are left. -/
  finishes : ∀ rest, conn.phase = .working rest →
    ∀ answers, ∃ n last, rest.follow answers n = some last ∧ last.finished = true

/-- The clients are isolated from each other, as far as a state shows it. -/
structure Isolated (s : ClientState ι) : Prop where
  served : ∀ c, (s.connections c).Served
  /-- An access has the result that it would have if nobody had made a request yet. -/
  accessible : ∀ address offset, (pcie.access s.locks address offset).1 =
    (pcie.access .fresh address offset).1

end System

/-! ### Harmless requests and devices -/

/-- The dwords of the first 256 bytes. -/
def Legacy (offset : U16) : Prop := offset.toNat % 4 = 0 ∧ offset.toNat < 0x100

/-- Code that, whatever the device answers, does not panic and accesses only these. -/
def StaysLegacy {α : Type} (x : Config α) : Prop := x.Safe Legacy fun _ _ => True

structure MsiCapability.Orderly (cap : MsiCapability) : Prop where
  setEnabled : ∀ b, StaysLegacy (cap.setEnabled b)
  others : cap.Accessors fun _ => StaysLegacy

structure MsixCapability.Orderly (cap : MsixCapability) : Prop where
  setEnabled : ∀ b, StaysLegacy (cap.setEnabled b)
  setFunctionMask : ∀ mask, StaysLegacy (cap.setFunctionMask mask)

/-- What is taken for granted of `pci_types`: it finds the capabilities in the first 256 bytes, and its
accessors stay there. -/
structure DriverHandler.Orderly (handler : DriverHandler) : Prop where
  msi : ∀ cap, handler.msi = some cap → cap.Orderly
  msiX : ∀ cap, handler.msiX = some cap → cap.Orderly
  vendors : ∀ offset ∈ handler.vendors, Legacy offset

section Harmless

variable (pcie : Pcie)

/-- The first dword of a vendor specific capability has a length that is taken and within reach. -/
def Pcie.FitsVendor (address : Address) (offset : U16) (dword : U32) : Prop :=
  vendorLength dword = 0 ∨ 3 < vendorLength dword ∧ vendorLength dword % 4 = 0 ∧
    offset.toNat + vendorLength dword ≤ pcie.limit address

/-- What a device may answer to a read. -/
def DriverHandler.Fine (handler : DriverHandler) (offset : U16) (answer : U32) : Prop :=
  offset ∈ handler.vendors → pcie.FitsVendor handler.args.addr offset answer

/-- What a client may ask for. -/
def DriverHandler.Harmless (handler : DriverHandler) : PcidClientRequest → Prop
  | .readConfig offset => pcie.Takes handler.args.addr offset
  | .writeConfig offset _ => pcie.Takes handler.args.addr offset
  | .setFeatureInfo (.msi info) => ∀ cap, handler.msi = some cap →
      ∀ message, info.messageAddressAndData = some message → message.data.toNat < 2 ^ cap.dataWidth
  | _ => True

def Harmless (handlers : ι → DriverHandler) (s : ClientState ι) : ClientEvent ι → Prop
  | .request client req => (handlers client).Harmless pcie req
  | .go client answer => ∀ offset next, (s.connections client).phase = .working (.read offset next) →
      (handlers client).Fine pcie offset answer

end Harmless

/-- The offset that a request names. -/
def PcidClientRequest.offset? : PcidClientRequest → Option U16
  | readConfig offset => some offset
  | writeConfig offset _ => some offset
  | _ => none

/-! ### Accesses -/

section Access

variable {pcie : Pcie} {address : Address} {offset : U16}

theorem exists_busAddrOffsetInDwords (address : Address) :
    (∃ dwords, busAddrOffsetInDwords address offset = .ok dwords) ↔
      offset.toNat % 4 = 0 ∧ offset.toNat < 0x1000 := by
  have haligned : offset &&& 0xfffc = offset ↔ offset.toNat % 4 = 0 := and_high_eq_iff (k := 2) offset
  have hlow : offset &&& 0x0fff = offset ↔ offset.toNat < 0x1000 := and_low_eq_iff (k := 12) offset (by decide)
  unfold busAddrOffsetInDwords
  split
  · simp_all
  · split
    all_goals simp_all

theorem exists_fallbackAddress (address : Address) :
    (∃ port, fallbackAddress address offset = .ok port) ↔
      offset.toNat % 4 = 0 ∧ offset.toNat < 0x100 := by
  unfold fallbackAddress
  split
  · rename_i hlt
    have haligned : offset.setWidth 8 &&& 0xfc = offset.setWidth 8 ↔ (offset.setWidth 8).toNat % 4 = 0 :=
      and_high_eq_iff (k := 2) (offset.setWidth 8)
    unfold portAddress
    split
    all_goals simp_all
  · simp_all

/-- An access of a thread that holds fresh locks succeeds if the offset is one that it takes, -/
theorem access_of_takes (h : pcie.Takes address offset) :
    ∃ target, pcie.access .fresh address offset = (.ok target, .fresh) := by
  obtain ⟨haligned, hlt⟩ := h
  unfold limit at hlt
  cases hbus : pcie.busAddr address.bus with
  | none =>
    rw [hbus] at hlt
    obtain ⟨port, hport⟩ := (exists_fallbackAddress address).mpr ⟨haligned, hlt⟩
    refine ⟨.port port, ?_⟩
    simp [access, mmioAddr, hbus, hport, Locks.fresh]
  | some base =>
    rw [hbus] at hlt
    obtain ⟨dwords, hdwords⟩ := (exists_busAddrOffsetInDwords address).mpr ⟨haligned, hlt⟩
    refine ⟨.mmio (base + 4 * dwords), ?_⟩
    simp [access, mmioAddr, hbus, hdwords, Locks.fresh, ok_bind, pure_eq_ok]

/-- and panics otherwise. -/
theorem access_of_not_takes (h : ¬ pcie.Takes address offset) :
    ∃ fault locks, pcie.access .fresh address offset = (.error fault, locks) := by
  cases hbus : pcie.busAddr address.bus with
  | none =>
    cases hport : fallbackAddress address offset with
    | error fault =>
      refine ⟨fault, ⟨true, true⟩, ?_⟩
      simp [access, mmioAddr, hbus, hport, Locks.fresh]
    | ok port =>
      have htakes := (exists_fallbackAddress address).mp ⟨port, hport⟩
      exact absurd (by simpa [Takes, limit, hbus] using htakes) h
  | some =>
    cases hdwords : busAddrOffsetInDwords address offset with
    | error fault =>
      refine ⟨fault, ⟨true, false⟩, ?_⟩
      simp [access, mmioAddr, hbus, hdwords, Locks.fresh, error_bind]
    | ok dwords =>
      have htakes := (exists_busAddrOffsetInDwords address).mp ⟨dwords, hdwords⟩
      exact absurd (by simpa [Takes, limit, hbus] using htakes) h

end Access

/-! ### One step -/

section Step

variable {pcie : Pcie} {handlers : ι → DriverHandler} {s s' : ClientState ι} {c : ι}

theorem clientStep_request {req : PcidClientRequest}
    (h : clientStep pcie handlers s (.request c req) = some s') :
    (s.connections c).phase = .waiting ∧ s' = s.receive c ((handlers c).respond req) := by
  simp only [clientStep] at h
  cases hphase : (s.connections c).phase with
  | waiting =>
    rw [hphase] at h
    exact ⟨rfl, (Option.some.inj h).symm⟩
  | working | gone => simp [hphase] at h

theorem clientStep_go {answer : U32} (h : clientStep pcie handlers s (.go c answer) = some s') :
    ∃ rest, (s.connections c).phase = .working rest ∧ s' = workStep pcie handlers s c answer rest := by
  simp only [clientStep] at h
  cases hphase : (s.connections c).phase with
  | waiting | gone => simp [hphase] at h
  | working rest =>
    rw [hphase] at h
    exact ⟨rest, rfl, (Option.some.inj h).symm⟩

variable {conn : Connection} {rest : Config PcidClientResponse}

/-- A connection with work left to do. -/
theorem Connection.served_working (hphase : conn.phase = .working rest)
    (hcount : conn.responses.length + 1 = conn.received) : conn.Served where
  alive := by simp [hphase]
  answered := by simpa [hphase, Phase.pending] using hcount
  finishes := fun rest _ answers => rest.exists_finished answers

/-- A connection without. -/
theorem Connection.served_waiting (hphase : conn.phase = .waiting)
    (hcount : conn.responses.length = conn.received) : conn.Served where
  alive := by simp [hphase]
  answered := by simpa [hphase, Phase.pending] using hcount
  finishes := fun rest _ answers => rest.exists_finished answers

theorem not_isolated_gone {locks : Locks} : ¬ Isolated pcie { s.setPhase c .gone with locks } := by
  intro isolated
  have halive := (isolated.served c).alive
  simp [ClientState.setPhase] at halive

end Step

/-! ### Requests that are harmless -/

section Requests

variable {pcie : Pcie} {handler : DriverHandler} {α : Type} {x : Config α}

variable (pcie handler) in
/-- The code is harmless for a handler, as long as the device answers as it may. -/
def DriverHandler.Safely (x : Config α) : Prop :=
  x.Safe (pcie.Takes handler.args.addr) (handler.Fine pcie)

theorem takes_of_legacy {a : Address} {offset : U16} (h : Legacy offset) : pcie.Takes a offset := by
  obtain ⟨haligned, hlt⟩ := h
  refine ⟨haligned, ?_⟩
  unfold limit
  split <;> omega

theorem StaysLegacy.safely (h : StaysLegacy x) : handler.Safely pcie x :=
  h.mono (fun _ => takes_of_legacy) fun _ _ _ => trivial

theorem safely_readDwords {offset : U16} {n : Nat} (haligned : offset.toNat % 4 = 0)
    (hroom : offset.toNat + 4 * n ≤ pcie.limit handler.args.addr) :
    handler.Safely pcie (readDwords offset n) := by
  induction n generalizing offset with
  | zero => exact safe_pure _
  | succ n ih =>
    have hlimit : pcie.limit handler.args.addr ≤ 0x1000 := by
      unfold limit
      split <;> omega
    have hnext : (offset + 4).toNat = offset.toNat + 4 := by
      rw [BitVec.toNat_add]
      exact Nat.mod_eq_of_lt (by simp; omega)
    have htakes : pcie.Takes handler.args.addr offset := ⟨haligned, by omega⟩
    refine safe_bind ⟨htakes, fun _ _ => trivial⟩ fun _ => ?_
    exact safe_bind (ih (by omega) (by omega)) fun _ => safe_pure _

theorem safely_parseVendors {offsets : List U16} (hlegacy : ∀ offset ∈ offsets, Legacy offset)
    (hvendor : ∀ offset ∈ offsets, offset ∈ handler.vendors) :
    handler.Safely pcie (parseVendors offsets) := by
  induction offsets with
  | nil => exact safe_pure _
  | cons offset offsets ih =>
    obtain ⟨hfirst, hrest⟩ := List.forall_mem_cons.mp hlegacy
    obtain ⟨hmem, hmems⟩ := List.forall_mem_cons.mp hvendor
    refine safe_bind ⟨takes_of_legacy hfirst, fun dword hfine => ?_⟩ fun _ =>
      safe_bind (ih hrest hmems) fun _ => safe_pure _
    show handler.Safely pcie (if vendorLength dword > 0 then _ else _)
    split
    · obtain hzero | ⟨hlong, hmod, hroom⟩ := hfine hmem
      · omega
      · rw [if_pos ⟨hlong, hmod⟩]
        exact safe_bind (safely_readDwords hfirst.1 (by omega)) fun _ => safe_pure _
    · exact safe_pure _

theorem composes_staysLegacy : Composes fun _ => StaysLegacy := composes_safe _ _

theorem DriverHandler.Orderly.enableFeature (orderly : handler.Orderly) (feature : PciFeature) :
    StaysLegacy (handler.enableFeature feature) := by
  cases feature with
  | msi =>
    refine safe_bind ?_ fun _ => holds_existing composes_staysLegacy fun cap hcap =>
      safe_bind ((orderly.msi cap hcap).setEnabled true) fun _ => safe_pure _
    unfold setMsixEnabled
    split
    · exact safe_pure _
    · exact (orderly.msiX _ ‹_›).setEnabled false
  | msiX =>
    refine safe_bind ?_ fun _ => holds_existing composes_staysLegacy fun cap hcap =>
      safe_bind ((orderly.msiX cap hcap).setEnabled true) fun _ => safe_pure _
    unfold setMsiEnabled
    split
    · exact safe_pure _
    · exact (orderly.msi _ ‹_›).setEnabled false

/-- Harmless requests stay so whatever else goes on. -/
theorem DriverHandler.safely_respond (orderly : handler.Orderly) {req : PcidClientRequest}
    (h : handler.Harmless pcie req) : handler.Safely pcie (handler.respond req) := by
  cases req with
  | requestConfig | requestFeatures => exact safe_pure _
  | requestVendorCapabilities =>
    exact safe_bind (safely_parseVendors orderly.vendors fun _ => id) fun _ => safe_pure _
  | enableFeature feature => exact (orderly.enableFeature feature).safely
  | featureInfo feature =>
    cases feature with
    | msi | msiX => exact (holds_existing composes_staysLegacy fun _ _ => safe_pure _).safely
  | setFeatureInfo info =>
    cases info with
    | msi =>
      exact (holds_existing composes_staysLegacy fun cap hcap => (orderly.msi cap hcap).others.setFeatureInfo
        composes_staysLegacy fun message hmessage hbig => absurd (h cap hcap message hmessage) hbig).safely
    | msiX functionMask =>
      exact (holds_existing composes_staysLegacy fun cap hcap => MsixCapability.holds_setFeatureInfo
        composes_staysLegacy (orderly.msiX cap hcap).setFunctionMask functionMask).safely
  | readConfig => exact ⟨h, fun _ _ => trivial⟩
  | writeConfig => exact ⟨h, trivial⟩

end Requests

/-! ### Whole runs -/

section Runs

variable {pcie : Pcie} {handlers : ι → DriverHandler} {s s' : ClientState ι} {c : ι} {conn : Connection}

/-- A connection that is served, with harmless work left to do. -/
structure Undisturbed (pcie : Pcie) (handler : DriverHandler) (conn : Connection) : Prop extends
    conn.Served where
  safely : ∀ rest, conn.phase = .working rest → handler.Safely pcie rest

/-- The states of a run that went well so far. -/
structure AllUndisturbed (pcie : Pcie) (handlers : ι → DriverHandler) (s : ClientState ι) : Prop where
  connections : ∀ c, Undisturbed pcie (handlers c) (s.connections c)
  locks : s.locks = .fresh

omit [DecidableEq ι] in
theorem AllUndisturbed.isolated (hs : AllUndisturbed pcie handlers s) : Isolated pcie s where
  served := fun c => (hs.connections c).toServed
  accessible := by simp [hs.locks]

section

variable (hs : AllUndisturbed pcie handlers s)

include hs

theorem AllUndisturbed.update (h : Undisturbed pcie (handlers c) conn) :
    AllUndisturbed pcie handlers { s with connections := Function.update s.connections c conn } := by
  refine ⟨fun c' => ?_, hs.locks⟩
  by_cases hc : c' = c
  · subst hc
    simpa using h
  · simpa [hc] using hs.connections c'

/-- One more request, or one access less of it, is left. -/
theorem AllUndisturbed.working {received : Nat} {rest : Config PcidClientResponse}
    (hcount : (s.connections c).responses.length + 1 = received) (hsafe : (handlers c).Safely pcie rest) :
    AllUndisturbed pcie handlers { s with
      connections := Function.update s.connections c
        ⟨.working rest, received, (s.connections c).responses⟩ } :=
  hs.update ⟨Connection.served_working rfl hcount, fun _ hrest => by cases hrest; exact hsafe⟩

/-- An access that is allowed leaves the locks alone. -/
theorem AllUndisturbed.accessStep {offset : U16} {rest : Config PcidClientResponse}
    (hcount : (s.connections c).responses.length + 1 = (s.connections c).received)
    (htakes : pcie.Takes (handlers c).args.addr offset) (hsafe : (handlers c).Safely pcie rest) :
    AllUndisturbed pcie handlers (accessStep pcie handlers s c offset rest) := by
  obtain ⟨target, htarget⟩ := access_of_takes htakes
  rw [Pcid.accessStep, hs.locks, htarget, ← hs.locks]
  exact hs.working hcount hsafe

theorem AllUndisturbed.step (orderly : ∀ c, (handlers c).Orderly) {e : ClientEvent ι}
    (he : Harmless pcie handlers s e) (hstep : clientStep pcie handlers s e = some s') :
    AllUndisturbed pcie handlers s' := by
  cases e with
  | request c =>
    obtain ⟨hphase, rfl⟩ := clientStep_request hstep
    have hcount := (hs.connections c).answered
    rw [hphase] at hcount
    exact hs.working (congrArg (· + 1) hcount) (DriverHandler.safely_respond (orderly c) he)
  | go c answer =>
    obtain ⟨rest, hphase, rfl⟩ := clientStep_go hstep
    have hcount := (hs.connections c).answered
    have hsafe := (hs.connections c).safely rest hphase
    rw [hphase] at hcount
    cases rest with
    | done response =>
      refine hs.update ⟨Connection.served_waiting rfl ?_, fun _ hrest => by cases hrest⟩
      simpa [Phase.pending] using hcount
    | panic => exact hsafe.elim
    | read offset next => exact hs.accessStep hcount hsafe.1 (hsafe.2 answer (he offset next hphase))
    | write => exact hs.accessStep hcount hsafe.1 hsafe.2

/-- A request with an offset that is not taken ends its handler. -/
theorem AllUndisturbed.not_isolated {req : PcidClientRequest} {offset : U16} (answer : U32)
    (hphase : (s.connections c).phase = .waiting) (hreq : req.offset? = some offset)
    (hnot : ¬ pcie.Takes (handlers c).args.addr offset) :
    ∃ s', run (clientStep pcie handlers) s [.request c req, .go c answer] = some s' ∧ ¬ Isolated pcie s' := by
  obtain ⟨fault, locks, haccess⟩ := access_of_not_takes hnot
  have hgone (rest : Config PcidClientResponse) : ¬ Isolated pcie
      (Pcid.accessStep pcie handlers (s.receive c ((handlers c).respond req)) c offset rest) := by
    rw [Pcid.accessStep, show (s.receive c _).locks = .fresh from hs.locks, haccess]
    exact not_isolated_gone
  have hgo (rest : Config PcidClientResponse) : clientStep pcie handlers (s.receive c rest) (.go c answer) =
      some (workStep pcie handlers (s.receive c rest) c answer rest) := by
    simp [clientStep, ClientState.receive]
  refine ⟨workStep pcie handlers (s.receive c ((handlers c).respond req)) c answer
    ((handlers c).respond req), ?_, ?_⟩
  · rw [run_cons, clientStep, hphase]
    dsimp only
    rw [Option.bind_some, run_cons, hgo]
    rfl
  · cases req with
    | readConfig | writeConfig =>
      cases hreq
      exact hgone _
    | _ => cases hreq

end

/-- **Isolation.** For all connections, all interleavings of their requests and all answers of the devices:
if the requests and the devices are harmless, the clients are isolated from each other. A request to read or
write with an offset that the access method of the bus does not take ends that. -/
theorem isolated_of_harmless (pcie : Pcie) {handlers : ι → DriverHandler}
    (orderly : ∀ c, (handlers c).Orderly) {es : List (ClientEvent ι)}
    (harmless : Along (clientStep pcie handlers) .start (Harmless pcie handlers) es) :
    Throughout (clientStep pcie handlers) .start (Isolated pcie) es ∧
    ∀ s c req offset answer, run (clientStep pcie handlers) .start es = some s →
      (s.connections c).phase = .waiting → PcidClientRequest.offset? req = some offset →
      ¬ pcie.Takes (handlers c).args.addr offset →
      ¬ Throughout (clientStep pcie handlers) .start (Isolated pcie)
        (es ++ [.request c req, .go c answer]) := by
  have start : AllUndisturbed pcie handlers .start :=
    ⟨fun _ => ⟨Connection.served_waiting rfl rfl, fun _ hrest => by cases hrest⟩, rfl⟩
  have undisturbed : Throughout (clientStep pcie handlers) .start (AllUndisturbed pcie handlers) es :=
    throughout_of_along start (fun _ _ _ hs he hstep => hs.step orderly he hstep) harmless
  refine ⟨fun pre hpre s hs => (undisturbed pre hpre s hs).isolated, ?_⟩
  intro s c req offset answer hrun hphase hreq hnot isolated
  obtain ⟨s', hs', hdisturbed⟩ :=
    (undisturbed es List.prefix_rfl s hrun).not_isolated answer hphase hreq hnot
  refine hdisturbed (isolated _ List.prefix_rfl s' ?_)
  rw [run_append, hrun]
  exact hs'

end Runs

/-! ### Two clients -/

/-- Functions with a vendor specific capability, one for each client. -/
def vendorHandler (c : Bool) : DriverHandler where
  args :=
    { addr := ⟨0, if c then ⟨2, by decide⟩ else ⟨1, by decide⟩, ⟨0, by decide⟩⟩
      fullDeviceId := ⟨0x1af4, 0x1000, 2, 0, 0, 3⟩ }
  capabilities := [.vendor 0x40]

def portsOnly : Pcie := ⟨[]⟩

/-- One client reads the first dword of its function, and the other one asks for a capability of 4 bytes. -/
theorem read_and_vendor_isolated :
    Throughout (clientStep portsOnly vendorHandler) .start (Isolated portsOnly)
      [.request false (.readConfig 0), .request true .requestVendorCapabilities, .go true 0x40009,
        .go false 0x10001af4, .go true 0x40009, .go false 0, .go true 0] := by
  have orderly (c : Bool) : (vendorHandler c).Orderly :=
    ⟨nofun, nofun, fun offset hoffset => by cases List.mem_singleton.mp hoffset; exact ⟨rfl, by decide⟩⟩
  refine (isolated_of_harmless portsOnly orderly ?_).1
  have fine (answer : U32) (h : vendorLength answer = 0 ∨ vendorLength answer = 4) (c : Bool) (offset : U16) :
      (vendorHandler c).Fine portsOnly offset answer := by
    intro hoffset
    cases List.mem_singleton.mp hoffset
    have hlimit : portsOnly.limit (vendorHandler c).args.addr = 0x100 := rfl
    have hstart : (0x40 : U16).toNat = 0x40 := rfl
    exact h.imp_right fun h => by omega
  intro pre e post hes t _
  have hmem := List.mem_append_right pre (List.mem_cons_self (a := e) (l := post))
  rw [← hes] at hmem
  simp only [List.mem_cons, List.not_mem_nil, or_false] at hmem
  rcases hmem with rfl | rfl | rfl | rfl | rfl | rfl | rfl
  · exact (by decide : portsOnly.Takes (vendorHandler false).args.addr 0)
  · trivial
  all_goals exact fun offset _ _ => fine _ (by decide) _ offset

/-- One client reads at offset 1. That ends its handler, and with it the one of the other client, who asks
for something that is all right. -/
theorem misaligned_read_not_isolated :
    ¬ Throughout (clientStep portsOnly vendorHandler) .start (Isolated portsOnly)
      [.request false (.readConfig 1), .go false 0, .request true (.readConfig 0), .go true 0] := by
  intro isolated
  have hserved := (isolated _ List.prefix_rfl _ rfl).served true
  exact hserved.alive rfl

end RedoxDrivers.Pcid
