import RedoxDrivers.Xhci.Descriptors
import RedoxDrivers.Xhci.Reactor

/-!
Endpoints of a device and how xhcid finds them (`xhcid/src/driver_interface.rs`,
`PortState` in `xhcid/src/xhci/mod.rs`, `xhcid/src/xhci/scheme.rs`).

Clients number the endpoints of a device from 1 on. Configuring the device, transfers and
resets count them through all interfaces of the configuration that is set. The status and
the restart of an endpoint, and its direction, look at the first interface of the first
configuration instead, and the direction one place further on. `resolvesAlike_iff` says for
which descriptors and numbers they come to the same endpoint.
-/

namespace RedoxDrivers.Xhci

open Lib BitVec Option Nat

/-! ### Endpoint descriptors -/

inductive EndpointTy where
  | ctrl
  | isoch
  | bulk
  | interrupt
deriving DecidableEq, Repr

inductive EndpDirection where
  | out
  | in_
  | bidirectional
deriving DecidableEq, Repr

def DevDesc.majorVersion (self : DevDesc) : U8 := ((self.usb &&& 0xFF00) >>> 8).setWidth 8

namespace EndpDesc

variable (self : EndpDesc)

def ty : EndpointTy :=
  if self.attributes &&& 3 = 0 then .ctrl
  else if self.attributes &&& 3 = 1 then .isoch
  else if self.attributes &&& 3 = 2 then .bulk
  else .interrupt

def isControl : Bool := self.ty == .ctrl

def isInterrupt : Bool := self.ty == .interrupt

def isBulk : Bool := self.ty == .bulk

def isIsoch : Bool := self.ty == .isoch

def direction : EndpDirection :=
  if self.isControl then .bidirectional
  else if self.address &&& 0x80 ≠ 0 then .in_
  else .out

def xhciEpType : Except Errno U8 :=
  match self.direction, self.ty with
  | .out, .isoch => .ok 1
  | .out, .bulk => .ok 2
  | .out, .interrupt => .ok 3
  | .bidirectional, .ctrl => .ok 4
  | .in_, .isoch => .ok 5
  | .in_, .bulk => .ok 6
  | .in_, .interrupt => .ok 7
  | _, _ => .error .einval

def isSuperspeed : Bool := self.ssc.isSome

def isSuperspeedplus (_ : EndpDesc) : Bool := false

/-- The usage bits of an interrupt endpoint are the fifth and fourth one, and the code
keeps only the fifth. -/
def interruptUsageBits : U8 := (self.attributes &&& 0x20) >>> 4

def isPeriodic : Bool :=
  if self.isInterrupt then self.interruptUsageBits == 0 else self.isIsoch

def logMaxStreams : Option U8 := do
  let ssc ← self.ssc
  if self.isBulk ∧ ssc.attributes &&& 0x1F ≠ 0 then some (ssc.attributes &&& 0x1F) else none

def isochMult (lec : Bool) : U8 :=
  if !lec && self.isIsoch then
    if self.isSuperspeedplus then 0
    else (self.ssc.map fun ssc => ssc.attributes &&& 0x3).getD 0
  else 0

def maxBurst : U8 := (self.ssc.map SuperSpeedCmp.maxBurst).getD 0

def hasSspCompanion : Bool :=
  (self.ssc.map fun ssc => ssc.attributes &&& 0x80 != 0).getD false

end EndpDesc

/-- The endpoints of all interfaces of a configuration, in order. -/
def ConfDesc.endpoints (self : ConfDesc) : List EndpDesc :=
  self.interfaceDescs.flatMap IfDesc.endpoints

/-- The device context index of an endpoint. -/
def endpNumToDci (p : Profile) (endpNum : U8) (desc : EndpDesc) : Except Fault U8 :=
  if endpNum = 0 then .error .unreachable
  else if desc.isControl ∨ desc.direction = .in_ then do
    let double ← p.mul endpNum 2
    p.add double 1
  else if desc.direction = .out then p.mul endpNum 2
  else .error .unreachable

/-! ### The state of a port -/

inductive XhciEndpCtlDirection where
  | out
  | in_
  | noData
deriving DecidableEq, Repr

inductive PortTransferStatusKind where
  | success
  | shortPacket
  | stalled
  | unknown
deriving DecidableEq, Repr

structure PortTransferStatus where
  kind : PortTransferStatusKind
  bytesTransferred : U32
deriving DecidableEq, Repr

inductive EndpIfState where
  | init
  | waitingForDataPipe (direction : XhciEndpCtlDirection) (bytesTransferred bytesToTransfer : U32)
  | waitingForStatus
  | waitingForTransferResult (status : PortTransferStatus)
deriving DecidableEq, Repr

namespace Scheme

structure EndpointState where
  transfer : RingOrStreams
  driverIfState : EndpIfState

structure EndpointContext where
  a : U32
  b : U32
  trl : U32
  trh : U32
  c : U32
deriving DecidableEq, Repr, Inhabited

/-- The input context of a device; `slotA` is the first word of its slot context. -/
structure InputContext where
  dropContext : U32
  addContext : U32
  control : U32
  slotA : U32
  endpoints : Vector EndpointContext 31
deriving DecidableEq, Repr

structure PortState where
  slot : U8
  cfgIdx : Option U8
  inputContext : InputContext
  devDesc : Option DevDesc
  endpointStates : U8 → Option EndpointState

/-- The loops of `get_endp_desc` over the endpoints from the current one on, which has the
number `count`. -/
def findEndp (p : Profile) (endpIdx : U8) : U8 → List EndpDesc → Except Fault (Option EndpDesc)
  | _, [] => .ok none
  | count, endp :: rest =>
    if endpIdx = count then .ok (some endp)
    else do
      let count ← p.add count 1
      findEndp p endpIdx count rest

/-- The counter reaches the index before it can overflow. -/
theorem findEndp_eq {p : Profile} {endpIdx : U8} {endps : List EndpDesc} {k : Nat}
    (hk : k ≤ endpIdx.toNat) :
    findEndp p endpIdx (BitVec.ofNat 8 k) endps = .ok endps[endpIdx.toNat - k]? := by
  induction endps generalizing k with
  | nil => rfl
  | cons endp rest ih =>
    have hcount : (BitVec.ofNat 8 k).toNat = k := toNat_ofNat_of_lt (by omega)
    unfold findEndp
    rcases lt_or_eq_of_le hk with hbefore | rfl
    · have hne : endpIdx ≠ BitVec.ofNat 8 k := by
        rw [Ne, ← toNat_inj, hcount]
        omega
      rw [if_neg hne, show (1 : U8) = BitVec.ofNat 8 1 from rfl, Profile.add_ofNat (by omega),
        ok_bind, ih (by omega)]
      congr 1
      rw [show endpIdx.toNat - k = endpIdx.toNat - (k + 1) + 1 by omega]
      rfl
    · rw [if_pos (by rw [ofNat_toNat, setWidth_eq]), Nat.sub_self]
      rfl

namespace PortState

section

variable (self : PortState) (p : Profile) (endpNum : U8)

/-- The endpoints that clients number: those of the configuration that is set. -/
def endpoints : List EndpDesc :=
  ((do
    let cfgIdx ← self.cfgIdx
    let devDesc ← self.devDesc
    let config ← devDesc.configDescs[cfgIdx.toNat]?
    return config.endpoints) : Option (List EndpDesc)).getD []

def getEndpDesc (endpIdx : U8) : Except Fault (Option EndpDesc) :=
  match self.cfgIdx, self.devDesc with
  | some cfgIdx, some devDesc =>
    match devDesc.configDescs[cfgIdx.toNat]? with
    | some config => findEndp p endpIdx 0 config.endpoints
    | none => .ok none
  | _, _ => .ok none

theorem getEndpDesc_eq (s : PortState) (p : Profile) (endpIdx : U8) :
    s.getEndpDesc p endpIdx = .ok s.endpoints[endpIdx.toNat]? := by
  unfold getEndpDesc endpoints
  cases s.cfgIdx with
  | none => rfl
  | some cfgIdx =>
    cases s.devDesc with
    | none => rfl
    | some devDesc =>
      cases hconfig : devDesc.configDescs[cfgIdx.toNat]? with
      | none => simp [hconfig]
      | some config =>
        have hfind : findEndp p endpIdx (BitVec.ofNat 8 0) config.endpoints = .ok _ :=
          findEndp_eq (zero_le endpIdx.toNat)
        simpa [hconfig] using hfind

/-! ### The endpoint that an operation works on -/

/-- `transfer` and `execute_transfer`, for the endpoint number of a data call. -/
def transferEndp : Except Stop EndpDesc := do
  let endpIdx ← checked (p.sub endpNum 1)
  okOr (← checked (self.getEndpDesc p endpIdx)) .ebadfd

/-- `reset_endpoint` and `set_tr_deque_ptr`. -/
def resetEndp : Except Stop EndpDesc := do
  let endpIdx ← if endpNum = 0 then .error (.errno .eio) else .ok (endpNum - 1)
  okOr (← checked (self.getEndpDesc p endpIdx)) .ebadfd

/-- An endpoint of the first interface of the first configuration. -/
def firstInterfaceEndp (i : Nat) (missing : Errno) : Except Stop EndpDesc := do
  let devDesc ← checked (unwrap self.devDesc)
  let config ← okOr devDesc.configDescs[0]? .eio
  let interface ← okOr config.interfaceDescs[0]? .eio
  okOr interface.endpoints[i]? missing

/-- `get_endp_status`. -/
def statusEndp : Except Stop EndpDesc := do
  let i ← checked (p.sub (endpNum.setWidth 64 : U64) 1)
  self.firstInterfaceEndp i.toNat .ebadfd

/-- `restart_endpoint`. -/
def restartEndp : Except Stop EndpDesc := do
  let i ← checked (p.sub (endpNum.setWidth 64 : U64) 1)
  self.firstInterfaceEndp i.toNat .ebadfd

/-- `endp_direction`: the number is used as an index as it is. -/
def directionEndp : Except Stop EndpDesc :=
  self.firstInterfaceEndp endpNum.toNat .eio

/-- The endpoints of the first interface of the first configuration. -/
def firstEndpoints : List EndpDesc :=
  ((do
    let devDesc ← self.devDesc
    let config ← devDesc.configDescs[0]?
    let interface ← config.interfaceDescs[0]?
    return interface.endpoints) : Option (List EndpDesc)).getD []

end

section Lookups

variable {s : PortState} {p : Profile} {endpNum : U8} {devDesc : DevDesc}

theorem sub_one_toNat (h : endpNum ≠ 0) : (endpNum - 1).toNat = endpNum.toNat - 1 := by
  have hone : (1 : U8).toNat = 1 := rfl
  have hpos : endpNum.toNat ≠ 0 := fun hzero => h (eq_of_toNat_eq hzero)
  rw [toNat_sub_of_le (by rw [le_def]; omega), hone]

theorem sub_one_eq_ok (h : endpNum ≠ 0) : p.sub endpNum 1 = .ok (endpNum - 1) := by
  have hone : (1 : U8).toNat = 1 := rfl
  have hpos : endpNum.toNat ≠ 0 := fun hzero => h (eq_of_toNat_eq hzero)
  refine Profile.sub_eq_ok.mpr ⟨?_, rfl⟩
  rintro ⟨-, hlt⟩
  omega

theorem transferEndp_eq (h : endpNum ≠ 0) :
    s.transferEndp p endpNum = okOr s.endpoints[endpNum.toNat - 1]? .ebadfd := by
  rw [transferEndp, sub_one_eq_ok h, checked_ok, ok_bind, getEndpDesc_eq, checked_ok, ok_bind,
    sub_one_toNat h]

theorem resetEndp_eq (h : endpNum ≠ 0) :
    s.resetEndp p endpNum = okOr s.endpoints[endpNum.toNat - 1]? .ebadfd := by
  simp only [resetEndp, if_neg h, ok_bind, getEndpDesc_eq, checked_ok, sub_one_toNat h]

theorem toOption_okOr {α : Type} {o : Option α} {code : Errno} : (okOr o code).toOption = o := by
  cases o <;> rfl

theorem toOption_firstInterfaceEndp (hdev : s.devDesc = some devDesc) {i : Nat} {missing : Errno} :
    (s.firstInterfaceEndp i missing).toOption = s.firstEndpoints[i]? := by
  unfold firstInterfaceEndp firstEndpoints
  simp only [hdev, unwrap, checked_ok, ok_bind, bind_eq_bind, bind_some]
  cases hconfig : devDesc.configDescs[0]? with
  | none => rfl
  | some config =>
    simp only [okOr, ok_bind, bind_some]
    cases hinterface : config.interfaceDescs[0]? with
    | none => rfl
    | some => exact toOption_okOr

theorem statusEndp_eq (h : endpNum ≠ 0) :
    s.statusEndp p endpNum = s.firstInterfaceEndp (endpNum.toNat - 1) .ebadfd := by
  have hone : (1 : U64).toNat = 1 := rfl
  have hpos : endpNum.toNat ≠ 0 := fun hzero => h (eq_of_toNat_eq hzero)
  have hwide : (endpNum.setWidth 64 : U64).toNat = endpNum.toNat := by
    rw [toNat_setWidth]
    omega
  have hsub : p.sub (endpNum.setWidth 64 : U64) 1 = .ok ((endpNum.setWidth 64 : U64) - 1) := by
    refine Profile.sub_eq_ok.mpr ⟨?_, rfl⟩
    rintro ⟨-, hlt⟩
    omega
  rw [statusEndp, hsub, checked_ok, ok_bind,
    toNat_sub_of_le (by rw [le_def]; omega), hwide, hone]

theorem restartEndp_eq : s.restartEndp p endpNum = s.statusEndp p endpNum := rfl

end Lookups

/-- All operations on an endpoint find the one of that number in the configuration that is
set, or all find none. -/
structure ResolvesAlike (s : PortState) (p : Profile) (endpNum : U8) : Prop where
  transfer : (s.transferEndp p endpNum).toOption = s.endpoints[endpNum.toNat - 1]?
  reset : (s.resetEndp p endpNum).toOption = s.endpoints[endpNum.toNat - 1]?
  status : (s.statusEndp p endpNum).toOption = s.endpoints[endpNum.toNat - 1]?
  restart : (s.restartEndp p endpNum).toOption = s.endpoints[endpNum.toNat - 1]?
  direction : (s.directionEndp endpNum).toOption = s.endpoints[endpNum.toNat - 1]?

/-- **Endpoint numbering.** For every device and every endpoint number, the operations on
an endpoint find the same one exactly if neither the configuration nor the first interface
of the first configuration has so many endpoints, or that interface has the endpoint of
this number both at its place and at the next one. -/
theorem resolvesAlike_iff (p : Profile) {s : PortState} {devDesc : DevDesc}
    (described : s.devDesc = some devDesc) {endpNum : U8} (nonzero : endpNum ≠ 0) :
    s.ResolvesAlike p endpNum ↔
      (s.endpoints.length < endpNum.toNat ∧ s.firstEndpoints.length < endpNum.toNat) ∨
        ∃ endp, s.endpoints[endpNum.toNat - 1]? = some endp ∧
          s.firstEndpoints[endpNum.toNat - 1]? = some endp ∧
          s.firstEndpoints[endpNum.toNat]? = some endp := by
  have hpos : endpNum.toNat ≠ 0 := fun hzero => nonzero (eq_of_toNat_eq hzero)
  have hstatus : (s.statusEndp p endpNum).toOption = s.firstEndpoints[endpNum.toNat - 1]? := by
    rw [statusEndp_eq nonzero, toOption_firstInterfaceEndp described]
  have hdirection : (s.directionEndp endpNum).toOption = s.firstEndpoints[endpNum.toNat]? :=
    toOption_firstInterfaceEndp described
  have halike : s.ResolvesAlike p endpNum ↔
      s.firstEndpoints[endpNum.toNat - 1]? = s.endpoints[endpNum.toNat - 1]? ∧
        s.firstEndpoints[endpNum.toNat]? = s.endpoints[endpNum.toNat - 1]? := by
    rw [← hstatus, ← hdirection]
    refine ⟨fun h => ⟨h.status, h.direction⟩, fun ⟨status, direction⟩ =>
      ⟨?_, ?_, status, restartEndp_eq ▸ status, direction⟩⟩
    · rw [transferEndp_eq nonzero, toOption_okOr]
    · rw [resetEndp_eq nonzero, toOption_okOr]
  rw [halike]
  cases hendp : s.endpoints[endpNum.toNat - 1]? with
  | none =>
    rw [List.getElem?_eq_none_iff] at hendp
    simp only [List.getElem?_eq_none_iff, reduceCtorEq, false_and, exists_false, or_false]
    omega
  | some endp =>
    obtain ⟨hlt, -⟩ := List.getElem?_eq_some_iff.mp hendp
    constructor
    · rintro ⟨hplace, hnext⟩
      exact .inr ⟨endp, rfl, hplace, hnext⟩
    · rintro (⟨hfew, -⟩ | ⟨endp', ⟨⟩, hplace, hnext⟩)
      · omega
      · exact ⟨hplace, hnext⟩

end PortState

/-! ### Devices -/

section Devices

def bulkIn : EndpDesc := ⟨5, 0x81, 2, 512, 0, none, none⟩

def bulkOut : EndpDesc := ⟨5, 0x02, 2, 512, 0, none, none⟩

def interruptIn : EndpDesc := ⟨5, 0x83, 3, 8, 10, none, none⟩

/-- A port whose device has one configuration, which is set, with these endpoints in its
interfaces. -/
def portWith (interfaces : List (List EndpDesc)) : PortState where
  slot := 1
  cfgIdx := some 0
  inputContext := ⟨0, 0, 0, 0, Vector.replicate 31 default⟩
  devDesc := some ⟨1, 0x0200, 0, 0, 0, 64, 0, 0, 0, none, none, none,
    [⟨2, 1, none, 0x80, 50, interfaces.map fun endpoints =>
      ⟨4, 0, 0, 8, 6, 80, none, endpoints, []⟩⟩]⟩
  endpointStates := fun _ => none

theorem twoAlike_resolves : (portWith [[interruptIn, interruptIn]]).ResolvesAlike .debug 1 :=
  (PortState.resolvesAlike_iff .debug rfl (by decide)).mpr
    (.inr ⟨interruptIn, rfl, rfl, rfl⟩)

/-- The first endpoint of a storage device is its bulk input, and `endp_direction` looks at
its bulk output. The endpoint of the second interface of a composite device can be used for
transfers, and its status cannot be read. -/
theorem lookups_disagree : (portWith [[bulkIn, bulkOut]]).transferEndp .debug 1 = .ok bulkIn ∧
      (portWith [[bulkIn, bulkOut]]).directionEndp 1 = .ok bulkOut ∧
      bulkIn.direction = .in_ ∧ bulkOut.direction = .out ∧
      (portWith [[interruptIn], [bulkOut]]).transferEndp .debug 2 = .ok bulkOut ∧
      (portWith [[interruptIn], [bulkOut]]).statusEndp .debug 2 = .error (.errno .ebadfd) ∧
      (portWith [[interruptIn], [bulkOut]]).restartEndp .debug 2 = .error (.errno .ebadfd) :=
  ⟨rfl, rfl, rfl, rfl, rfl, rfl, rfl⟩

end Devices

end Scheme

end RedoxDrivers.Xhci
