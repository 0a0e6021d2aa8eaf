import RedoxDrivers.Lib.Rust

/-!
Transfer request blocks (`xhcid/src/xhci/trb.rs`): the four words that driver and
controller exchange through rings, with the fields that the ring and the event
reactor read and write.

A TRB's type and completion code are bytes that may hold values outside the
source's enumerations; the enumerations name the known ones.
-/

namespace RedoxDrivers.Xhci

open Lib

inductive TrbType where
  | reserved
  | normal | setupStage | dataStage | statusStage | isoch | link | eventData | noOp
  | enableSlot | disableSlot | addressDevice | configureEndpoint | evaluateContext
  | resetEndpoint | stopEndpoint | setTrDequeuePointer | resetDevice | forceEvent
  | negotiateBandwidth | setLatencyToleranceValue | getPortBandwidth | forceHeader | noOpCmd
  | getExtendedProperty | setExtendedProperty | rsv26 | rsv27 | rsv28 | rsv29 | rsv30 | rsv31
  | transfer | commandCompletion | portStatusChange | bandwidthRequest | doorbell
  | hostController | deviceNotification | mfindexWrap
deriving DecidableEq, Repr

/-- `self as u8`: the variants are numbered from 0. -/
def TrbType.toU8 (self : TrbType) : U8 := BitVec.ofNat 8 self.ctorIdx

inductive TrbCompletionCode where
  | invalid | success | dataBuffer | babbleDetected | usbTransaction | trb | stall | resource
  | bandwidth | noSlotsAvailable | invalidStreamType | slotNotEnabled | endpointNotEnabled
  | shortPacket | ringUnderrun | ringOverrun | vfEventRingFull | parameter | bandwidthOverrun
  | contextState | noPingResponse | eventRingFull | incompatibleDevice | missedService
  | commandRingStopped | commandAborted | stopped | stoppedLengthInvalid | stoppedShortPacket
  | maxExitLatencyTooLarge | rsv30 | isochBuffer | eventLost | undefined | invalidStreamId
  | secondaryBandwidth | splitTransaction
deriving DecidableEq, Repr

/-- `self as u8`: the values are those of the variants' positions. -/
def TrbCompletionCode.toU8 (self : TrbCompletionCode) : U8 := BitVec.ofNat 8 self.ctorIdx

inductive TransferKind where
  | noData | reserved | out | «in»
deriving DecidableEq, Repr

/-- `self as u32`. -/
def TransferKind.toU32 (self : TransferKind) : U32 := BitVec.ofNat 32 self.ctorIdx

structure Trb where
  dataLow : U32
  dataHigh : U32
  status : U32
  control : U32
deriving DecidableEq, Repr

namespace Trb

def zeroed : Trb := ⟨0, 0, 0, 0⟩

/-- The words written by the method `set`, whatever the TRB held before. -/
def set (data : U64) (status control : U32) : Trb :=
  ⟨data.setWidth 32, (data >>> 32).setWidth 32, status, control⟩

/-- A flag as bit 0 of a control word. -/
def bit (b : Bool) : U32 := if b then 1 else 0

/-- The words written by the method `reserved`. -/
def reserved (cycle : Bool) : Trb :=
  set 0 0 (TrbType.reserved.toU8.setWidth 32 <<< 10 ||| bit cycle)

/-- The words written by the method `link`. -/
def link (address : U64) (toggle cycle : Bool) : Trb :=
  set address 0 (TrbType.link.toU8.setWidth 32 <<< 10 ||| bit toggle <<< 1 ||| bit cycle)

/-- The words written by the method `no_op_cmd`. -/
def noOpCmd (cycle : Bool) : Trb := set 0 0 (TrbType.noOpCmd.toU8.setWidth 32 <<< 10 ||| bit cycle)

/-- The words written by the method `setup`. -/
def setup (setup : U64) (transfer : TransferKind) (cycle : Bool) : Trb :=
  set setup 8 (transfer.toU32 <<< 16 ||| TrbType.setupStage.toU8.setWidth 32 <<< 10 |||
    1 <<< 6 ||| bit cycle)

/-- The words written by the method `status`. -/
def statusStage (interrupter : U16) (input ioc ch ent cycle : Bool) : Trb :=
  set 0 (interrupter.setWidth 32 <<< 22) (bit input <<< 16 |||
    TrbType.statusStage.toU8.setWidth 32 <<< 10 ||| bit ioc <<< 5 ||| bit ch <<< 4 |||
    bit ent <<< 1 ||| bit cycle)

/-- The words written by the method `normal`. The assertion that `estimatedTdSize` has five bits
holds at its call. -/
def normal (buffer : U64) (len : U32) (cycle : Bool) (estimatedTdSize interrupter : U8)
    (ent isp chain ioc idt bei : Bool) : Trb :=
  set buffer (len ||| estimatedTdSize.setWidth 32 <<< 17 ||| interrupter.setWidth 32 <<< 22)
    (bit cycle ||| bit ent <<< 1 ||| bit isp <<< 2 ||| bit chain <<< 4 ||| bit ioc <<< 5 |||
      bit idt <<< 6 ||| bit bei <<< 9 ||| TrbType.normal.toU8.setWidth 32 <<< 10)

/-- The words written by the method `transfer_no_op`. -/
def transferNoOp (interrupter : U8) (ent ch ioc cycle : Bool) : Trb :=
  set 0 (interrupter.setWidth 32 <<< 22) (TrbType.noOp.toU8.setWidth 32 <<< 10 |||
    bit ioc <<< 5 ||| bit ch <<< 4 ||| bit ent <<< 1 ||| bit cycle)

section

variable (self : Trb)

def readData : U64 := self.dataLow.setWidth 64 ||| self.dataHigh.setWidth 64 <<< 32

def completionCode : U8 := (self.status >>> 24).setWidth 8

def transferLength : U32 := self.status &&& 0x00FFFFFF

def trbType : U8 := ((self.control &&& 0xFC00) >>> 10).setWidth 8

def cycle : Bool := self.control &&& 1 == 1

def hasCompletionTrbPointer : Bool :=
  if self.completionCode = TrbCompletionCode.ringUnderrun.toU8 ∨
      self.completionCode = TrbCompletionCode.ringOverrun.toU8 then false
  else if self.completionCode = TrbCompletionCode.vfEventRingFull.toU8 then false
  else true

/-- The debug assertion on the type holds at each call. -/
def completionTrbPointer : Option U64 :=
  if self.hasCompletionTrbPointer then some self.readData else none

/-- The debug assertion on the type holds at each call. -/
def transferEventTrbPointer : Option U64 :=
  if self.hasCompletionTrbPointer then some self.readData else none

/-- The debug assertion on the type holds at each call. -/
def portStatusChangePortId : Option U8 :=
  if self.hasCompletionTrbPointer then some ((self.readData >>> 24 &&& 0xFF).setWidth 8) else none

def isCommandTrb : Bool :=
  [TrbType.noOpCmd, .enableSlot, .disableSlot, .addressDevice, .configureEndpoint,
    .evaluateContext, .resetEndpoint, .stopEndpoint, .setTrDequeuePointer, .resetDevice,
    .forceEvent, .negotiateBandwidth, .setLatencyToleranceValue, .getPortBandwidth, .forceHeader,
    .getExtendedProperty, .setExtendedProperty].any (·.toU8 == self.trbType)

def isTransferTrb : Bool :=
  [TrbType.normal, .setupStage, .dataStage, .statusStage, .isoch, .noOp].any
    (·.toU8 == self.trbType)

end

/-! ### The words read back -/

section

variable (data : U64) (status control : U32)

include data status control

@[simp] theorem readData_set : (set data status control).readData = data := by
  ext i hi
  simp [set, readData]
  grind

@[simp] theorem set_control : (set data status control).control = control := rfl

@[simp] theorem set_status : (set data status control).status = status := rfl

end

section

variable (address : U64) (toggle cycle : Bool)

include address toggle cycle

@[simp] theorem readData_link : (link address toggle cycle).readData = address := readData_set _ _ _

@[simp] theorem trbType_link : (link address toggle cycle).trbType = TrbType.link.toU8 := by
  simp only [trbType, link, set_control]
  revert toggle cycle
  decide

@[simp] theorem cycle_link : (link address toggle cycle).cycle = cycle := by
  simp only [Trb.cycle, link, set_control]
  revert toggle cycle
  decide

end

theorem toggle_link (address : U64) (cycle : Bool) :
    (link address true cycle).control &&& 2 = 2 := by
  simp only [link, set_control]
  revert cycle
  decide

/-- The completion code is the top byte of the status word. -/
@[simp] theorem completionCode_set (data : U64) (code : U8) (control : U32) :
    (set data (code.setWidth 32 <<< 24) control).completionCode = code := by
  simp only [completionCode, set_status]
  ext i hi
  grind

@[simp] theorem completionCode_reserved (cycle : Bool) :
    (reserved cycle).completionCode = TrbCompletionCode.invalid.toU8 := by
  cases cycle <;> rfl

end Trb

end RedoxDrivers.Xhci
