import RedoxDrivers.Lib.Act
import RedoxDrivers.Xhci.EndpointIf

/-!
How `usbscsid` gets a command to the device: the `Protocol` trait, and its only implementation,
the bulk-only transport (`usbscsid/src/protocol/mod.rs` and `bot.rs`).

The device and the bus are a `Bus`: whatever they answer to the transfers on the two bulk
endpoints and to the control requests, depending on a state of their own. A transfer of `n` bytes
moves at most `n`, and ends in any of the ways that `xhcid` reports. `xhcid` turns down a transfer
of no bytes and one whose length does not fit in 32 bits; a transfer that is reported as a success
with bytes missing is left open, and its client gets no transfer result.

A command is a command block wrapper (CBW), a data phase and a command status wrapper (CSW).
-/

namespace RedoxDrivers.Usbscsi

open Lib Lib.Endian Try
open Xhci (PortTransferStatusKind PortTransferStatus XhciEndpCtlRes EndpointStatus
  PortReqTy PortReqRecipient PortReqDirection)

inductive XhciClientHandleError where
  | ioError (code : Errno)
  | serializationError
  | invalidResponse (text : String)
deriving DecidableEq, Repr

inductive ProtocolError where
  | tooLargeCommandBlock (len : Nat)
  | xhciError (error : XhciClientHandleError)
  | recoveryFailed
  | protocolError (text : String)
deriving DecidableEq, Repr

abbrev NonZeroU32 := { r : U32 // r ≠ 0 }

def NonZeroU32.new (r : U32) : Option NonZeroU32 := if h : r ≠ 0 then some ⟨r, h⟩ else none

theorem NonZeroU32.new_of_ne {r : U32} (h : r ≠ 0) : NonZeroU32.new r = some ⟨r, h⟩ := dif_pos h

inductive SendCommandStatusKind where
  | success
  | failed
deriving DecidableEq, Repr

structure SendCommandStatus where
  residue : Option NonZeroU32
  kind : SendCommandStatusKind
deriving DecidableEq, Repr

/-- `self.residue.map(u32::from).unwrap_or(0)`. -/
def SendCommandStatus.missing (status : SendCommandStatus) : U32 := (status.residue.map (·.1)).getD 0

def SendCommandStatus.bytesTransferred (p : Profile) (status : SendCommandStatus)
    (transferLen : U32) : Except Fault U32 :=
  p.sub transferLen status.missing

inductive DeviceReqData where
  | in_ (buffer : List U8)
  | out (buffer : List U8)
  | noData
deriving DecidableEq, Repr

namespace DeviceReqData

/-- The buffer that is lent to the call. -/
def buffer : DeviceReqData → List U8
  | .in_ buffer => buffer
  | .out buffer => buffer
  | .noData => []

def len (data : DeviceReqData) : Nat := data.buffer.length

def direction : DeviceReqData → PortReqDirection
  | .in_ _ => .deviceToHost
  | .out _ => .hostToDevice
  | .noData => .hostToDevice

end DeviceReqData

/-- A slice or an array of `n` bytes. -/
abbrev Buf (n : Nat) := { bytes : List U8 // bytes.length = n }

/-- A transport for commands. A call returns its result, the buffer that was lent to it and the
state of the transport. -/
structure Protocol (τ : Type) where
  sendCommand : List U8 → (data : DeviceReqData) → τ →
    Except Stop (Except ProtocolError SendCommandStatus) × Buf data.len × τ

/-! ### The bulk endpoints -/

inductive Endp where
  | in_
  | out
deriving DecidableEq, Repr

/-- How a transfer of `n` bytes went. -/
structure Transfer (n : Nat) where
  kind : PortTransferStatusKind
  count : Nat
  count_le : count ≤ n

/-- The same for one to the host. The first `count` bytes of the buffer then are those that the
device sent. -/
structure Received (n : Nat) extends Transfer n where
  bytes : Buf n

/-- A device on a bus. -/
structure Bus (σ : Type) where
  write : (buf : List U8) → σ → Except XhciClientHandleError (Transfer buf.length) × σ
  read : (n : Nat) → σ → Except XhciClientHandleError (Received n) × σ
  status : Endp → σ → Except XhciClientHandleError EndpointStatus × σ
  reset : Endp → Bool → σ → Except XhciClientHandleError Unit × σ
  deviceRequest : PortReqTy → PortReqRecipient → U8 → U16 → U16 → σ →
    Except XhciClientHandleError Unit × σ

/-- Whether `xhcid` turns down the transfer of a buffer: the length that is announced is a `u32`,
and no transfer may be empty. -/
def turnedDown (len : Nat) : Prop := (BitVec.ofNat 32 len).toNat < len ∨ len = 0

instance (len : Nat) : Decidable (turnedDown len) := inferInstanceAs (Decidable (_ ∨ _))

namespace Transfer

variable {n : Nat}

/-- What `xhcid` answers when it is asked for the result of the transfer. -/
def ctlRes (t : Transfer n) : XhciEndpCtlRes :=
  if t.kind = .success ∧ t.count ≠ n then .pending
  else .transferResult ⟨t.kind, .ofNat 32 t.count⟩

/-- The end of `generic_transfer`. -/
def result (t : Transfer n) : Except XhciClientHandleError PortTransferStatus :=
  match t.ctlRes with
  | .transferResult status =>
    if status.kind = .success ∧ t.count ≠ (BitVec.ofNat 32 n).toNat then
      .error (.invalidResponse "no short packet, but fewer bytes were read/written")
    else .ok status
  | _ => .error (.invalidResponse "expected transfer result")

end Transfer

/-! ### Wrappers -/

def CBW_SIGNATURE : U32 := 0x43425355
def CBW_FLAGS_DIRECTION_SHIFT : Nat := 7

structure CommandBlockWrapper where
  signature : U32
  tag : U32
  dataTransferLen : U32
  flags : U8
  lun : U8
  cbLen : U8
  commandBlock : List U8
deriving DecidableEq, Repr

namespace CommandBlockWrapper

/-- The wrapper of a command block of at most 16 bytes. -/
def wrap (tag dataTransferLen : U32) (direction : PortReqDirection) (lun : U8) (cb : List U8) :
    CommandBlockWrapper where
  signature := CBW_SIGNATURE
  tag
  dataTransferLen
  flags := (match direction with
    | .hostToDevice => 0
    | .deviceToHost => 1) <<< CBW_FLAGS_DIRECTION_SHIFT
  lun
  cbLen := .ofNat 8 cb.length
  commandBlock := cb ++ List.replicate (16 - cb.length) 0

def new (tag dataTransferLen : U32) (direction : PortReqDirection) (lun : U8) (cb : List U8) :
    Except ProtocolError CommandBlockWrapper :=
  if 16 < cb.length then .error (.tooLargeCommandBlock cb.length)
  else .ok (wrap tag dataTransferLen direction lun cb)

/-- The wrapper in memory. -/
def bytes (cbw : CommandBlockWrapper) : List U8 :=
  leBytes 4 cbw.signature.toNat ++ (leBytes 4 cbw.tag.toNat ++
    (leBytes 4 cbw.dataTransferLen.toNat ++ ([cbw.flags, cbw.lun, cbw.cbLen] ++ cbw.commandBlock)))

end CommandBlockWrapper

def CSW_SIGNATURE : U32 := 0x53425355

structure CommandStatusWrapper where
  signature : U32
  tag : U32
  dataResidue : U32
  status : U8
deriving DecidableEq, Repr

namespace CommandStatusWrapper

/-- `plain::from_bytes`, of 13 bytes. -/
def ofBytes (bytes : List U8) : CommandStatusWrapper where
  signature := .ofNat 32 (ofLe (field bytes 0 4))
  tag := .ofNat 32 (ofLe (field bytes 4 4))
  dataResidue := .ofNat 32 (ofLe (field bytes 8 4))
  status := .ofNat 8 (ofLe (field bytes 12 1))

def isValid (csw : CommandStatusWrapper) : Prop := csw.signature = CSW_SIGNATURE

instance (csw : CommandStatusWrapper) : Decidable csw.isValid := inferInstanceAs (Decidable (_ = _))

end CommandStatusWrapper

def CswStatus.passed : U8 := 0
def CswStatus.failed : U8 := 1

/-! ### The bulk-only transport -/

structure BulkOnlyTransport (σ : Type) where
  bus : σ
  bulkInNum : U8
  bulkOutNum : U8
  currentTag : U32
  interfaceNum : U8

/-- A call of `send_command`: the transport, and the buffer that the caller has lent. -/
structure Exchange (σ : Type) (n : Nat) where
  transport : BulkOnlyTransport σ
  buffer : Buf n

namespace Exchange

variable {σ : Type} {n : Nat}

/-- The exchange with another state of the bus. -/
def onBus (s : Exchange σ n) (bus : σ) : Exchange σ n := { s with transport.bus := bus }

end Exchange

/-- The parts of `send_command`. -/
abbrev Step (σ : Type) (n : Nat) (α : Type) := Try ProtocolError (Exchange σ n) α

namespace BulkOnlyTransport

variable {σ : Type} {n : Nat} (bus : Bus σ)

/-- A request to `xhcid`. -/
def ask {α : Type} (f : σ → Except XhciClientHandleError α × σ) : Step σ n α := fun s =>
  (.ok ((f s.transport.bus).1.mapError .xhciError), s.onBus (f s.transport.bus).2)

def transferWrite (buf : List U8) : Step σ n PortTransferStatus := do
  if turnedDown buf.length then ofExcept (.error (.xhciError (.ioError .einval)))
  else
    let t ← ask (bus.write buf)
    ofExcept (t.result.mapError .xhciError)

/-- The buffer is written to although the result may be an error. -/
def transferRead : Step σ n PortTransferStatus := do
  if turnedDown n then ofExcept (.error (.xhciError (.ioError .einval)))
  else
    let t ← ask (bus.read n)
    modify fun s => { s with buffer := t.bytes }
    ofExcept (t.result.mapError .xhciError)

def FEATURE_ENDPOINT_HALT : U16 := 0

/-- `XhciClientHandle::clear_feature`. -/
def clearFeature (recipient : PortReqRecipient) (index featureSel : U16) : Step σ n Unit :=
  ask (bus.deviceRequest .standard recipient 0x01 featureSel index)

/-- `clear_stall_in` and `clear_stall_out`. -/
def clearStall (endp : Endp) (num : BulkOnlyTransport σ → U8) : Step σ n Unit := do
  if (← ask (bus.status endp)) = .halted then
    ask (bus.reset endp false)
    let num ← read fun s => num s.transport
    clearFeature bus .endpoint (num.setWidth 16) FEATURE_ENDPOINT_HALT
  else return ()

def clearStallIn : Step σ n Unit := clearStall bus .in_ bulkInNum

def clearStallOut : Step σ n Unit := clearStall bus .out bulkOutNum

def bulkOnlyMassStorageReset (ifNum : U16) : Step σ n Unit :=
  ask (bus.deviceRequest .class_ .interface 0xFF 0 ifNum)

/-- The condition of the `if`s that look at both endpoints. -/
def anyHalted : Step σ n Bool := do
  if (← ask (bus.status .in_)) = .halted then return true
  else return (← ask (bus.status .out)) = .halted

def resetRecovery : Step σ n Unit := do
  let interfaceNum ← read fun s => s.transport.interfaceNum
  bulkOnlyMassStorageReset bus (interfaceNum.setWidth 16)
  clearStallIn bus
  clearStallOut bus
  if ← anyHalted bus then ofExcept (.error .recoveryFailed) else return ()

/-- What is done about a stall before the CSW is read again. -/
def recover (already : Bool) : Step σ n Unit := do
  if already then resetRecovery bus
  clearStallIn bus

/-- The CSW and how its transfer went. It has a buffer of its own. A device may stall as often as
it likes; `depth` bounds the recursion. -/
def readCswRaw : Nat → Bool → Step σ n (Received 13)
  | 0, _ => panic .diverges
  | depth + 1, already => do
    let t ← ask (bus.read 13)
    let status ← ofExcept (t.result.mapError .xhciError)
    if status.kind = .stalled then
      recover bus already
      readCswRaw depth true
    else if status.kind = .shortPacket ∧ status.bytesTransferred ≠ 13 then panic .assertFailed
    else return t

/-- What the end of a data transfer says about the bytes that are missing. -/
def earlyResidue (status : PortTransferStatus) : Step σ n (Option NonZeroU32) :=
  match status.kind with
  | .success => pure none
  | .shortPacket => pure (NonZeroU32.new status.bytesTransferred)
  | .stalled => panic .assertFailed
  | .unknown => ofExcept (.error (.xhciError (.invalidResponse "unknown transfer status")))

/-- The data phase. -/
def transferData : (data : DeviceReqData) → Step σ data.len (Option NonZeroU32)
  | .in_ _ => do
    let status ← transferRead bus
    earlyResidue status
  | .out buffer => do
    let status ← transferWrite bus buffer
    earlyResidue status
  | .noData => pure none

/-- The CBW is sent, with the next tag. -/
def sendCbw (p : Profile) (cb : List U8) (data : DeviceReqData) : Step σ n CommandBlockWrapper := do
  let currentTag ← read fun s => s.transport.currentTag
  let tag ← checked (p.add currentTag 1)
  modify fun s => { s with transport.currentTag := tag }
  let cbw ← ofExcept (CommandBlockWrapper.new tag (.ofNat 32 data.len) data.direction 0 cb)
  let status ← transferWrite bus cbw.bytes
  if status.kind = .stalled then panic .assertFailed
  else if status.bytesTransferred ≠ 31 then panic .assertFailed
  else return cbw

/-- What is made of the CSW. -/
def conclude (cbw : CommandBlockWrapper) (earlyResidue : Option NonZeroU32)
    (csw : CommandStatusWrapper) : Step σ n SendCommandStatus := do
  let residue := earlyResidue.or (NonZeroU32.new csw.dataResidue)
  if ¬ csw.isValid ∨ csw.tag ≠ cbw.tag then
    resetRecovery bus
    if ← anyHalted bus then
      ofExcept (.error (.protocolError "Reset Recovery didn't reset endpoints"))
    else ofExcept (.error (.protocolError "CSW invalid, but a recover was successful"))
  else if csw.status = CswStatus.passed then return ⟨residue, .success⟩
  else if csw.status = CswStatus.failed then return ⟨residue, .failed⟩
  else ofExcept (.error (.protocolError "bulk-only transport phase error, or other"))

def exchange (p : Profile) (depth : Nat) (cb : List U8) (data : DeviceReqData) :
    Step σ data.len SendCommandStatus := do
  let cbw ← sendCbw bus p cb data
  let early ← transferData bus data
  let t ← readCswRaw bus depth false
  conclude bus cbw early (.ofBytes t.bytes.1)

def protocol (p : Profile) (depth : Nat) : Protocol (BulkOnlyTransport σ) where
  sendCommand cb data transport :=
    let call := exchange bus p depth cb data ⟨transport, data.buffer, rfl⟩
    (call.1, call.2.buffer, call.2.transport)

end BulkOnlyTransport

end RedoxDrivers.Usbscsi
