import RedoxDrivers.Usbscsi.Commands
import RedoxDrivers.Usbscsi.Transport

/-!
The SCSI disk of `usbscsid` (`usbscsid/src/scsi/mod.rs`) and the calls of its scheme that read and
write it (`usbscsid/src/scheme.rs`).

Every command is sent together with a slice of one of the two buffers, which is lent to the
transport (`Loan`). The command buffer is left out: what is sent from it is the command that was
built in it just before.
-/

namespace RedoxDrivers.Usbscsi

open Lib Lib.Endian List Nat Try Cmds.ModeParamHeader10
open Try (checked)

inductive ScsiError where
  | protocolError (error : ProtocolError)
  | overflow (text : String)
deriving DecidableEq, Repr

structure Scsi where
  inquiryBuffer : Buf 259
  dataBuffer : List U8
  blockSize : U32
  blockCount : U64
deriving DecidableEq, Repr

/-- The disk and the state of the protocol that is passed to its calls. -/
structure Session (τ : Type) where
  scsi : Scsi
  protocol : τ

abbrev Call (τ α : Type) := Try ScsiError (Session τ) α

/-! ### Slices -/

/-- `Vec::resize`, with zeros. -/
def resize (bytes : List U8) (n : Nat) : List U8 :=
  bytes.take n ++ List.replicate (n - bytes.length) 0

/-- `&bytes[start..stop]`. -/
def slice (bytes : List U8) (start stop : Nat) : Except Fault (List U8) :=
  if start ≤ stop ∧ stop ≤ bytes.length then .ok (field bytes start (stop - start))
  else .error .outOfBounds

/-- `plain::from_bytes(bytes).unwrap()`. -/
def view (size : Nat) (bytes : List U8) : Except Fault (List U8) := unwrap (Plain.fromBytes size bytes)

@[simp] theorem length_resize (bytes : List U8) (n : Nat) : (resize bytes n).length = n := by
  rw [resize, length_append, length_take, length_replicate]
  omega

/-- A buffer whose first bytes were lent and have come back. -/
def Buf.putBack {n m : Nat} (buffer : Buf m) (front : Buf n) (h : n ≤ m) : Buf m :=
  ⟨front.1 ++ buffer.1.drop n, by
    rw [length_append, length_drop, front.2, buffer.2]
    omega⟩

/-- Data for a command, and the disk once the buffer has come back. -/
structure Loan where
  data : DeviceReqData
  back : Buf data.len → Scsi

namespace Scsi

/-- `&mut self.data_buffer[..n]`. -/
def lendData (n : Nat) (scsi : Scsi) : Loan where
  data := .in_ (scsi.dataBuffer.take n)
  back buffer := { scsi with dataBuffer := buffer.1 ++ scsi.dataBuffer.drop n }

/-- `&mut self.inquiry_buffer[..n]`. -/
def lendInquiry (n : Nat) (h : n ≤ 259) (scsi : Scsi) : Loan where
  data := .in_ (scsi.inquiryBuffer.1.take n)
  back buffer := { scsi with
    inquiryBuffer := scsi.inquiryBuffer.putBack ⟨buffer.1, by
      rw [buffer.2, DeviceReqData.len, DeviceReqData.buffer, length_take,
        scsi.inquiryBuffer.2, min_eq_left h]⟩ h }

section Calls

variable {τ : Type} (p : Profile) (protocol : Protocol τ) (scsi : Scsi)

def send (command : List U8) (lend : Scsi → Loan) : Call τ SendCommandStatus := fun s =>
  let reply := protocol.sendCommand command (lend s.scsi).data s.protocol
  (reply.1.map (Except.mapError .protocolError), ⟨(lend s.scsi).back reply.2.1, reply.2.2⟩)

def resizeData (n : Nat) : Call τ Unit :=
  modify fun s => { s with scsi.dataBuffer := resize s.scsi.dataBuffer n }

/-- `copy_from_slice` to the front of the data buffer. -/
def copyData (bytes : List U8) : Call τ Unit :=
  modify fun s => { s with scsi.dataBuffer := bytes ++ s.scsi.dataBuffer.drop bytes.length }

/-! ### Initialisation -/

def MIN_INQUIRY_ALLOC_LEN : U16 := 5

def getStandardInquiryData (maxInquiryLen : U16) : Call τ Unit := do
  if h : maxInquiryLen.toNat ≤ 259 then
    let _ ← send protocol (Cmds.Inquiry.new false 0 maxInquiryLen 0) (lendInquiry _ h)
  else panic .outOfBounds

def resStandardInquiryData : Except Fault (List U8) :=
  view Cmds.StandardInquiryData.size scsi.inquiryBuffer.1

def getInquiryAllocLen : Call τ U16 := do
  getStandardInquiryData protocol MIN_INQUIRY_ALLOC_LEN
  let scsi ← read (·.scsi)
  let data ← checked scsi.resStandardInquiryData
  checked (p.add 4 ((Cmds.StandardInquiryData.additionalLen data).setWidth 16))

def getFfSense (allocLen : U8) : Call τ Unit := do
  resizeData allocLen.toNat
  let _ ← send protocol (Cmds.RequestSense.new false allocLen 0) (lendData allocLen.toNat)

def resFfSenseData : Except Fault (List U8) :=
  view Cmds.FixedFormatSenseData.size scsi.dataBuffer

def resReadCapacity10 : Except Fault (List U8) :=
  view Cmds.ReadCapacity10ParamData.size scsi.dataBuffer

def readCapacity : Call τ (List U8) := do
  resizeData 10
  let _ ← send protocol (Cmds.ReadCapacity10.new 0) (lendData 8)
  let scsi ← read (·.scsi)
  checked scsi.resReadCapacity10

def resModeParamHeader10 : Except Fault (List U8) :=
  view size scsi.dataBuffer

/-- The block descriptors. The three kinds differ in nothing but the layout. -/
def resBlkdescMode10 : Except Fault (List Cmds.BlkDesc) := do
  let header ← scsi.resModeParamHeader10
  let descs ← slice scsi.dataBuffer 8 (8 + (blockDescLen header).toNat)
  if longlba header then return (Plain.sliceFromBytes 16 descs).map .long
  else
    let inquiry ← scsi.resStandardInquiryData
    if Cmds.StandardInquiryData.periphDevTy inquiry ≠ 0 ∧
        Cmds.StandardInquiryData.version inquiry = 3 then
      return (Plain.sliceFromBytes 8 descs).map .general
    else return (Plain.sliceFromBytes 8 descs).map .short

/-- The buffer that the iterator over the mode pages starts with. -/
def resModePages10 : Except Fault (List U8) := do
  let header ← scsi.resModeParamHeader10
  slice scsi.dataBuffer (8 + (blockDescLen header).toNat)
    scsi.dataBuffer.length

def getModeSense10 : Call τ (List Cmds.BlkDesc × List U8) := do
  resizeData 8
  let status ← send protocol (Cmds.ModeSense10.getBlockDesc 8 0) (lendData 8)
  if status.kind = .failed then
    getFfSense protocol 252
    let scsi ← read (·.scsi)
    let _ ← checked scsi.resFfSenseData
    panic .assertFailed
  else
    let scsi ← read (·.scsi)
    let header ← checked scsi.resModeParamHeader10
    let optimalAllocLen ← checked (p.add (modeDataLen header) 2)
    resizeData optimalAllocLen.toNat
    let _ ← send protocol (Cmds.ModeSense10.getBlockDesc optimalAllocLen 0)
      (lendData optimalAllocLen.toNat)
    let scsi ← read (·.scsi)
    let _ ← checked scsi.resModeParamHeader10
    let descs ← checked scsi.resBlkdescMode10
    let pages ← checked scsi.resModePages10
    return (descs, pages)

/-- The disk before anything is known of it. -/
def blank : Scsi := ⟨⟨List.replicate 259 0, length_replicate⟩, [], 0, 0⟩

/-- The size and the number of the blocks. -/
def geometry (descs : List Cmds.BlkDesc) : Call τ (U32 × U64) :=
  match descs[0]? with
  | some desc => pure (desc.blockSize, desc.blockCount)
  | none => do
    let r ← readCapacity protocol
    return (Cmds.ReadCapacity10ParamData.logicalBlockLen r,
      (Cmds.ReadCapacity10ParamData.blockCount r).setWidth 64)

/-- `Scsi::new`, on a `blank` disk. -/
def new : Call τ Unit := do
  let maxInquiryLen ← getInquiryAllocLen p protocol
  getStandardInquiryData protocol maxInquiryLen
  let scsi ← read (·.scsi)
  let _ ← checked scsi.resStandardInquiryData
  let (descs, pageBuffer) ← getModeSense10 p protocol
  let _ ← checked (Cmds.pages pageBuffer)
  let (blockSize, blockCount) ← geometry protocol descs
  modify fun s => { s with scsi.blockSize := blockSize, scsi.blockCount := blockCount }

/-! ### Blocks -/

/-- The division by the block size. -/
def blocksOf (len : Nat) (blockSize : U32) : Except Fault Nat :=
  if blockSize = 0 then .error .divideByZero else .ok (len / blockSize.toNat)

/-- `u32::try_from`. -/
def tryFromU32 (n : Nat) (text : String) : Call τ U32 :=
  if n < 2 ^ 32 then pure (.ofNat 32 n) else ofExcept (.error (.overflow text))

/-- The number that is returned, and the buffer of the caller. -/
def read (lba : U64) (buffer : List U8) : Call τ (U32 × List U8) := do
  let scsi ← Try.read (·.scsi)
  let blocksToRead ← checked (blocksOf buffer.length scsi.blockSize)
  let bytesToRead := blocksToRead * scsi.blockSize.toNat
  let transferLen ← tryFromU32 blocksToRead "number of blocks to read couldn't fit inside a u32"
  resizeData bytesToRead
  let status ← send protocol (Cmds.Read16.new lba transferLen 0) (lendData bytesToRead)
  let dataBuffer ← Try.read (·.scsi.dataBuffer)
  let n ← checked (status.bytesTransferred p (.ofNat 32 bytesToRead))
  return (n, dataBuffer.take bytesToRead ++ buffer.drop bytesToRead)

/-- The data is sent from the buffer of the caller, and copied to the other one for nothing. -/
def write (lba : U64) (buffer : List U8) : Call τ U32 := do
  let scsi ← Try.read (·.scsi)
  let blocksToWrite ← checked (blocksOf buffer.length scsi.blockSize)
  let bytesToWrite := blocksToWrite * scsi.blockSize.toNat
  let transferLen ← tryFromU32 blocksToWrite "number of blocks to write couldn't fit inside a u32"
  resizeData bytesToWrite
  copyData (buffer.take bytesToWrite)
  let status ← send protocol (Cmds.Write16.new lba transferLen 0) fun scsi =>
    ⟨.out (buffer.take bytesToWrite), fun _ => scsi⟩
  checked (status.bytesTransferred p (.ofNat 32 bytesToWrite))

end Calls

/-! ### When a block call returns -/

/-- A command and the data that goes with it. -/
structure Request where
  command : List U8
  data : DeviceReqData

/-- The bytes of the whole blocks in a buffer. -/
def bytesIn (scsi : Scsi) (len : Nat) : Nat := len / scsi.blockSize.toNat * scsi.blockSize.toNat

def readRequest (scsi : Scsi) (lba : U64) (len : Nat) : Request where
  command := Cmds.Read16.new lba (.ofNat 32 (len / scsi.blockSize.toNat)) 0
  data := .in_ ((resize scsi.dataBuffer (scsi.bytesIn len)).take (scsi.bytesIn len))

def writeRequest (scsi : Scsi) (lba : U64) (buffer : List U8) : Request where
  command := Cmds.Write16.new lba (.ofNat 32 (buffer.length / scsi.blockSize.toNat)) 0
  data := .out (buffer.take (scsi.bytesIn buffer.length))

section Returns

variable {τ : Type} {p : Profile} {protocol : Protocol τ} {s s' : Session τ} {lba : U64}
  {buffer : List U8} {n : U32}

theorem bytesIn_le (scsi : Scsi) (len : Nat) : scsi.bytesIn len ≤ len := div_mul_le_self _ _

theorem readRequest_len (scsi : Scsi) (lba : U64) (len : Nat) :
    (scsi.readRequest lba len).data.len = scsi.bytesIn len := by
  rw [readRequest, DeviceReqData.len, DeviceReqData.buffer, length_take, length_resize,
    min_self]

theorem writeRequest_len (scsi : Scsi) (lba : U64) (buffer : List U8) :
    (scsi.writeRequest lba buffer).data.len = scsi.bytesIn buffer.length := by
  rw [writeRequest, DeviceReqData.len, DeviceReqData.buffer, length_take]
  exact min_eq_left (scsi.bytesIn_le _)

theorem send_eq_ok {command : List U8} {lend : Scsi → Loan} {status : SendCommandStatus} :
    send protocol command lend s = (.ok (.ok status), s') ↔
      ∃ back state, protocol.sendCommand command (lend s.scsi).data s.protocol =
        (.ok (.ok status), back, state) ∧ ⟨(lend s.scsi).back back, state⟩ = s' := by
  unfold send
  generalize protocol.sendCommand command (lend s.scsi).data s.protocol = reply
  obtain ⟨stop | e | status', back, state⟩ := reply
  · simp [Except.map]
  · simp [Except.map, Except.mapError]
  · constructor
    · intro h
      cases h
      exact ⟨back, state, rfl, rfl⟩
    · rintro ⟨_, _, h, rfl⟩
      cases h
      rfl

theorem blocksOf_eq_ok {len blocks : Nat} {blockSize : U32} :
    blocksOf len blockSize = .ok blocks ↔ blockSize ≠ 0 ∧ len / blockSize.toNat = blocks := by
  unfold blocksOf
  by_cases h : blockSize = 0
  · simp [h]
  · rw [if_neg h, Except.ok.injEq, and_iff_right h]

theorem tryFromU32_eq_ok {m : Nat} {text : String} :
    tryFromU32 m text s = (.ok (.ok n), s') ↔ m < 2 ^ 32 ∧ n = .ofNat 32 m ∧ s = s' := by
  unfold tryFromU32
  by_cases h : m < 2 ^ 32
  · simp only [h, true_and]
    simp [eq_comm]
  · simp only [h, false_and]
    simp

theorem read_eq_ok {buffer' : List U8} :
    read p protocol lba buffer s = (.ok (.ok (n, buffer')), s') ↔
      (s.scsi.blockSize ≠ 0 ∧ buffer.length / s.scsi.blockSize.toNat < 2 ^ 32) ∧
      ∃ status back state, protocol.sendCommand (s.scsi.readRequest lba buffer.length).command
          (s.scsi.readRequest lba buffer.length).data s.protocol = (.ok (.ok status), back, state) ∧
        status.bytesTransferred p (.ofNat 32 (s.scsi.bytesIn buffer.length)) = .ok n ∧
        buffer' = back.1 ++ buffer.drop (s.scsi.bytesIn buffer.length) ∧
        ⟨{ s.scsi with dataBuffer := back.1 }, state⟩ = s' := by
  have hback (back : Buf (s.scsi.readRequest lba buffer.length).data.len) :
      back.1 ++ (resize s.scsi.dataBuffer (s.scsi.bytesIn buffer.length)).drop
        (s.scsi.bytesIn buffer.length) = back.1 := by
    rw [drop_eq_nil_of_le (by rw [length_resize]), append_nil]
  have hfront (back : Buf (s.scsi.readRequest lba buffer.length).data.len) :
      (back.1 ++ (resize s.scsi.dataBuffer (s.scsi.bytesIn buffer.length)).drop
        (s.scsi.bytesIn buffer.length)).take (s.scsi.bytesIn buffer.length) = back.1 := by
    rw [hback]
    exact take_of_length_le (by rw [back.2, readRequest_len])
  simp only [read, resizeData, Try.bind_eq_ok, Try.checked_eq_ok, blocksOf_eq_ok, tryFromU32_eq_ok,
    Try.modify_apply, send_eq_ok, Try.read_apply, Try.pure_apply]
  constructor
  · rintro ⟨_, _, hscsi, _, _, ⟨⟨hsize, rfl⟩, rfl⟩, _, _, ⟨hblocks, rfl, rfl⟩, _, _, hresize, status, _,
      ⟨back, state, hsend, rfl⟩, _, _, hread, n', _, ⟨hn, rfl⟩, h⟩
    cases hscsi
    cases hresize
    cases hread
    cases h
    exact ⟨⟨hsize, hblocks⟩, status, back, state, hsend, hn,
      congrArg (· ++ buffer.drop (s.scsi.bytesIn buffer.length)) (hfront back),
      congrArg (fun bytes => Session.mk { s.scsi with dataBuffer := bytes } state) (hback back).symm⟩
  · rintro ⟨⟨hsize, hblocks⟩, status, back, state, hsend, hn, rfl, rfl⟩
    refine ⟨_, _, rfl, _, _, ⟨⟨hsize, rfl⟩, rfl⟩, _, _, ⟨hblocks, rfl, rfl⟩, _, _, rfl, status, _, ⟨back, state,
      hsend, rfl⟩, _, _, rfl, n, _, ⟨hn, rfl⟩, ?_⟩
    refine Prod.ext (congrArg (fun bytes => Except.ok (Except.ok
      (n, bytes ++ buffer.drop (s.scsi.bytesIn buffer.length)))) (hfront back)) ?_
    exact congrArg (fun bytes => Session.mk { s.scsi with dataBuffer := bytes } state) (hback back)

theorem write_eq_ok : write p protocol lba buffer s = (.ok (.ok n), s') ↔
      (s.scsi.blockSize ≠ 0 ∧ buffer.length / s.scsi.blockSize.toNat < 2 ^ 32) ∧
      ∃ status back state, protocol.sendCommand (s.scsi.writeRequest lba buffer).command
          (s.scsi.writeRequest lba buffer).data s.protocol = (.ok (.ok status), back, state) ∧
        status.bytesTransferred p (.ofNat 32 (s.scsi.bytesIn buffer.length)) = .ok n ∧
        ⟨{ s.scsi with dataBuffer := buffer.take (s.scsi.bytesIn buffer.length) }, state⟩ = s' := by
  have hdrop : (resize s.scsi.dataBuffer (s.scsi.bytesIn buffer.length)).drop
      (buffer.take (s.scsi.bytesIn buffer.length)).length = [] := by
    apply drop_eq_nil_of_le
    rw [length_resize, length_take]
    exact Nat.le_min.mpr ⟨Nat.le_refl _, s.scsi.bytesIn_le _⟩
  have hcopied : buffer.take (s.scsi.bytesIn buffer.length) ++
      (resize s.scsi.dataBuffer (s.scsi.bytesIn buffer.length)).drop
        (buffer.take (s.scsi.bytesIn buffer.length)).length =
      buffer.take (s.scsi.bytesIn buffer.length) := by
    rw [hdrop, append_nil]
  simp only [write, resizeData, copyData, Try.bind_eq_ok, Try.checked_eq_ok, blocksOf_eq_ok,
    tryFromU32_eq_ok, Try.modify_apply, send_eq_ok, Try.read_apply]
  constructor
  · rintro ⟨_, _, hscsi, _, _, ⟨⟨hsize, rfl⟩, rfl⟩, _, _, ⟨hblocks, rfl, rfl⟩, _, _, hresize, _, _, hcopy,
      status, _, ⟨back, state, hsend, rfl⟩, hn, rfl⟩
    cases hscsi
    cases hresize
    cases hcopy
    exact ⟨⟨hsize, hblocks⟩, status, back, state, hsend, hn,
      congrArg (fun bytes => Session.mk { s.scsi with dataBuffer := bytes } state) hcopied.symm⟩
  · rintro ⟨⟨hsize, hblocks⟩, status, back, state, hsend, hn, rfl⟩
    exact ⟨_, _, rfl, _, _, ⟨⟨hsize, rfl⟩, rfl⟩, _, _, ⟨hblocks, rfl, rfl⟩, _, _, rfl, _, _, rfl, status, _,
      ⟨back, state, hsend, rfl⟩, hn,
      congrArg (fun bytes => Session.mk { s.scsi with dataBuffer := bytes } state) hcopied⟩

end Returns

end Scsi

/-! ### The scheme -/

namespace ScsiScheme

/-- The block at `offset`. Both the offset and the length have to be whole blocks. -/
def lbaOf (blockSize : U32) (offset : U64) (len : Nat) : Except Stop U64 :=
  if blockSize = 0 then .error (.panic .divideByZero)
  else if offset.toNat % blockSize.toNat ≠ 0 ∨ len % blockSize.toNat ≠ 0 then
    .error (.errno .einval)
  else .ok (offset / blockSize.setWidth 64)

end ScsiScheme

end RedoxDrivers.Usbscsi
