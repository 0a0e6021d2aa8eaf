import RedoxDrivers.Lib.Guards
import RedoxDrivers.Xhci.Calls
import RedoxDrivers.Xhci.Endpoints
import RedoxDrivers.Xhci.PortReq

/-!
The files of an endpoint (`on_write_endp_ctl`, `on_read_endp_ctl`, `on_write_endp_data`,
`on_read_endp_data` and what they call in `xhcid/src/xhci/scheme.rs`).

A client writes a request to the control file of an endpoint, moves data through its data
file, and reads the result from the control file. Each call looks up the entry of its port in
`port_states` through guards, which are those of `Lib.Guards`.

The two calls on the control file keep the write guard to their end, and call functions that
ask for a guard on the same entry: a reset, a transfer without data and the answer to a
status request never return. `EndpCall.not_blocks_iff` says which calls wait for themselves.
-/

namespace RedoxDrivers.Xhci

open Lib Function Guarded TrbCompletionCode

/-! ### Requests and answers -/

inductive XhciEndpCtlReq where
  | transfer (direction : XhciEndpCtlDirection) (count : U32)
  | reset (noClearFeature : Bool)
  | status
deriving DecidableEq, Repr

inductive EndpointStatus where
  | disabled
  | enabled
  | halted
  | stopped
  | error
deriving DecidableEq, Repr

inductive XhciEndpCtlRes where
  | status (status : EndpointStatus)
  | transferResult (status : PortTransferStatus)
  | pending
  | idle
deriving DecidableEq, Repr

def handleTransferEventTrb (eventTrb : Trb) : Except Stop Unit :=
  if eventTrb.completionCode = success.toU8 ∨
      eventTrb.completionCode = shortPacket.toU8 then .ok ()
  else .error (.errno .eio)

def transferResult (completionCode : U8) (bytesTransferred : U32) : PortTransferStatus where
  kind :=
    if completionCode = success.toU8 then .success
    else if completionCode = shortPacket.toU8 then .shortPacket
    else if completionCode = stall.toU8 then .stalled
    else .unknown
  bytesTransferred

def endpDoorbell (p : Profile) (endpNum : U8) (desc : EndpDesc) (streamId : U16) :
    Except Fault U32 := do
  let dbTarget ← endpNumToDci p endpNum desc
  return streamId.setWidth 32 <<< 16 ||| dbTarget.setWidth 32

namespace Scheme

/-- A buffer for transfers. -/
structure DmaBuffer where
  physical : U64
  bytes : List U8
deriving DecidableEq, Repr

/-- What a call finds, and how the steps of it end that may fail. No event comes if the bus is
silent, and then a call that waits for one does not return. `endpContext` are the first words
of the endpoint contexts, by slot and index. -/
structure EndpOutcomes where
  ac64 : Bool
  endpContext : U8 → Nat → Option U32
  alloc : Except Errno U64
  event : Option (Except Errno Trb)
  bytes : List U8
  resetEndpoint : Except Errno Unit
  setTrDequePtr : Except Errno Unit
  clearFeature : Except Errno Unit

/-- `await` on the event of a transfer. -/
def EndpOutcomes.await (out : EndpOutcomes) : Except Stop Trb :=
  match out.event with
  | some event => propagate event
  | none => .error (.panic .diverges)

abbrev PortCall (α : Type) : Type := Guarded Nat PortState α

/-- The ring that transfers of an endpoint go to: streams use the first one. -/
def RingOrStreams.transferRing : RingOrStreams → Option Ring
  | .ring ring => some ring
  | .streams rings => rings 1

def RingOrStreams.setTransferRing (self : RingOrStreams) (ring : Ring) : RingOrStreams :=
  match self with
  | .ring _ => .ring ring
  | .streams rings => .streams (update rings 1 (some ring))

/-- What a doorbell says about streams. -/
def RingOrStreams.doorbellStream (streamId : U16) : RingOrStreams → U16
  | .ring _ => 0
  | .streams _ => streamId

def PortState.setEndpoint (self : PortState) (endpNum : U8) (state : EndpointState) : PortState :=
  { self with endpointStates := update self.endpointStates endpNum (some state) }

/-- The code in which a write guard on the entry of a port is alive, which needs one of its
endpoints. -/
def withEndpoint {α : Type} (portNum : Nat) (endpNum : U8) (missing : Errno)
    (f : PortState → EndpointState → PortCall α) : PortCall α :=
  getMut portNum missing fun portState => do
    let endpState ← lift (okOr (portState.endpointStates endpNum) missing)
    f portState endpState

/-- `get_endp_desc`, where an endpoint without a descriptor is an error. -/
def PortState.endpDesc (self : PortState) (p : Profile) (endpIdx : U8) : Except Stop EndpDesc := do
  okOr (← checked (self.getEndpDesc p endpIdx)) .ebadfd

section Defs

variable (p : Profile) (out : EndpOutcomes)

section

variable (portNum : Nat) (endpNum endpIdx : U8)

/-! ### Transfers -/

def executeTransfer (streamId : U16) (d : List Store) (last : Store) : PortCall Trb := do
  let endpIdx ← lift (if endpNum = 0 then .error (.errno .eio) else .ok (endpNum - 1))
  getMut portNum .ebadf fun portState => do
    let endpDesc ← lift (portState.endpDesc p endpIdx)
    let _ ← lift (checked (endpDoorbell p endpNum endpDesc streamId))
    let _ ← lift (checked (endpDoorbell p endpNum endpDesc 0))
    let endpState ← lift (okOr (portState.endpointStates endpNum) .ebadf)
    let ring ← lift (okOr (RingOrStreams.transferRing endpState.transfer) .ebadf)
    let (_, ring) ← lift (checked
      (Xhci.executeTransfer out.ac64 ⟨BitVec.ofNat 8 portNum, endpNum, streamId⟩ ring d last))
    store portNum (portState.setEndpoint endpNum
      { endpState with transfer := RingOrStreams.setTransferRing endpState.transfer ring })
  let eventTrb ← lift out.await
  lift (handleTransferEventTrb eventTrb)
  if eventTrb.completionCode ≠ shortPacket.toU8 ∧ eventTrb.transferLength ≠ 0 then
    lift (.error (.errno .eio))
  else return eventTrb

/-- The data of a short output are stored in the TRB itself. -/
def bufferWord (dmaBuf : Option DmaBuffer) (maxPacketSize : U16) (direction : EndpDirection) :
    U64 × Bool :=
  if ((dmaBuf.map fun buf => buf.bytes.length).getD 0) ≤ 8 ∧ 8 ≤ maxPacketSize.toNat ∧
      direction ≠ .in_ then
    match dmaBuf with
    | some buf => ((List.range 8).foldr (fun i word => word <<< 8 |||
        (buf.bytes.getD i 0).setWidth 64) 0, true)
    | none => (0, false)
  else ((dmaBuf.map DmaBuffer.physical).getD 0, false)

def estimatedTdSize (len : Nat) : U8 :=
  let size := (if len % 65536 ≠ 0 then len / 65536 + 1 else len / 65536) * 16
  BitVec.ofNat 8 (min (if size < 256 then size else 0x1F) 0x1F)

/-- The TRBs that the closure of `transfer` stores: all but the last are for 65536 bytes, and
each has the same data pointer. -/
def transferStores (buffer : U64) (idt : Bool) (len : Nat) : List Store × Store :=
  let more := (len - 1) / 65536
  (List.replicate more fun _ cycle =>
      .normal buffer 65536 cycle (estimatedTdSize len) 0 false true true false idt false,
    fun _ cycle => .normal buffer (BitVec.ofNat 32 (len - 65536 * more)) cycle
      (estimatedTdSize len) 0 false true false true idt false)

/-- The direction that the caller names is not looked at. -/
def transfer (dmaBuf : Option DmaBuffer) (_ : PortReqDirection) : PortCall (U8 × U32) := do
  let endpNum ← lift (checked (p.add endpIdx 1))
  let len := (dmaBuf.map fun buf => buf.bytes.length).getD 0
  let (buffer, idt) ← getMut portNum .ebadfd fun portState => do
    let endpDesc ← lift (portState.endpDesc p endpIdx)
    if endpDesc.isIsoch then lift (.error (.errno .enosys))
    else return bufferWord dmaBuf endpDesc.maxPacketSize endpDesc.direction
  let (d, last) := transferStores buffer idt len
  let event ← executeTransfer p out portNum endpNum 1 d last
  let bytesTransferred ← match dmaBuf with
    | some _ => lift (checked (p.sub (BitVec.ofNat 32 len) event.transferLength))
    | none => pure 0
  return (event.completionCode, bytesTransferred)

def transferRead (bufLen : Nat) : PortCall (U8 × U32 × List U8) := do
  if bufLen = 0 then lift (.error (.errno .einval))
  else
    let physical ← lift (propagate out.alloc)
    let buffer : DmaBuffer := ⟨physical, List.replicate bufLen 0⟩
    let (completionCode, bytesTransferred) ←
      transfer p out portNum endpIdx (some buffer) .deviceToHost
    return (completionCode, bytesTransferred, fill buffer.bytes out.bytes)

def transferWrite (sbuf : List U8) : PortCall (U8 × U32) := do
  if sbuf.length = 0 then lift (.error (.errno .einval))
  else
    let physical ← lift (propagate out.alloc)
    transfer p out portNum endpIdx (some ⟨physical, sbuf⟩) .hostToDevice

/-! ### Status and reset -/

def getEndpStatus : PortCall EndpointStatus :=
  get portNum .ebadfd fun portState => do
    let endpDesc ← lift (portState.statusEndp p endpNum)
    let endpNumXhc ← if endpNum ≠ 0 then lift (checked (endpNumToDci p endpNum endpDesc))
      else pure 1
    let i ← lift (checked (p.sub (endpNumXhc.setWidth 64 : U64) 1))
    let raw ← lift (okOr (out.endpContext portState.slot i.toNat) .ebadfd)
    match (raw &&& 0x7).toNat with
    | 0 => return .disabled
    | 1 => return .enabled
    | 2 => return .halted
    | 3 => return .stopped
    | 4 => return .error
    | _ => lift (.error (.errno .eio))

def resetEndpoint : PortCall Unit := do
  let endpIdx ← lift (if endpNum = 0 then .error (.errno .eio) else .ok (endpNum - 1))
  get portNum .ebadfd fun portState => do
    let endpDesc ← lift (portState.endpDesc p endpIdx)
    let _ ← lift (checked (endpNumToDci p endpNum endpDesc))
    let _ ← get portNum .ebadf fun portState => pure portState.slot
    lift (propagate out.resetEndpoint)

def setTrDequePtr : PortCall Unit := do
  let endpIdx ← lift (if endpNum = 0 then .error (.errno .eio) else .ok (endpNum - 1))
  get portNum .ebadfd fun portState => do
    let endpDesc ← lift (portState.endpDesc p endpIdx)
    let _ ← lift (checked (endpNumToDci p endpNum endpDesc))
    lift (propagate out.setTrDequePtr)

/-- The write guard is alive when `set_tr_deque_ptr` is called. -/
def restartEndpoint : PortCall Unit :=
  withEndpoint portNum endpNum .ebadfd fun portState endpState => do
    let ring ← lift (okOr (RingOrStreams.transferRing endpState.transfer) .ebadfd)
    let (_, ring) ← lift (checked
      (ring.enqueue fun _ cycle => .transferNoOp 0 false false false cycle))
    store portNum (portState.setEndpoint endpNum
      { endpState with transfer := RingOrStreams.setTransferRing endpState.transfer ring })
    let endpDesc ← lift (portState.restartEndp p endpNum)
    let _ ← if endpNum ≠ 0 then
        lift (checked (endpDoorbell p endpNum endpDesc
          (RingOrStreams.doorbellStream 1 endpState.transfer)))
      else pure 1
    setTrDequePtr p out portNum endpNum

/-- CLEAR_FEATURE is sent on the control endpoint; no guard is alive while its event is
awaited. -/
def clearFeature : PortCall Unit := do
  getMut portNum .ebadf fun portState => do
    let endpState ← lift (okOr (portState.endpointStates 0) .eio)
    let ring ← match endpState.transfer with
      | .ring ring => pure ring
      | .streams _ => lift (.error (.errno .eio))
    let (_, ring) ← lift (checked (executeControlTransfer out.ac64
      (BitVec.ofNat 8 portNum) ring 0x0102 .noData [] (fun trb _ => trb)))
    store portNum (portState.setEndpoint 0 { endpState with transfer := .ring ring })
  lift (propagate out.clearFeature)

def onReqResetDevice (clear : Bool) : PortCall Unit := do
  let status ← getEndpStatus p out portNum endpNum
  if status ≠ .halted then lift (.error (.errno .eproto))
  else
    resetEndpoint p out portNum endpNum
    restartEndpoint p out portNum endpNum
    if clear then clearFeature out portNum else return ()

end

/-! ### The control file -/

variable (fromSlice : List U8 → Option XhciEndpCtlReq) (toVec : XhciEndpCtlRes → List U8)

section

variable (portNum : Nat) (endpNum : U8)

/-- The interface state of an endpoint is written through a guard. -/
def setIfState (portState : PortState) (endpState : EndpointState)
    (state : EndpIfState) : PortCall Unit :=
  store portNum (portState.setEndpoint endpNum { endpState with driverIfState := state })

/-- The `match` of `on_write_endp_ctl`, on the entry that its guard is for. -/
def onEndpCtlReq (portState : PortState) (endpState : EndpointState)
    (req : XhciEndpCtlReq) : PortCall Unit :=
  match req, endpState.driverIfState with
  | .status, .init => setIfState portNum endpNum portState endpState .waitingForStatus
  | .reset noClearFeature, .init => onReqResetDevice p out portNum endpNum (!noClearFeature)
  | .transfer .noData _, .init => do
    let endpIdx ← lift (checked (p.sub endpNum 1))
    let (completionCode, bytesTransferred) ← transfer p out portNum endpIdx none .deviceToHost
    if 0 < bytesTransferred.toNat then lift (.error (.errno .eio))
    else
      withEndpoint portNum endpNum .ebadf fun portState endpState =>
        setIfState portNum endpNum portState endpState
          (.waitingForTransferResult (transferResult completionCode 0))
  | .transfer direction count, .init =>
    setIfState portNum endpNum portState endpState (.waitingForDataPipe direction 0 count)
  | _, _ => lift (.error (.errno .ebadf))

/-- The write guard is alive to the end. -/
def onWriteEndpCtl (buf : List U8) : PortCall Nat :=
  withEndpoint portNum endpNum .ebadf fun portState endpState => do
    let req ← lift (okOr (fromSlice buf) .ebadmsg)
    onEndpCtlReq p out portNum endpNum portState endpState req
    return buf.length

/-- The `match` of `on_read_endp_ctl`. -/
def endpCtlRes (portState : PortState) (endpState : EndpointState) : PortCall XhciEndpCtlRes :=
  match endpState.driverIfState with
  | .init => pure .idle
  | .waitingForStatus => do
    setIfState portNum endpNum portState endpState .init
    return .status (← getEndpStatus p out portNum endpNum)
  | .waitingForDataPipe _ _ _ => pure .pending
  | .waitingForTransferResult status => do
    setIfState portNum endpNum portState endpState .init
    return .transferResult status

/-- What is written to the buffer of the client. The write guard is alive to the end. -/
def onReadEndpCtl (bufLen : Nat) : PortCall (List U8) :=
  withEndpoint portNum endpNum .ebadf fun portState endpState => do
    let res ← endpCtlRes p out portNum endpNum portState endpState
    if bufLen < (toVec res).length then lift (.error (.errno .eio)) else return toVec res

/-! ### The data file -/

/-- The part of a data call before the transfer: it finds out whether so many bytes may be
moved in this direction. The guard is dropped at its end. -/
def checkData (missing : Errno) (direction : XhciEndpCtlDirection) (portNum : Nat) (endpNum : U8)
    (bufLen : Nat) : PortCall Unit :=
  withEndpoint portNum endpNum missing fun _ endpState =>
    match endpState.driverIfState with
    | .waitingForDataPipe direction' bytesTransferred bytesToTransfer => do
      if direction' ≠ direction then lift (.error (.errno .ebadf))
      else
        let left ← lift (checked (p.sub (bytesToTransfer.setWidth 64 : U64)
          (bytesTransferred.setWidth 64)))
        if left.toNat < bufLen then lift (.error (.errno .einval)) else return ()
    | _ => lift (.error (.errno .ebadf))

/-- The part of a data call after the transfer. -/
def accountData (missing : Errno) (direction : XhciEndpCtlDirection) (portNum : Nat) (endpNum : U8)
    (completionCode : U8) (someBytesTransferred : U32) : PortCall Unit :=
  withEndpoint portNum endpNum missing fun portState endpState =>
    match endpState.driverIfState with
    | .waitingForDataPipe direction' bytesTransferred bytesToTransfer => do
      if direction' ≠ direction then lift (.error (.panic .unreachable))
      else
        let sum ← lift (checked (p.add bytesTransferred someBytesTransferred))
        if sum = bytesToTransfer ∨ completionCode ≠ success.toU8 then
          setIfState portNum endpNum portState endpState
            (.waitingForTransferResult (transferResult completionCode someBytesTransferred))
        else
          setIfState portNum endpNum portState endpState
            (.waitingForDataPipe direction' sum bytesToTransfer)
    | _ => lift (.error (.panic .unreachable))

def onWriteEndpData (buf : List U8) : PortCall Nat := do
  checkData p .ebadfd .out portNum endpNum buf.length
  let endpIdx ← lift (checked (p.sub endpNum 1))
  let (completionCode, someBytesTransferred) ← transferWrite p out portNum endpIdx buf
  accountData p .ebadfd .out portNum endpNum completionCode someBytesTransferred
  return someBytesTransferred.toNat

/-- The number of bytes that were read, and the buffer of the client. -/
def onReadEndpData (bufLen : Nat) : PortCall (Nat × List U8) := do
  checkData p .ebadf .in_ portNum endpNum bufLen
  let endpIdx ← lift (checked (p.sub endpNum 1))
  let (completionCode, someBytesTransferred, buf) ← transferRead p out portNum endpIdx bufLen
  accountData p .ebadf .in_ portNum endpNum completionCode someBytesTransferred
  return (someBytesTransferred.toNat, buf)

end

end Defs

/-- A call of a client on the files of an endpoint. -/
inductive EndpCall where
  | writeCtl (buf : List U8)
  | readCtl (bufLen : Nat)
  | writeData (buf : List U8)
  | readData (bufLen : Nat)
deriving DecidableEq, Repr

/-- The interface state of an endpoint. -/
def ifState (table : Nat → Option PortState) (portNum : Nat) (endpNum : U8) :
    Option EndpIfState := do
  let portState ← table portNum
  let endpState ← portState.endpointStates endpNum
  return endpState.driverIfState

namespace EndpCall

variable (p : Profile) (fromSlice : List U8 → Option XhciEndpCtlReq)
  (toVec : XhciEndpCtlRes → List U8) (out : EndpOutcomes)

def run (portNum : Nat) (endpNum : U8) : EndpCall → PortCall Unit
  | .writeCtl buf => do
    let _ ← onWriteEndpCtl p out fromSlice portNum endpNum buf
  | .readCtl bufLen => do
    let _ ← onReadEndpCtl p out toVec portNum endpNum bufLen
  | .writeData buf => do
    let _ ← onWriteEndpData p out portNum endpNum buf
  | .readData bufLen => do
    let _ ← onReadEndpData p out portNum endpNum bufLen

end EndpCall

/-! ### Data calls -/

section DataCalls

variable {p : Profile} {out : EndpOutcomes} {portNum : Nat} {endpNum : U8}
  {portState : PortState} {endpState : EndpointState} {table : Nat → Option PortState}

theorem ifState_eq_some {st : EndpIfState} : ifState table portNum endpNum = some st ↔
    ∃ portState endpState, table portNum = some portState ∧
      portState.endpointStates endpNum = some endpState ∧ endpState.driverIfState = st := by
  simp [ifState, Option.bind_eq_some_iff]

section Lookup

variable {α : Type} {missing : Errno} {f : PortState → EndpointState → PortCall α}

theorem withEndpoint_eq (hport : table portNum = some portState)
    (hendp : portState.endpointStates endpNum = some endpState) :
    withEndpoint portNum endpNum missing f [] table = f portState endpState [portNum] table := by
  rw [withEndpoint, getMut_some hport, hendp]
  rfl

/-- The endpoint is missing, or the code goes on with it. -/
theorem withEndpoint_cases (portNum : Nat) (endpNum : U8) (table : Nat → Option PortState)
    (missing : Errno) (f : PortState → EndpointState → PortCall α) :
    (ifState table portNum endpNum = none ∧
      withEndpoint portNum endpNum missing f [] table = some (.error (.errno missing), table)) ∨
    ∃ portState endpState, ifState table portNum endpNum = some endpState.driverIfState ∧
      withEndpoint portNum endpNum missing f [] table =
        f portState endpState [portNum] table := by
  cases hport : table portNum with
  | none =>
    refine .inl ⟨by simp [ifState, hport], ?_⟩
    rw [withEndpoint, getMut, hport]
  | some portState =>
    cases hendp : portState.endpointStates endpNum with
    | none =>
      refine .inl ⟨by simp [ifState, hport, hendp], ?_⟩
      rw [withEndpoint, getMut_some hport, hendp]
      rfl
    | some endpState =>
      exact .inr ⟨portState, endpState, by simp [ifState, hport, hendp], withEndpoint_eq hport hendp⟩

theorem withEndpoint_blocks_iff : (withEndpoint portNum endpNum missing f).Blocks [] table ↔
      ∃ portState endpState, table portNum = some portState ∧
        portState.endpointStates endpNum = some endpState ∧
        (f portState endpState).Blocks [portNum] table := by
  unfold withEndpoint
  simp only [blocks_getMut, blocks_lift_bind, okOr_eq_ok, exists_and_left]

theorem withEndpoint_meets {pre : (Nat → Option PortState) → Prop}
    {ok : α → (Nat → Option PortState) → Prop} {err : Stop → (Nat → Option PortState) → Prop}
    (fails : ∀ stop table, pre table → err stop table)
    (present : ∀ portState endpState, Meets [portNum] pre (f portState endpState) ok err) :
    Meets [] pre (withEndpoint portNum endpNum missing f) ok err := by
  refine .getMut (by simp) (fails _) fun portState => ?_
  refine .lift_bind (fun stop table start => fails stop table start.1) fun endpState _ => ?_
  exact fun table start => present portState endpState table start.1

end Lookup

/-- The interface state of the endpoint is this. -/
abbrev InState (portNum : Nat) (endpNum : U8) (st : Option EndpIfState)
    (table : Nat → Option PortState) : Prop := ifState table portNum endpNum = st

variable {endpNum' endpIdx : U8} {st : Option EndpIfState}

/-- A transfer waits for its event without a guard, and does not end on a silent bus. -/
theorem executeTransfer_meets {streamId : U16} {d : List Store} {last : Store} :
    Meets [] (InState portNum endpNum st)
      (executeTransfer p out portNum endpNum' streamId d last)
      (fun _ table => out.event ≠ none ∧ InState portNum endpNum st table)
      (fun _ => InState portNum endpNum st) := by
  refine .lift_bind (fun _ _ => id) fun endpIdx _ => ?_
  refine .bind (fun _ => InState portNum endpNum st) ?_ fun _ => ?_
  · refine .getMut (by simp) (fun _ => id) fun portState => ?_
    refine .lift_bind (fun _ _ => And.left) fun endpDesc _ => ?_
    refine .lift_bind (fun _ _ => And.left) fun doorbellStream _ => ?_
    refine .lift_bind (fun _ _ => And.left) fun doorbellNoStream _ => ?_
    refine .lift_bind (fun _ _ => And.left) fun endpState hendp => ?_
    refine .lift_bind (fun _ _ => And.left) fun ring _ => ?_
    refine .lift_bind (fun _ _ => And.left) fun queued _ => ?_
    refine .store fun table ⟨hst, hport⟩ => ?_
    rw [okOr_eq_ok] at hendp
    -- The TRBs go to the ring of an endpoint; the interface states are left alone.
    refine Eq.trans ?_ hst
    by_cases hn : endpNum = endpNum'
    · subst hn
      simp [ifState, PortState.setEndpoint, hport, hendp]
    · simp [ifState, PortState.setEndpoint, hport, update_of_ne hn]
  · refine .lift_bind (fun _ _ => id) fun eventTrb hevent => ?_
    have hbus : out.event ≠ none := by
      intro hnone
      simp [EndpOutcomes.await, hnone] at hevent
    refine .lift_bind (fun _ _ => id) fun _ _ => ?_
    split
    · exact .error fun _ => id
    · exact .pure fun _ hst => ⟨hbus, hst⟩

theorem transfer_meets {dmaBuf : Option DmaBuffer} {direction : PortReqDirection} :
    Meets [] (InState portNum endpNum st) (transfer p out portNum endpIdx dmaBuf direction)
      (fun _ table => out.event ≠ none ∧ InState portNum endpNum st table)
      (fun _ => InState portNum endpNum st) := by
  refine .lift_bind (fun _ _ => id) fun endpNum' _ => ?_
  refine .bind (fun _ => InState portNum endpNum st) ?_ fun buffer => ?_
  · refine .getMut (by simp) (fun _ => id) fun portState => ?_
    refine .lift_bind (fun _ _ => And.left) fun endpDesc _ => ?_
    split
    · exact .error fun _ => And.left
    · exact .pure fun _ => And.left
  · refine .bind _ executeTransfer_meets fun event => ?_
    cases dmaBuf with
    | none => exact .pure fun _ => id
    | some => exact .lift_bind (fun _ _ => And.right) fun _ _ => .pure fun _ => id

variable {missing : Errno} {direction : XhciEndpCtlDirection}

theorem checkData_meets {bufLen : Nat} : Meets [] (InState portNum endpNum st)
      (checkData p missing direction portNum endpNum bufLen)
      (fun _ => InState portNum endpNum st) (fun _ => InState portNum endpNum st) := by
  refine withEndpoint_meets (fun _ _ => id) fun portState endpState => ?_
  split
  · split
    · exact .error fun _ => id
    · refine .lift_bind (fun _ _ => id) fun left _ => ?_
      split
      · exact .error fun _ => id
      · exact .pure fun _ => id
  · exact .error fun _ => id

theorem accountData_meets {completionCode : U8} {someBytesTransferred : U32} {moved : Prop} :
    Meets [] (fun table => moved ∧ InState portNum endpNum st table)
      (accountData p missing direction portNum endpNum completionCode someBytesTransferred)
      (fun _ _ => moved) (fun _ => InState portNum endpNum st) := by
  refine withEndpoint_meets (fun _ _ => And.right) fun portState endpState => ?_
  split
  · split
    · exact .error fun _ => And.right
    · refine .lift_bind (fun _ _ => And.right) fun sum _ => ?_
      split
      all_goals exact .store fun _ => And.left
  · exact .error fun _ => And.right

/-- A data call does not wait for itself. If it fails, the interface state is as before, also
if it fails because the device stalled. It does not return `Ok` on a silent bus. -/
theorem onWriteEndpData_meets {buf : List U8} :
    Meets [] (InState portNum endpNum st) (onWriteEndpData p out portNum endpNum buf)
      (fun _ _ => out.event ≠ none) (fun _ => InState portNum endpNum st) := by
  refine .bind _ checkData_meets fun _ => ?_
  refine .lift_bind (fun _ _ => id) fun endpIdx _ => ?_
  refine .bind _ ?_ fun moved => .bind _ accountData_meets fun _ => .pure fun _ => id
  unfold transferWrite
  split
  · exact .error fun _ => id
  · exact .lift_bind (fun _ _ => id) fun _ _ => transfer_meets

theorem onReadEndpData_meets {bufLen : Nat} :
    Meets [] (InState portNum endpNum st) (onReadEndpData p out portNum endpNum bufLen)
      (fun _ _ => out.event ≠ none) (fun _ => InState portNum endpNum st) := by
  refine .bind _ checkData_meets fun _ => ?_
  refine .lift_bind (fun _ _ => id) fun endpIdx _ => ?_
  refine .bind _ ?_ fun moved => .bind _ accountData_meets fun _ => .pure fun _ => id
  unfold transferRead
  split
  · exact .error fun _ => id
  · exact .lift_bind (fun _ _ => id) fun _ _ => .bind _ transfer_meets fun _ => .pure fun _ => id

end DataCalls

/-! ### Calls that wait for themselves -/

section Blocking

variable {p : Profile} {out : EndpOutcomes} {fromSlice : List U8 → Option XhciEndpCtlReq}
  {toVec : XhciEndpCtlRes → List U8} {portNum : Nat} {endpNum : U8} {portState : PortState}
  {table : Nat → Option PortState} {held : List Nat}

section

variable (hport : table portNum = some portState) (hheld : portNum ∈ held)

include hport hheld

theorem getEndpStatus_blocks : (getEndpStatus p out portNum endpNum).Blocks held table :=
  blocks_get_held hport hheld

/-- A transfer without data waits unless the endpoint number underflows before. -/
theorem noDataTransfer_blocks_iff {dmaBuf : Option DmaBuffer} {direction : PortReqDirection}
    {α : Type} {f : U8 × U32 → PortCall α} : (do
      let endpIdx ← lift (checked (p.sub endpNum 1))
      let moved ← transfer p out portNum endpIdx dmaBuf direction
      f moved : PortCall α).Blocks held table ↔ ¬ (p = .debug ∧ endpNum = 0) := by
  rw [blocks_lift_bind]
  constructor
  · rintro ⟨endpIdx, hsub, -⟩ ⟨hdebug, rfl⟩
    rw [checked_eq_ok, Profile.sub_eq_ok] at hsub
    exact hsub.1 ⟨hdebug, by decide⟩
  · intro hnot
    have hsub : p.sub endpNum 1 = .ok (endpNum - 1) :=
      Profile.sub_eq_ok.mpr ⟨fun h => hnot ⟨h.1, by bv_omega⟩, rfl⟩
    refine ⟨endpNum - 1, checked_eq_ok.mpr hsub, blocks_bind ?_⟩
    rw [transfer, blocks_lift_bind]
    refine ⟨endpNum - 1 + 1, checked_eq_ok.mpr (Profile.add_eq_ok.mpr ⟨?_, rfl⟩),
      blocks_bind (blocks_getMut_held hport hheld)⟩
    exact fun h => hnot ⟨h.1, by bv_omega⟩

end

/-- The request is a reset, or a transfer without data for an endpoint whose number does not
underflow. -/
def AsksAgain (p : Profile) (endpNum : U8) : XhciEndpCtlReq → Prop
  | .reset _ => True
  | .transfer .noData _ => ¬ (p = .debug ∧ endpNum = 0)
  | _ => False

variable {endpState : EndpointState}

/-- Requests are refused until the one before is dealt with. -/
theorem onEndpCtlReq_refused {req : XhciEndpCtlReq} (busy : endpState.driverIfState ≠ .init) :
    onEndpCtlReq p out portNum endpNum portState endpState req =
      lift (.error (.errno .ebadf)) := by
  unfold onEndpCtlReq
  split
  iterate 4 exact absurd ‹endpState.driverIfState = .init› busy
  rfl

theorem onEndpCtlReq_blocks_iff {req : XhciEndpCtlReq} (hport : table portNum = some portState)
    (hheld : portNum ∈ held) :
    (onEndpCtlReq p out portNum endpNum portState endpState req).Blocks held table ↔
      endpState.driverIfState = .init ∧ AsksAgain p endpNum req := by
  by_cases hinit : endpState.driverIfState = .init
  · rw [and_iff_right hinit]
    unfold onEndpCtlReq
    rw [hinit]
    cases req with
    | status => exact ⟨nofun, nofun⟩
    | reset =>
      -- it first asks for the status of the endpoint
      exact iff_of_true (blocks_bind (getEndpStatus_blocks hport hheld)) trivial
    | transfer direction =>
      cases direction with
      | noData => exact noDataTransfer_blocks_iff hport hheld
      | out | in_ => exact ⟨nofun, nofun⟩
  · rw [onEndpCtlReq_refused hinit]
    exact ⟨nofun, fun h => absurd h.1 hinit⟩

theorem onWriteEndpCtl_blocks_iff {buf : List U8} :
    (onWriteEndpCtl p out fromSlice portNum endpNum buf).Blocks [] table ↔
      ifState table portNum endpNum = some .init ∧
        ∃ req, fromSlice buf = some req ∧ AsksAgain p endpNum req := by
  unfold onWriteEndpCtl
  rw [withEndpoint_blocks_iff, ifState_eq_some]
  simp only [blocks_lift_bind, okOr_eq_ok, blocks_bind_pure]
  constructor
  · rintro ⟨portState, endpState, hport, hendp, req, hreq, hblocks⟩
    obtain ⟨hinit, hasks⟩ := (onEndpCtlReq_blocks_iff hport (List.mem_singleton_self _)).mp hblocks
    exact ⟨⟨portState, endpState, hport, hendp, hinit⟩, req, hreq, hasks⟩
  · rintro ⟨⟨portState, endpState, hport, hendp, hinit⟩, req, hreq, hasks⟩
    exact ⟨portState, endpState, hport, hendp, req, hreq,
      (onEndpCtlReq_blocks_iff hport (List.mem_singleton_self _)).mpr ⟨hinit, hasks⟩⟩

theorem endpCtlRes_blocks_iff (hheld : portNum ∈ held) :
    (endpCtlRes p out portNum endpNum portState endpState).Blocks held table ↔
      endpState.driverIfState = .waitingForStatus := by
  unfold endpCtlRes
  cases hst : endpState.driverIfState with
  | init | waitingForDataPipe | waitingForTransferResult => exact ⟨nofun, nofun⟩
  | waitingForStatus =>
    refine iff_of_true (blocks_store_bind.mpr (blocks_bind ?_)) rfl
    exact getEndpStatus_blocks (update_self portNum _ table) hheld

theorem onReadEndpCtl_blocks_iff {bufLen : Nat} :
    (onReadEndpCtl p out toVec portNum endpNum bufLen).Blocks [] table ↔
      ifState table portNum endpNum = some .waitingForStatus := by
  unfold onReadEndpCtl
  rw [withEndpoint_blocks_iff, ifState_eq_some]
  have hwrite : ∀ res table, ¬ Blocks (if bufLen < (toVec res).length
      then lift (.error (.errno .eio)) else pure (toVec res) : PortCall (List U8))
      [portNum] table := by
    intro res table
    split
    all_goals exact nofun
  simp only [blocks_bind_iff hwrite,
    endpCtlRes_blocks_iff (List.mem_singleton_self portNum)]

end Blocking

namespace EndpCall

/-- The call asks for no guard that it holds. Data calls never do. -/
def AsksOnce (p : Profile) (fromSlice : List U8 → Option XhciEndpCtlReq) (endpNum : U8)
    (st : Option EndpIfState) : EndpCall → Prop
  | .writeCtl buf => st = some .init → ∀ req, fromSlice buf = some req → ¬ AsksAgain p endpNum req
  | .readCtl _ => st ≠ some .waitingForStatus
  | .writeData _ => True
  | .readData _ => True

/-- **Lock discipline.** A call on the files of an endpoint does not wait for itself exactly
if it is not a reset or a transfer without data that is written to the control file while the
endpoint is idle, nor a read of the control file while it holds a status request. -/
theorem not_blocks_iff (p : Profile) (fromSlice : List U8 → Option XhciEndpCtlReq)
    (toVec : XhciEndpCtlRes → List U8) (out : EndpOutcomes) (portNum : Nat) (endpNum : U8)
    (call : EndpCall) (table : Nat → Option PortState) :
    ¬ (call.run p fromSlice toVec out portNum endpNum).Blocks [] table ↔
      call.AsksOnce p fromSlice endpNum (ifState table portNum endpNum) := by
  cases call with
  | writeCtl =>
    unfold run AsksOnce
    rw [blocks_bind_pure, onWriteEndpCtl_blocks_iff]
    simp only [not_and, not_exists]
  | readCtl =>
    unfold run
    rw [blocks_bind_pure, onReadEndpCtl_blocks_iff]
    exact Iff.rfl
  | writeData =>
    unfold run
    rw [blocks_bind_pure]
    exact iff_of_true (onWriteEndpData_meets.not_blocks rfl) trivial
  | readData =>
    unfold run
    rw [blocks_bind_pure]
    exact iff_of_true (onReadEndpData_meets.not_blocks rfl) trivial

end EndpCall

/-! ### A storage device -/

section Devices

/-- The interface of the first endpoint is in this state. -/
def storageWith (st : EndpIfState) : Nat → Option PortState
  | 0 => some ((portWith [[bulkIn, bulkOut]]).setEndpoint 1 ⟨.ring (.new 0x2000 16 true), st⟩)
  | _ => none

/-- Nothing fails, and no event comes. -/
def silentBus : EndpOutcomes where
  ac64 := true
  endpContext := fun _ _ => some 1
  alloc := .ok 0x8000
  event := none
  bytes := []
  resetEndpoint := .ok ()
  setTrDequePtr := .ok ()
  clearFeature := .ok ()

/-- A reset, a transfer without data and the read of a status never return. -/
theorem EndpCall.control_calls_block :
    ((EndpCall.writeCtl []).run .debug (fun _ => some (.reset false)) (fun _ => []) silentBus
      0 1).Blocks [] (storageWith .init) ∧
    ((EndpCall.writeCtl []).run .debug (fun _ => some (.transfer .noData 0)) (fun _ => []) silentBus
      0 1).Blocks [] (storageWith .init) ∧
    ((EndpCall.readCtl 256).run .debug (fun _ => none) (fun _ => []) silentBus
      0 1).Blocks [] (storageWith .waitingForStatus) :=
  ⟨rfl, rfl, rfl⟩

end Devices

end Scheme

end RedoxDrivers.Xhci
