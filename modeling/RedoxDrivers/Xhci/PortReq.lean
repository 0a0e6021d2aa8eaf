import RedoxDrivers.Lib.Runs
import RedoxDrivers.Xhci.Trb

/-!
Control requests of clients (the `PortReq` handle in `xhcid/src/xhci/scheme.rs`).

A client writes a request to the handle. If the request moves data, the client then reads or
writes them. The handle remembers what it waits for. A call takes that state out of the
handle, leaves a placeholder, and puts a state back when it succeeds.

A call that fails puts nothing back. The next call on the handle finds the placeholder and
panics. `PortReqState.usable_iff_completes` says along which sequences of calls a handle stays
usable: those in which every call succeeds.
-/

namespace RedoxDrivers.Xhci

open Lib

/-! ### Requests -/

structure Setup where
  kind : U8
  request : U8
  value : U16
  index : U16
  length : U16
deriving DecidableEq, Repr

inductive PortReqDirection where
  | hostToDevice
  | deviceToHost
deriving DecidableEq, Repr

inductive PortReqTy where
  | class_
  | vendor
  | standard
deriving DecidableEq, Repr

inductive PortReqRecipient where
  | device
  | interface
  | endpoint
  | other
  | vendorSpecific
deriving DecidableEq, Repr

structure PortReq where
  direction : PortReqDirection
  reqType : PortReqTy
  reqRecipient : PortReqRecipient
  request : U8
  value : U16
  index : U16
  length : U16
  transfersData : Bool
deriving DecidableEq, Repr

/-- `ReqDirection::from(self) as u8`. -/
def PortReqDirection.toU8 : PortReqDirection → U8
  | .hostToDevice => 0
  | .deviceToHost => 1

/-- `ReqType::from(self) as u8`. -/
def PortReqTy.toU8 : PortReqTy → U8
  | .standard => 0
  | .class_ => 1
  | .vendor => 2

/-- `ReqRecipient::from(self) as u8`. -/
def PortReqRecipient.toU8 : PortReqRecipient → U8
  | .device => 0
  | .interface => 1
  | .endpoint => 2
  | .other => 3
  | .vendorSpecific => 31

/-! ### The handle -/

inductive PortReqState where
  | init
  | waitingForDeviceBytes (buffer : List U8) (setup : Setup)
  | waitingForHostBytes (buffer : List U8) (setup : Setup)
  | tmpSetup (setup : Setup)
  | tmp
deriving DecidableEq, Repr

/-- How the memory allocation and the control transfer of a call end. A transfer from the
device brings its bytes. -/
structure PortReqOutcomes where
  alloc : Except Errno Unit
  transfer : Except Errno (List U8)

def portReqInitSt (out : PortReqOutcomes) (req : PortReq) : Except Stop PortReqState := do
  let transferKind : TransferKind :=
    if !req.transfersData then .noData
    else match req.direction with
      | .deviceToHost => .in
      | .hostToDevice => .out
  let setup : Setup := {
    kind := req.direction.toU8 <<< 7 ||| req.reqType.toU8 <<< 5 ||| req.reqRecipient.toU8 <<< 0
    request := req.request
    value := req.value
    index := req.index
    length := req.length }
  let dataBufferOpt : Option (List U8) ←
    if req.transfersData then do
      propagate out.alloc
      pure (some (List.replicate req.length.toNat 0))
    else pure none
  match transferKind with
  | .in => return .waitingForDeviceBytes (← okOr dataBufferOpt .einval) setup
  | .out => return .waitingForHostBytes (← okOr dataBufferOpt .einval) setup
  | .noData => return .tmpSetup setup
  | .reserved => .error (.panic .unreachable)

def handlePortReqWrite (fromSlice : List U8 → Option PortReq) (out : PortReqOutcomes)
    (st : PortReqState) (buf : List U8) : Except Stop (Nat × PortReqState) :=
  match st with
  | .init => do
    let req ← okOr (fromSlice buf) .ebadmsg
    match ← portReqInitSt out req with
    | .tmpSetup _ => do
      -- nothing is left to read or write
      let _ ← propagate out.transfer
      return (buf.length, .init)
    | st => return (buf.length, st)
  | .waitingForHostBytes dmaBuffer _ =>
    if buf.length ≠ dmaBuffer.length then .error (.errno .einval)
    else do
      let _ ← propagate out.transfer
      return (buf.length, .init)
  | .waitingForDeviceBytes _ _ => .error (.errno .ebadf)
  | .tmp => .error (.panic .unreachable)
  | .tmpSetup _ => .error (.panic .unreachable)

/-- The bytes of the device lie at the front of the buffer. -/
def fill (dmaBuffer bytes : List U8) : List U8 :=
  (bytes ++ dmaBuffer.drop bytes.length).take dmaBuffer.length

def handlePortReqRead (out : PortReqOutcomes) (st : PortReqState) (bufLen : Nat) :
    Except Stop (List U8 × PortReqState) :=
  match st with
  | .waitingForDeviceBytes dmaBuffer _ =>
    if bufLen ≠ dmaBuffer.length then .error (.errno .einval)
    else do
      let bytes ← propagate out.transfer
      return (fill dmaBuffer bytes, .init)
  | .init => .error (.errno .ebadf)
  | .waitingForHostBytes _ _ => .error (.errno .ebadf)
  | .tmp => .error (.panic .unreachable)
  | .tmpSetup _ => .error (.panic .unreachable)

inductive HandleType where
  | directory
  | file
  | character
deriving DecidableEq, Repr

namespace PortReqState

def getHandleType : PortReqState → Except Fault HandleType
  | .tmp => .error .unreachable
  | .tmpSetup _ => .error .unreachable
  | _ => .ok .character

def getBufLen : PortReqState → Option Nat
  | .waitingForDeviceBytes buf _ => some buf.length
  | .waitingForHostBytes buf _ => some buf.length
  | _ => none

/-! ### Calls -/

/-- A call that has taken the state out of the handle puts one back if it succeeds. -/
def putBack {α : Type} : Except Stop (α × PortReqState) → Except Stop α × PortReqState
  | .ok (a, st) => (.ok a, st)
  | .error stop => (.error stop, .tmp)

def write (fromSlice : List U8 → Option PortReq) (out : PortReqOutcomes) (st : PortReqState)
    (buf : List U8) : Except Stop Nat × PortReqState :=
  putBack (handlePortReqWrite fromSlice out st buf)

def read (out : PortReqOutcomes) (st : PortReqState) (bufLen : Nat) :
    Except Stop (List U8) × PortReqState :=
  putBack (handlePortReqRead out st bufLen)

def fstat (st : PortReqState) : Except Stop (HandleType × Option Nat) × PortReqState :=
  ((do
    let handleType ← checked st.getHandleType
    return (handleType, st.getBufLen)), st)

inductive Call where
  | write (buf : List U8) (out : PortReqOutcomes)
  | read (bufLen : Nat) (out : PortReqOutcomes)
  | fstat

/-- A state that is not a placeholder. -/
def Stored (st : PortReqState) : Prop := st ≠ .tmp ∧ ∀ setup, st ≠ .tmpSetup setup

section Defs

variable (fromSlice : List U8 → Option PortReq)

/-- A call on the handle; what it returns is left out. -/
def call (st : PortReqState) : Call → Except Stop Unit × PortReqState
  | .write buf out => (Except.map (fun _ => ()) (write fromSlice out st buf).1,
      (write fromSlice out st buf).2)
  | .read bufLen out => (Except.map (fun _ => ()) (read out st bufLen).1, (read out st bufLen).2)
  | .fstat => (Except.map (fun _ => ()) (fstat st).1, (fstat st).2)

/-- A panic ends the driver. -/
def step (st : PortReqState) (c : Call) : Option PortReqState :=
  match call fromSlice st c with
  | (.error (.panic _), _) => none
  | (_, st) => some st

/-- The call finds no placeholder and does not panic, and if it fails, the handle is as
before or waits for a request. -/
structure Usable (st : PortReqState) (c : Call) : Prop where
  stored : Stored st
  returns : ¬ Panics (call fromSlice st c).1
  fails : ∀ code, (call fromSlice st c).1 = .error (.errno code) →
    (call fromSlice st c).2 = st ∨ (call fromSlice st c).2 = .init

/-- The call is what the handle waits for, and the memory and the transfer that it needs do
not fail. Any state can be asked for by `fstat`. -/
def Completes : PortReqState → Call → Prop
  | _, .fstat => True
  | .init, .write buf out =>
    match fromSlice buf with
    | none => False
    | some req => if req.transfersData then out.alloc = .ok () else out.transfer.isOk
  | .waitingForHostBytes buffer _, .write buf out =>
    buf.length = buffer.length ∧ out.transfer.isOk
  | .waitingForDeviceBytes buffer _, .read bufLen out =>
    bufLen = buffer.length ∧ out.transfer.isOk
  | _, _ => False

end Defs

/-! ### One call -/

section Calls

variable {fromSlice : List U8 → Option PortReq} {out : PortReqOutcomes} {st st' : PortReqState}
  {buf : List U8} {req : PortReq}

theorem stored_init : Stored .init := ⟨nofun, nofun⟩

/-- A request that moves data waits for them if there is memory. -/
theorem portReqInitSt_data (h : req.transfersData = true) :
    (∃ code, out.alloc = .error code ∧ portReqInitSt out req = .error (.errno code)) ∨
      out.alloc = .ok () ∧ ∃ st, portReqInitSt out req = .ok st ∧ Stored st := by
  unfold portReqInitSt
  simp only [h, if_true, Bool.not_true, Bool.false_eq_true, if_false]
  cases halloc : out.alloc with
  | error code => exact .inl ⟨code, rfl, rfl⟩
  | ok =>
    refine .inr ⟨rfl, ?_⟩
    cases req.direction with
    | hostToDevice | deviceToHost => exact ⟨_, rfl, nofun, nofun⟩

theorem portReqInitSt_noData (out : PortReqOutcomes) (h : req.transfersData = false) :
    ∃ setup, portReqInitSt out req = .ok (.tmpSetup setup) := by
  unfold portReqInitSt
  simp only [h]
  exact ⟨_, rfl⟩

section

variable (stored : Stored st)

include stored

/-- A write succeeds if it completes what the handle waits for, and then the handle waits for
the next thing. -/
theorem handlePortReqWrite_cases : (Completes fromSlice st (.write buf out) ∧
      ∃ n st', handlePortReqWrite fromSlice out st buf = .ok (n, st') ∧ Stored st') ∨
    (¬ Completes fromSlice st (.write buf out) ∧
      ∃ code, handlePortReqWrite fromSlice out st buf = .error (.errno code)) := by
  cases st with
  | init =>
    simp only [Completes, handlePortReqWrite]
    cases hparse : fromSlice buf with
    | none => exact .inr ⟨id, .ebadmsg, rfl⟩
    | some req =>
      simp only [okOr, ok_bind]
      cases hdata : req.transfersData with
      | true =>
        rcases portReqInitSt_data hdata with ⟨code, halloc, hinit⟩ |
          ⟨halloc, st, hinit, hst⟩
        · rw [hinit, halloc]
          exact .inr ⟨by simp, code, rfl⟩
        · rw [hinit]
          refine .inl ⟨halloc, buf.length, st, ?_, hst⟩
          cases st with
          | tmpSetup setup => exact absurd rfl (hst.2 setup)
          | _ => rfl
      | false =>
        obtain ⟨setup, hinit⟩ := portReqInitSt_noData out hdata
        rw [hinit]
        cases out.transfer with
        | error code => exact .inr ⟨Bool.false_ne_true, code, rfl⟩
        | ok => exact .inl ⟨rfl, buf.length, .init, rfl, stored_init⟩
  | waitingForHostBytes buffer =>
    simp only [Completes, handlePortReqWrite]
    by_cases hlen : buf.length = buffer.length
    · rw [if_neg (not_not_intro hlen)]
      cases out.transfer with
      | error code => exact .inr ⟨fun h => Bool.false_ne_true h.2, code, rfl⟩
      | ok => exact .inl ⟨⟨hlen, rfl⟩, buf.length, .init, rfl, stored_init⟩
    · rw [if_pos hlen]
      exact .inr ⟨fun h => hlen h.1, .einval, rfl⟩
  | waitingForDeviceBytes => exact .inr ⟨id, .ebadf, rfl⟩
  | tmpSetup setup => exact absurd rfl (stored.2 setup)
  | tmp => exact absurd rfl stored.1

theorem handlePortReqRead_cases {bufLen : Nat} : (Completes fromSlice st (.read bufLen out) ∧
      ∃ bytes st', handlePortReqRead out st bufLen = .ok (bytes, st') ∧ Stored st') ∨
    (¬ Completes fromSlice st (.read bufLen out) ∧
      ∃ code, handlePortReqRead out st bufLen = .error (.errno code)) := by
  cases st with
  | waitingForDeviceBytes buffer =>
    simp only [Completes, handlePortReqRead]
    by_cases hlen : bufLen = buffer.length
    · rw [if_neg (not_not_intro hlen)]
      cases out.transfer with
      | error code => exact .inr ⟨fun h => Bool.false_ne_true h.2, code, rfl⟩
      | ok => exact .inl ⟨⟨hlen, rfl⟩, _, .init, rfl, stored_init⟩
    · rw [if_pos hlen]
      exact .inr ⟨fun h => hlen h.1, .einval, rfl⟩
  | init | waitingForHostBytes => exact .inr ⟨id, .ebadf, rfl⟩
  | tmpSetup setup => exact absurd rfl (stored.2 setup)
  | tmp => exact absurd rfl stored.1

theorem fstat_stored : ∃ answer, fstat st = (.ok answer, st) := by
  cases st with
  | tmpSetup setup => exact absurd rfl (stored.2 setup)
  | tmp => exact absurd rfl stored.1
  | _ => exact ⟨_, rfl⟩

/-- What a call comes to: it succeeds, or it fails and leaves the placeholder. -/
theorem call_cases (c : Call) : (Completes fromSlice st c ∧ (call fromSlice st c).1 = .ok () ∧
      Stored (call fromSlice st c).2) ∨
    (¬ Completes fromSlice st c ∧ ∃ code, call fromSlice st c = (.error (.errno code), .tmp)) := by
  cases c with
  | write =>
    rcases handlePortReqWrite_cases stored with ⟨h, n, st', hok, hst'⟩ | ⟨h, code, herror⟩
    · refine .inl ⟨h, ?_, ?_⟩ <;> simp only [call, write, hok, putBack, Except.map]
      exact hst'
    · refine .inr ⟨h, code, ?_⟩
      simp only [call, write, herror, putBack, Except.map]
  | read =>
    rcases handlePortReqRead_cases stored with ⟨h, bytes, st', hok, hst'⟩ | ⟨h, code, herror⟩
    · refine .inl ⟨h, ?_, ?_⟩ <;> simp only [call, read, hok, putBack, Except.map]
      exact hst'
    · refine .inr ⟨h, code, ?_⟩
      simp only [call, read, herror, putBack, Except.map]
  | fstat =>
    obtain ⟨answer, hstat⟩ := fstat_stored stored
    refine .inl ⟨trivial, ?_, ?_⟩ <;> simp only [call, hstat, Except.map]
    exact stored

/-- A call that fails leaves the handle unusable. -/
theorem usable_call (c : Call) : Usable fromSlice st c ↔ Completes fromSlice st c := by
  rcases call_cases stored c with ⟨h, hok, -⟩ | ⟨h, code, herror⟩
  · refine ⟨fun _ => h, fun _ => ⟨stored, ?_, ?_⟩⟩
    · rw [hok]
      exact not_panics_ok ()
    · rw [hok]
      exact nofun
  · refine ⟨fun usable => ?_, fun hcompletes => absurd hcompletes h⟩
    rcases usable.fails code (by rw [herror]) with hsame | hinit
    · rw [herror] at hsame
      exact absurd hsame.symm stored.1
    · rw [herror] at hinit
      cases hinit

theorem stored_step {c : Call} (hcompletes : Completes fromSlice st c)
    (h : step fromSlice st c = some st') : Stored st' := by
  rcases call_cases stored c with ⟨-, hok, hst⟩ | ⟨hnot, -⟩
  · unfold step at h
    split at h
    · cases h
    · rename_i heq
      cases h
      rw [heq] at hst
      exact hst
  · exact absurd hcompletes hnot

end

end Calls

/-- **Request handles.** For every sequence of calls on a new handle, the handle stays usable
exactly if every call is the one it waits for and nothing that it needs fails. -/
theorem usable_iff_completes (fromSlice : List U8 → Option PortReq) (calls : List Call) :
    Along (step fromSlice) .init (Usable fromSlice) calls ↔
      Along (step fromSlice) .init (Completes fromSlice) calls :=
  along_congr stored_init (fun _ _ _ stored hcompletes h => stored_step stored hcompletes h)
    fun _ c stored => usable_call stored c

/-- A request that is not understood is answered with `EBADMSG`, and the next call on the
handle, even `fstat`, panics. -/
theorem bad_request_poisons :
    write (fun _ => none) ⟨.ok (), .ok []⟩ .init [] = (.error (.errno .ebadmsg), .tmp) ∧
      (fstat .tmp).1 = .error (.panic .unreachable) ∧
      (write (fun _ => none) ⟨.ok (), .ok []⟩ .tmp []).1 = .error (.panic .unreachable) ∧
      (read ⟨.ok (), .ok []⟩ .tmp 0).1 = .error (.panic .unreachable) ∧
      ¬ Along (step fun _ => none) .init (Usable fun _ => none)
        [.write [] ⟨.ok (), .ok []⟩, .fstat] := by
  refine ⟨rfl, rfl, rfl, rfl, fun h => ?_⟩
  have hfstat := (along_cons.mp ((along_cons.mp h).2 .tmp rfl)).1
  exact hfstat.stored.1 rfl

end PortReqState

end RedoxDrivers.Xhci
