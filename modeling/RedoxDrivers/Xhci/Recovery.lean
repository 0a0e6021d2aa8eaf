import RedoxDrivers.Xhci.EndpointIf

/-!
How a client gets out of the states of an endpoint's interface.

A state is left for good if the client can come back to `Init` by calls that do not wait for
the bus. That is so in `Init` itself and when a result is to be read. It is not so once a
transfer has been announced: a data call that fails, be it because the device stalled, returns
before the state is changed, further requests are refused, and reads of the control file only
say that the transfer is pending. Nor is it so once the status has been asked for, because
the read that would answer does not return. A reset and a transfer without data do not return
themselves: their handler asks for the guard that it holds.

`EndpFiles.never_stuck_iff` is the main result: along every run of calls each one returns and the
client can get back exactly if no request at all is made of an endpoint in `Init`.
-/

namespace RedoxDrivers.Xhci.Scheme

open Lib Guarded

def EndpCall.IsData : EndpCall → Prop
  | .writeData _ => True
  | .readData _ => True
  | _ => False

/-- The files of an endpoint, and how requests and answers are written there. -/
structure EndpFiles where
  p : Profile
  fromSlice : List U8 → Option XhciEndpCtlReq
  toVec : XhciEndpCtlRes → List U8
  portNum : Nat
  endpNum : U8

namespace EndpFiles

section Defs

variable (f : EndpFiles) (table : Nat → Option PortState) (c : EndpCall × EndpOutcomes)

def run : PortCall Unit :=
  c.1.run f.p f.fromSlice f.toVec c.2 f.portNum f.endpNum

def state : Option EndpIfState := ifState table f.portNum f.endpNum

/-- A call, and how the steps of it end. A call that panics or does not return has no state
after it. -/
def step : Option (Nat → Option PortState) :=
  match f.run c [] table with
  | some (.ok (), table) => some table
  | some (.error (.errno _), table) => some table
  | some (.error (.panic _), _) => none
  | none => none

/-- Calls that return although the bus is silent lead back to `Init`. -/
def Recovers : Prop :=
  ∃ calls table', (∀ c ∈ calls, c.2.event = none) ∧ Lib.run f.step table calls = some table' ∧
    f.state table' = some .init

/-- The call returns, and the client can get back. A call that panics or waits for itself leaves
the endpoint stuck. -/
def Frees : Prop := ∃ table', f.step table c = some table' ∧ f.Recovers table'

/-- The call waits for an event of the bus. -/
def WaitsForBus : Prop :=
  ∃ table', f.run (c.1, { c.2 with event := none }) [] table =
    some (.error (.panic .diverges), table')

/-- The device stalls during a data call. -/
def Stalls : Prop :=
  c.1.IsData ∧ f.WaitsForBus table c ∧
    ∃ trb, c.2.event = some (.ok trb) ∧ trb.completionCode = TrbCompletionCode.stall.toU8

/-- After a data call during which the device stalls, the result that is read from the control
file says so, and a reset is accepted. -/
def ReportsStall : Prop :=
  f.Stalls table c → ∀ table', f.step table c = some table' →
    ∃ out bytesTransferred table'',
      onReadEndpCtl f.p out f.toVec f.portNum f.endpNum 256 [] table' =
        some (.ok (f.toVec (.transferResult ⟨.stalled, bytesTransferred⟩)), table'') ∧
      ∀ buf noClearFeature, f.fromSlice buf = some (.reset noClearFeature) →
        ∃ out n table''', onWriteEndpCtl f.p out f.fromSlice f.portNum f.endpNum buf [] table'' =
          some (.ok n, table''')

/-- The state is left by reading the result, or is `Init`. -/
def Ready : Prop :=
  match f.state table with
  | some .init => True
  | some (.waitingForTransferResult _) => True
  | _ => False

/-- The call is not a request to an endpoint in `Init`. -/
def Abstains : EndpCall → Prop
  | .writeCtl buf => f.state table = some .init → f.fromSlice buf = none
  | .readCtl _ => True
  | .writeData _ => True
  | .readData _ => True

end Defs

variable {f : EndpFiles} {out : EndpOutcomes} {table table' : Nat → Option PortState}
  {c : EndpCall × EndpOutcomes} {buf : List U8} {bufLen : Nat}

theorem state_setIfState {portState : PortState} {endpState : EndpointState} {st : EndpIfState} :
    f.state (Function.update table f.portNum (some (portState.setEndpoint f.endpNum
      { endpState with driverIfState := st }))) = some st := by
  simp [state, ifState, PortState.setEndpoint]

theorem ready_of_init (h : f.state table = some .init) : f.Ready table := by
  rw [Ready, h]
  trivial

theorem ready_of_result {res : PortTransferStatus}
    (h : f.state table = some (.waitingForTransferResult res)) : f.Ready table := by
  rw [Ready, h]
  trivial

/-- A step is a call that returns. -/
theorem step_eq_some_iff {α : Type} {x : PortCall α} (hrun : f.run c = (do let _ ← x)) :
    f.step table c = some table' ↔ ∃ r, x [] table = some (r, table') ∧ ¬ Panics r := by
  unfold step
  rw [hrun]
  rcases hx : x [] table with _ | ⟨(fault | code) | a, t⟩
  · rw [bind_apply, hx]
    simp
  · rw [bind_error hx]
    simp [Panics]
  · rw [bind_error hx]
    simp [Panics]
  · rw [bind_apply, hx]
    simp [Panics]

/-! ### Control calls -/

/-- What is no request, or comes when the endpoint is not in `Init`, is refused. -/
theorem step_refused (abstains : f.Abstains table (.writeCtl buf)) :
    f.step table (.writeCtl buf, out) = some table := by
  rw [step_eq_some_iff (x := onWriteEndpCtl f.p out f.fromSlice f.portNum f.endpNum buf) rfl]
  unfold onWriteEndpCtl
  rcases withEndpoint_cases f.portNum f.endpNum table .ebadf _ with ⟨-, heq⟩ |
    ⟨portState, endpState, hst, heq⟩
  · exact ⟨_, heq, not_panics_errno _⟩
  · rw [heq]
    cases hreq : f.fromSlice buf with
    | none => exact ⟨_, rfl, not_panics_errno _⟩
    | some req =>
      have hinit : endpState.driverIfState ≠ .init := fun h => by
        cases hreq.symm.trans (abstains (hst.trans (congrArg some h)))
      simp only [okOr, lift_ok_bind, onEndpCtlReq_refused hinit]
      exact ⟨_, rfl, not_panics_errno _⟩

/-- A request to an endpoint in `Init` that returns is for a status or a transfer with data. -/
theorem not_ready_of_request (request : ¬ f.Abstains table (.writeCtl buf))
    (hstep : f.step table (.writeCtl buf, out) = some table') : ¬ f.Ready table' := by
  obtain ⟨hinit, hsome⟩ := Classical.not_imp.mp request
  obtain ⟨req, hreq⟩ := Option.ne_none_iff_exists'.mp hsome
  obtain ⟨portState, endpState, hport, hendp, hst⟩ := ifState_eq_some.mp hinit
  obtain ⟨r, hcall, hreturns⟩ := (step_eq_some_iff rfl).mp hstep
  have hblocks := mt onWriteEndpCtl_blocks_iff.mpr fun h => by cases h.symm.trans hcall
  simp only [show ifState table f.portNum f.endpNum = some .init from hinit, true_and, hreq,
    Option.some.injEq, exists_eq_left'] at hblocks
  rw [onWriteEndpCtl, withEndpoint_eq hport hendp] at hcall
  simp only [hreq, okOr, lift_ok_bind, onEndpCtlReq, hst] at hcall
  cases req with
  | status =>
    cases hcall
    rw [Ready, state_setIfState]
    exact id
  | reset => exact absurd trivial hblocks
  | transfer direction =>
    cases direction with
    | noData =>
      obtain ⟨hdebug, hzero⟩ := not_not.mp hblocks
      rw [hdebug, hzero] at hcall
      cases hcall
      exact absurd ⟨_, rfl⟩ hreturns
    | out | in_ =>
      cases hcall
      rw [Ready, state_setIfState]
      exact id

/-- The answer is written to the buffer of the client, or does not fit. -/
theorem answer_returns (res : XhciEndpCtlRes) (held : List Nat) (table : Nat → Option PortState) :
    ∃ r, (if bufLen < (f.toVec res).length then lift (.error (.errno .eio))
      else pure (f.toVec res) : PortCall (List U8)) held table = some (r, table) ∧ ¬ Panics r := by
  split
  · exact ⟨_, rfl, not_panics_errno _⟩
  · exact ⟨_, rfl, not_panics_ok _⟩

/-- Only a result or a status that is read changes the state. -/
theorem step_readCtl (status : f.state table ≠ some .waitingForStatus)
    (result : ∀ status, f.state table ≠ some (.waitingForTransferResult status)) :
    f.step table (.readCtl bufLen, out) = some table := by
  rw [step_eq_some_iff (x := onReadEndpCtl f.p out f.toVec f.portNum f.endpNum bufLen) rfl]
  unfold onReadEndpCtl
  rcases withEndpoint_cases f.portNum f.endpNum table .ebadf _ with ⟨-, heq⟩ |
    ⟨portState, endpState, hst, heq⟩
  · exact ⟨_, heq, not_panics_errno _⟩
  · rw [heq, endpCtlRes]
    rw [state, hst] at status result
    cases hif : endpState.driverIfState with
    | init => exact answer_returns .idle [f.portNum] table
    | waitingForDataPipe => exact answer_returns .pending [f.portNum] table
    | waitingForStatus => exact absurd (congrArg some hif) status
    | waitingForTransferResult res => exact absurd (congrArg some hif) (result res)

/-- A result can be read once. -/
theorem step_result (bufLen : Nat) (out : EndpOutcomes) {res : PortTransferStatus}
    (result : f.state table = some (.waitingForTransferResult res)) :
    ∃ table', f.step table (.readCtl bufLen, out) = some table' ∧ f.state table' = some .init := by
  obtain ⟨portState, endpState, hport, hendp, hst⟩ := ifState_eq_some.mp result
  obtain ⟨r, t, hread, hreturns, hinit⟩ :
      ∃ r t, onReadEndpCtl f.p out f.toVec f.portNum f.endpNum bufLen [] table = some (r, t) ∧
        ¬ Panics r ∧ f.state t = some .init := by
    unfold onReadEndpCtl
    rw [withEndpoint_eq hport hendp]
    simp only [endpCtlRes, hst]
    obtain ⟨r, hr, hreturns⟩ := answer_returns (.transferResult res) [f.portNum] _
    exact ⟨r, _, hr, hreturns, state_setIfState⟩
  exact ⟨t, (step_eq_some_iff rfl).mpr ⟨r, hread, hreturns⟩, hinit⟩

/-! ### Data calls -/

/-- Data calls are refused unless a transfer has been announced. -/
theorem checkData_refused {missing : Errno} {direction : XhciEndpCtlDirection}
    (ready : f.Ready table) : ∃ code, checkData f.p missing direction f.portNum f.endpNum bufLen []
      table = some (.error (.errno code), table) := by
  unfold checkData
  rcases withEndpoint_cases f.portNum f.endpNum table missing _ with ⟨-, heq⟩ |
    ⟨portState, endpState, hst, heq⟩
  · exact ⟨missing, heq⟩
  · rw [heq]
    rw [Ready, state, hst] at ready
    cases hif : endpState.driverIfState with
    | init | waitingForStatus | waitingForTransferResult => exact ⟨.ebadf, rfl⟩
    | waitingForDataPipe =>
      rw [hif] at ready
      exact ready.elim

theorem run_data_refused (data : c.1.IsData) (ready : f.Ready table) :
    ∃ code, f.run c [] table = some (.error (.errno code), table) := by
  obtain ⟨call, out⟩ := c
  cases call with
  | writeCtl | readCtl => exact data.elim
  | writeData | readData =>
    obtain ⟨code, hcheck⟩ := checkData_refused ready
    exact ⟨code, bind_error (bind_error hcheck)⟩

theorem step_data_ready (data : c.1.IsData) (ready : f.Ready table) : f.step table c = some table := by
  obtain ⟨code, hrefused⟩ := run_data_refused data ready
  rw [step, hrefused]

/-! ### The states that the client can get out of -/

theorem step_readCtl_ready (ready : f.Ready table) :
    ∃ table', f.step table (.readCtl bufLen, out) = some table' ∧ f.Ready table' := by
  by_cases result : ∃ res, f.state table = some (.waitingForTransferResult res)
  · obtain ⟨res, hres⟩ := result
    obtain ⟨t, hstep, hinit⟩ := step_result bufLen out hres
    exact ⟨t, hstep, ready_of_init hinit⟩
  · refine ⟨table, step_readCtl (fun hst => ?_) (not_exists.mp result), ready⟩
    rw [Ready, hst] at ready
    exact ready

/-- From these states a call returns to one of them exactly if it is no request to an endpoint
in `Init`. -/
theorem step_ready_iff (ready : f.Ready table) :
    (∃ table', f.step table c = some table' ∧ f.Ready table') ↔ f.Abstains table c.1 := by
  obtain ⟨call, out⟩ := c
  cases call with
  | writeCtl =>
    constructor
    · rintro ⟨table', hstep, hready⟩
      by_contra request
      exact not_ready_of_request request hstep hready
    · exact fun abstains => ⟨table, step_refused abstains, ready⟩
  | readCtl => exact iff_of_true (step_readCtl_ready ready) trivial
  | writeData | readData => exact iff_of_true ⟨table, step_data_ready trivial ready, ready⟩ trivial

/-- Once something has been announced, no call changes the state that returns on a silent
bus. -/
theorem silent_step (left : ¬ f.Ready table) (silent : c.2.event = none)
    (hstep : f.step table c = some table') : f.state table' = f.state table := by
  obtain ⟨call, out⟩ := c
  cases call with
  | writeCtl =>
    rw [step_refused fun hinit => absurd (ready_of_init hinit) left] at hstep
    cases hstep
    rfl
  | readCtl =>
    obtain ⟨r, hcall, -⟩ := (step_eq_some_iff rfl).mp hstep
    rw [step_readCtl (fun hst => by cases (onReadEndpCtl_blocks_iff.mpr hst).symm.trans hcall)
      fun res hres => absurd (ready_of_result hres) left] at hstep
    cases hstep
    rfl
  | writeData =>
    obtain ⟨r, hcall, -⟩ := (step_eq_some_iff rfl).mp hstep
    cases r with
    | error => exact onWriteEndpData_meets.of_error rfl hcall
    | ok => exact absurd silent (onWriteEndpData_meets.of_ok rfl hcall)
  | readData =>
    obtain ⟨r, hcall, -⟩ := (step_eq_some_iff rfl).mp hstep
    cases r with
    | error => exact onReadEndpData_meets.of_error rfl hcall
    | ok => exact absurd silent (onReadEndpData_meets.of_ok rfl hcall)

theorem silent_run {calls : List (EndpCall × EndpOutcomes)} (left : ¬ f.Ready table)
    (silent : ∀ c ∈ calls, c.2.event = none) (h : Lib.run f.step table calls = some table') :
    f.state table' = f.state table := by
  have keep (s) (c : EndpCall × EndpOutcomes) (s') (hs : f.state s = f.state table)
      (hc : c.2.event = none) (hstep : f.step s c = some s') : f.state s' = f.state table := by
    rw [Ready, ← hs] at left
    exact (silent_step left hc hstep).trans hs
  have along : Along f.step table (fun _ c => c.2.event = none) calls := by
    intro pre c post hcalls s _
    exact silent c (by simp [hcalls])
  exact invariant_of_along (I := fun s => f.state s = f.state table) rfl keep h along

theorem recovers_iff : f.Recovers table ↔ f.Ready table := by
  constructor
  · rintro ⟨calls, t, silent, hrun, hinit⟩
    by_contra left
    exact left (ready_of_init ((silent_run left silent hrun).symm.trans hinit))
  · intro ready
    rcases hst : f.state table with _ | st
    · rw [Ready, hst] at ready
      exact ready.elim
    · cases st with
      | init => exact ⟨[], table, List.forall_mem_nil _, rfl, hst⟩
      | waitingForTransferResult =>
        obtain ⟨t, hstep, hinit⟩ := step_result 256 silentBus hst
        refine ⟨[(.readCtl 256, silentBus)], t, ?_, ?_, hinit⟩
        · intro c hc
          rw [List.mem_singleton.mp hc]
          rfl
        · rw [run_cons, hstep]
          rfl
      | waitingForDataPipe | waitingForStatus =>
        rw [Ready, hst] at ready
        exact ready.elim

/-- **Recovery.** Along every sequence of calls on an endpoint, each call returns with the client
able to get back to `Init` without the bus and told of every stall, exactly if no call is a
request to an endpoint in `Init`. -/
theorem never_stuck_iff (f : EndpFiles) {table : Nat → Option PortState}
    (idle : f.state table = some .init) (calls : List (EndpCall × EndpOutcomes)) :
    Along f.step table (fun s c => f.Frees s c ∧ f.ReportsStall s c) calls ↔
      Along f.step table (fun s c => f.Abstains s c.1) calls := by
  refine along_congr (I := f.Ready) (ready_of_init idle) ?_ ?_
  · intro s c s' hs hc hstep
    obtain ⟨t, ht, hready⟩ := (step_ready_iff hs).mpr hc
    cases ht.symm.trans hstep
    exact hready
  · intro s c hs
    have frees : f.Frees s c ↔ f.Abstains s c.1 := by
      rw [← step_ready_iff hs]
      exact exists_congr fun s' => and_congr_right fun _ => recovers_iff
    rw [frees, and_iff_left_iff_imp]
    -- in a state that the client can get out of, a device does not stall
    rintro - ⟨data, ⟨t, hwaits⟩, -⟩
    obtain ⟨code, hrefused⟩ := run_data_refused (c := (c.1, { c.2 with event := none })) data hs
    rw [hrefused] at hwaits
    cases hwaits

/-! ### A storage device -/

section Devices

/-- Two requests of a client. -/
def parseReq : List U8 → Option XhciEndpCtlReq
  | [0] => some (.transfer .in_ 13)
  | [1] => some (.reset false)
  | _ => none

/-- The answers of xhcid. -/
def encodeRes : XhciEndpCtlRes → List U8
  | .status _ => [0]
  | .transferResult _ => [1]
  | .pending => [2]
  | .idle => [3]

def bulkInFiles : EndpFiles := ⟨.debug, parseReq, encodeRes, 0, 1⟩

/-- A client that only looks. -/
theorem onlooker_never_stuck : Along bulkInFiles.step (storageWith .init)
      (fun s c => bulkInFiles.Frees s c ∧ bulkInFiles.ReportsStall s c)
      [(.readCtl 256, silentBus), (.writeCtl [7], silentBus), (.writeData [5], silentBus)] := by
  refine (never_stuck_iff bulkInFiles rfl _).mpr ?_
  refine along_cons.mpr ⟨trivial, fun s _ => along_cons.mpr ⟨fun _ => rfl, fun s _ => ?_⟩⟩
  exact along_cons.mpr ⟨trivial, fun s _ => along_nil⟩

/-- The device answers a transfer with a stall. -/
def stalledBus : EndpOutcomes :=
  { silentBus with
    event := some (.ok (.set 0 (TrbCompletionCode.stall.toU8.setWidth 32 <<< 24) 0)) }

/-- A client announces the read of a status of 13 bytes, and the device stalls. After that the
control file says that the transfer is pending, a reset is refused, and no call on a silent bus
leads back to `Init`. -/
theorem stall_leaves_endpoint_stuck : ∃ announced stalled,
      bulkInFiles.step (storageWith .init) (.writeCtl [0], silentBus) = some announced ∧
      bulkInFiles.Stalls announced (.readData 13, stalledBus) ∧
      bulkInFiles.step announced (.readData 13, stalledBus) = some stalled ∧
      onReadEndpCtl .debug silentBus encodeRes 0 1 256 [] stalled =
        some (.ok (encodeRes .pending), stalled) ∧
      onWriteEndpCtl .debug silentBus parseReq 0 1 [1] [] stalled =
        some (.error (.errno .ebadf), stalled) ∧
      ¬ bulkInFiles.Recovers stalled := by
  refine ⟨_, _, rfl, ⟨trivial, ⟨_, rfl⟩, _, rfl, rfl⟩, rfl, rfl, rfl, ?_⟩
  rw [recovers_iff]
  exact id

end Devices

end EndpFiles

end RedoxDrivers.Xhci.Scheme
