import RedoxDrivers.Xhci.Ring

/-!
The event reactor of `xhcid` (`xhcid/src/xhci/irq_reactor.rs`).

Tasks that wait for an event register a state with the reactor. For each event TRB the
reactor searches its states for the first one that the event answers, removes it and
finishes it with a message; on the way it finishes the transfers whose ring is gone. A
port status change goes to the device enumerator instead.

`dispatch_conserves_iff` is the main result: the exact condition under which the
dispatch of an event returns, with every state either kept in order or finished once.
-/

namespace RedoxDrivers.Xhci

open Lib List Option TrbType

structure RingId where
  port : U8
  endpointNum : U8
  streamId : U16
deriving DecidableEq, Repr

def RingId.defaultControlPipe (port : U8) : RingId := ⟨port, 0, 0⟩

inductive StateKind where
  | commandCompletion (physPtr : U64)
  | transfer (firstPhysPtr lastPhysPtr : U64) (ringId : RingId)
  | other (trbType : TrbType)
deriving DecidableEq, Repr

/-- `waker` names the task to wake, `message` the cell that the state shares with it. -/
structure State where
  waker : Nat
  kind : StateKind
  message : Nat
  isIsochOrVf : Bool
deriving DecidableEq, Repr

structure NextEventTrb where
  eventTrb : Trb
  srcTrb : Option Trb
deriving DecidableEq, Repr

inductive RingOrStreams where
  | ring (ring : Ring)
  | streams (rings : U16 → Option Ring)

/-- Of an endpoint's state only the field `transfer` is kept. -/
structure PortState where
  endpointStates : U8 → Option RingOrStreams

/-- The fields of `Xhci` that the reactor reads; `ports` are the registers `portsc`. -/
structure Hci where
  ac64 : Bool
  cmd : Ring
  portStates : Nat → Option PortState
  ports : List U32

namespace Hci

/-- The ring that `with_ring` passes to its argument. -/
def withRing (self : Hci) (id : RingId) : Option Ring := do
  let slotState ← self.portStates id.port.toNat
  match ← slotState.endpointStates id.endpointNum with
  | .ring ring => some ring
  | .streams rings => rings id.streamId

def getTransferTrb (self : Hci) (paddr : U64) (id : RingId) : Except Fault (Option Trb) :=
  match self.withRing id with
  | some ring => ring.physAddrToEntry self.ac64 paddr
  | none => .ok none

end Hci

/-- What `acknowledge` does with the state it looks at. -/
inductive Verdict where
  /-- Keep it and go on. -/
  | keep
  /-- Remove it and go on. -/
  | drop
  /-- Remove it, finish it with the event alone, and go on. -/
  | dead
  /-- Remove it, finish it with the message, and return. -/
  | take (hci : Hci) (message : Option NextEventTrb)
  /-- Hand the event to `acknowledge_failed_transfer_trbs`, and return. -/
  | fail

/-- `matches`: whether an address is within a transfer. -/
def inTransfer (firstPhysPtr lastPhysPtr physPtr : U64) : Bool :=
  if firstPhysPtr ≤ lastPhysPtr then firstPhysPtr ≤ physPtr && physPtr ≤ lastPhysPtr
  else firstPhysPtr ≤ physPtr || physPtr ≤ lastPhysPtr

/-- "Also check if the transfer is on a dead ring". -/
def Hci.ringVerdict (self : Hci) (ringId : RingId) : Verdict :=
  if (self.withRing ringId).isNone then .dead else .keep

/-- The loop body of `acknowledge`. -/
def Hci.verdict (self : Hci) (trb : Trb) (state : State) : Except Fault Verdict :=
  match state.kind with
  | .commandCompletion physPtr =>
    if trb.trbType = commandCompletion.toU8 then
      if trb.completionTrbPointer = some physPtr then do
        match ← self.cmd.physAddrToIndex self.ac64 physPtr with
        | some i =>
          let commandTrb ← index self.cmd.trbs i
          let trbs ← modifyAt self.cmd.trbs i fun _ => .reserved false
          return .take { self with cmd := { self.cmd with trbs } } (some ⟨trb, some commandTrb⟩)
        | none => return .drop
      else .ok .keep
    else .ok .keep
  | .transfer firstPhysPtr lastPhysPtr ringId =>
    if trb.trbType = transfer.toU8 then
      match trb.transferEventTrbPointer with
      | some physPtr =>
        if inTransfer firstPhysPtr lastPhysPtr physPtr then do
          let srcTrb ← self.getTransferTrb physPtr ringId
          return .take self (some ⟨trb, srcTrb⟩)
        else .ok (self.ringVerdict ringId)
      | none => .ok .fail
    else .ok (self.ringVerdict ringId)
  | .other trbType =>
    if trbType.toU8 = trb.trbType then .ok (.take self none) else .ok .keep

/-- `requests` are those sent to the device enumerator, `finished` the states that have
been finished, each with its message. -/
structure Reactor where
  hci : Hci
  states : List State
  requests : List U8
  finished : List (State × Option NextEventTrb)

namespace Reactor

variable (p : Profile) (self : Reactor) (trb : Trb)

/-- `State::finish`: the message is stored in the state's cell and the task is woken. -/
def finish (state : State) (message : Option NextEventTrb) : Reactor :=
  { self with finished := self.finished ++ [(state, message)] }

/-- The loop of `acknowledge_failed_transfer_trbs`: `self.states` are the states before
the index, the list those from it on. -/
def acknowledgeFailedLoop (trb : Trb) : Reactor → List State → Except Fault Reactor
  | _, [] => .error .outOfBounds
  | self, state :: rest =>
    if state.isIsochOrVf then
      acknowledgeFailedLoop trb (self.finish state (some ⟨trb, none⟩)) rest
    else if rest.isEmpty then .ok { self with states := self.states ++ [state] }
    else acknowledgeFailedLoop trb { self with states := self.states ++ [state] } rest

def acknowledgeFailedTransferTrbs : Except Fault Reactor :=
  acknowledgeFailedLoop trb { self with states := [] } self.states

/-- The loop of `acknowledge`: `self.states` are the states before the index, the list
those from it on. -/
def acknowledgeLoop (trb : Trb) : Reactor → List State → Except Fault Reactor
  | self, [] => .ok self
  | self, state :: rest => do
    match ← self.hci.verdict trb state with
    | .keep => acknowledgeLoop trb { self with states := self.states ++ [state] } rest
    | .drop => acknowledgeLoop trb self rest
    | .dead => acknowledgeLoop trb (self.finish state (some ⟨trb, none⟩)) rest
    | .take hci message =>
      return { self with hci, states := self.states ++ rest }.finish state message
    | .fail =>
      acknowledgeFailedTransferTrbs { self with states := self.states ++ state :: rest } trb

def acknowledge : Except Fault Reactor :=
  acknowledgeLoop trb { self with states := [] } self.states

/-- `PORT_CSC` is bit 17. -/
def handlePortStatusChange : Except Fault Reactor :=
  match trb.portStatusChangePortId with
  | some portNum => do
    let i ← p.sub portNum 1
    let ports ← modifyAt self.hci.ports i.toNat (· ||| 1 <<< 17)
    return { self with hci := { self.hci with ports }, requests := self.requests ++ [portNum] }
  | none => .ok self

/-- The `match` on the type of an event, in `run_polling` and in `run_with_irq_file`. -/
def dispatch : Except Fault Reactor :=
  if trb.trbType = portStatusChange.toU8 then self.handlePortStatusChange p trb
  else self.acknowledge trb

end Reactor

/-! ### What the search does with one state -/

/-- Whether an event ends the search at this state. -/
def State.answeredBy (trb : Trb) (state : State) : Bool :=
  match state.kind with
  | .commandCompletion physPtr => trb.trbType == commandCompletion.toU8 &&
      trb.completionTrbPointer == some physPtr
  | .transfer firstPhysPtr lastPhysPtr _ => trb.trbType == transfer.toU8 &&
      trb.transferEventTrbPointer.all (inTransfer firstPhysPtr lastPhysPtr)
  | .other trbType => trbType.toU8 == trb.trbType

namespace Hci

/-- Whether a state waits for a transfer on a ring that is gone. -/
def onDeadRing (self : Hci) (state : State) : Bool :=
  match state.kind with
  | .transfer _ _ ringId => (self.withRing ringId).isNone
  | _ => false

/-- The command ring lies within the address space. -/
def CmdFits (self : Hci) : Prop :=
  (self.cmd.physBase self.ac64).toNat + 16 * self.cmd.trbs.length ≤ 2 ^ 64

/-- A state that waits for a command has the address of a slot of the command ring. -/
def Admits (self : Hci) (state : State) : Prop :=
  ∀ physPtr, state.kind = .commandCompletion physPtr →
    ∃ i < self.cmd.trbs.length, physPtr = self.cmd.trbPhysPtr self.ac64 i

instance (self : Hci) (state : State) : Decidable (self.Admits state) :=
  match h : state.kind with
  | .commandCompletion physPtr =>
    decidable_of_iff (∃ i < self.cmd.trbs.length, physPtr = self.cmd.trbPhysPtr self.ac64 i)
      (by simp [Admits, h])
  | .transfer .. => .isTrue fun _ hkind => by simp [h] at hkind
  | .other _ => .isTrue fun _ hkind => by simp [h] at hkind

/-- The layout that nobody changes while the driver runs: the place of the command ring and
the number of ports. -/
structure SameLayout (hci hci' : Hci) : Prop where
  ac64 : hci'.ac64 = hci.ac64
  base : hci'.cmd.base = hci.cmd.base
  length : hci'.cmd.trbs.length = hci.cmd.trbs.length
  ports : hci'.ports.length = hci.ports.length

instance (hci hci' : Hci) : Decidable (SameLayout hci hci') :=
  decidable_of_iff (hci'.ac64 = hci.ac64 ∧ hci'.cmd.base = hci.cmd.base ∧
      hci'.cmd.trbs.length = hci.cmd.trbs.length ∧ hci'.ports.length = hci.ports.length)
    ⟨fun h => ⟨h.1, h.2.1, h.2.2.1, h.2.2.2⟩, fun h => ⟨h.1, h.2, h.3, h.4⟩⟩

theorem SameLayout.refl (hci : Hci) : SameLayout hci hci := ⟨rfl, rfl, rfl, rfl⟩

theorem SameLayout.cmdFits {hci hci' : Hci} (h : SameLayout hci hci') (fits : hci.CmdFits) :
    hci'.CmdFits := by
  unfold CmdFits Ring.physBase at fits ⊢
  rwa [h.ac64, h.base, h.length]

theorem SameLayout.admits {hci hci' : Hci} {state : State} (h : SameLayout hci hci')
    (admits : hci.Admits state) : hci'.Admits state := by
  intro physPtr hkind
  unfold Ring.trbPhysPtr Ring.physBase
  rw [h.ac64, h.base, h.length]
  exact admits physPtr hkind

/-- The state that an event answers can be served: the TRB of a transfer can be looked up
if its ring is alive, and a broadcast ends if the last state is not isochronous. -/
def AnswerOk (self : Hci) (trb : Trb) (states : List State) (state : State) : Prop :=
  match state.kind, trb.transferEventTrbPointer with
  | .transfer _ _ ringId, some physPtr =>
    ∀ ring, self.withRing ringId = some ring → ring.EntryOk self.ac64 physPtr
  | .transfer _ _ _, none => ∀ last, states.getLast? = some last → last.isIsochOrVf = false
  | _, _ => True

section Verdicts

variable {self : Hci} {trb : Trb} {state : State} {firstPhysPtr lastPhysPtr physPtr : U64}
  {ringId : RingId}

/-- A state that the event does not answer stays, unless its ring is gone. -/
theorem verdict_skip (self : Hci) (h : state.answeredBy trb = false) :
    self.verdict trb state = .ok (if self.onDeadRing state then .dead else .keep) := by
  unfold State.answeredBy at h
  unfold verdict onDeadRing
  cases hkind : state.kind with
  | commandCompletion =>
    simp only [hkind, Bool.and_eq_false_iff, beq_eq_false_iff_ne] at h
    by_cases htype : trb.trbType = commandCompletion.toU8
    · simp [htype, h.resolve_left (not_not.mpr htype)]
    · simp [htype]
  | transfer =>
    simp only [hkind, Bool.and_eq_false_iff, beq_eq_false_iff_ne] at h
    by_cases htype : trb.trbType = transfer.toU8
    · have hout := h.resolve_left (not_not.mpr htype)
      cases hptr : trb.transferEventTrbPointer with
      | none => simp [hptr] at hout
      | some =>
        rw [hptr, all_some] at hout
        simp [htype, hout, ringVerdict]
    · simp [htype, ringVerdict]
  | other =>
    simp only [hkind, beq_eq_false_iff_ne] at h
    simp [h]

/-- A command is taken with its TRB, which is cleared. -/
theorem verdict_command (fits : self.CmdFits) {i : Nat} {commandTrb : Trb}
    (htrb : self.cmd.trbs[i]? = some commandTrb)
    (hkind : state.kind = .commandCompletion (self.cmd.trbPhysPtr self.ac64 i))
    (h : state.answeredBy trb = true) : self.verdict trb state = .ok (.take
      { self with cmd := { self.cmd with
        trbs := self.cmd.trbs.modify i fun _ => .reserved false } }
      (some ⟨trb, some commandTrb⟩)) := by
  have hi := (List.getElem?_eq_some_iff.mp htrb).1
  simp only [State.answeredBy, hkind, Bool.and_eq_true, beq_iff_eq] at h
  unfold verdict
  rw [hkind]
  simp only [h.1, h.2, if_true, Ring.physAddrToIndex_slot fits hi, ok_bind]
  exact bind_eq_ok.mpr ⟨_, index_eq_ok.mpr htrb,
    bind_eq_ok.mpr ⟨_, modifyAt_eq_ok.mpr ⟨hi, rfl⟩, rfl⟩⟩

/-- A transfer is taken with the TRB that the event points to. -/
theorem verdict_transfer (self : Hci) (hkind : state.kind = .transfer firstPhysPtr lastPhysPtr ringId)
    (h : state.answeredBy trb = true) (hptr : trb.transferEventTrbPointer = some physPtr) :
    self.verdict trb state = do
      let srcTrb ← self.getTransferTrb physPtr ringId
      return .take self (some ⟨trb, srcTrb⟩) := by
  simp only [State.answeredBy, hkind, Bool.and_eq_true, beq_iff_eq, hptr, all_some] at h
  unfold verdict
  simp only [hkind, h.1, h.2, hptr, if_true]

theorem getTransferTrb_isOk : (∃ srcTrb, self.getTransferTrb physPtr ringId = .ok srcTrb) ↔
    ∀ ring, self.withRing ringId = some ring → ring.EntryOk self.ac64 physPtr := by
  unfold getTransferTrb
  cases self.withRing ringId with
  | none => exact iff_of_true ⟨none, rfl⟩ nofun
  | some ring => simp only [some.injEq, forall_eq', ← Ring.physAddrToEntry_isOk]

/-- What the search makes of a state. Commands are looked up in the command ring, and found. -/
inductive Judged (self : Hci) (trb : Trb) (state : State) : Except Fault Verdict → Prop where
  | skip : state.answeredBy trb = false →
      Judged self trb state (.ok (if self.onDeadRing state then .dead else .keep))
  | take {hci message} : state.answeredBy trb = true → self.SameLayout hci →
      (∀ states, self.AnswerOk trb states state) → Judged self trb state (.ok (.take hci message))
  | fail : state.answeredBy trb = true → trb.transferEventTrbPointer = none →
      (∀ states, self.AnswerOk trb states state ↔
        ∀ last, states.getLast? = some last → last.isIsochOrVf = false) →
      Judged self trb state (.ok .fail)
  | fault {fault} : state.answeredBy trb = true → (∀ states, ¬ self.AnswerOk trb states state) →
      Judged self trb state (.error fault)

theorem judged_verdict (trb : Trb) (fits : self.CmdFits) (admits : self.Admits state) :
    Judged self trb state (self.verdict trb state) := by
  by_cases h : state.answeredBy trb = true
  · cases hkind : state.kind with
    | commandCompletion physPtr =>
      obtain ⟨i, hi, rfl⟩ := admits physPtr hkind
      rw [verdict_command fits (getElem?_eq_getElem hi) hkind h]
      exact .take h ⟨rfl, rfl, length_modify .., rfl⟩ fun _ => by simp only [AnswerOk, hkind]
    | transfer first last ringId =>
      cases hptr : trb.transferEventTrbPointer with
      | none =>
        have hfail : self.verdict trb state = .ok .fail := by
          simp only [State.answeredBy, hkind, Bool.and_eq_true, beq_iff_eq] at h
          simp only [verdict, hkind, h.1, hptr, if_true]
        rw [hfail]
        exact .fail h hptr fun _ => by simp only [AnswerOk, hkind, hptr]
      | some physPtr =>
        have hok (states) : self.AnswerOk trb states state ↔
            ∃ srcTrb, self.getTransferTrb physPtr ringId = .ok srcTrb := by
          simp only [AnswerOk, hkind, hptr, getTransferTrb_isOk]
        rw [verdict_transfer self hkind h hptr]
        cases hget : self.getTransferTrb physPtr ringId with
        | error => exact .fault h fun states => by simp [hok, hget]
        | ok => exact .take h (.refl _) fun states => (hok states).mpr ⟨_, hget⟩
    | other =>
      have htake : self.verdict trb state = .ok (.take self none) := by
        simp only [State.answeredBy, hkind, beq_iff_eq] at h
        simp only [verdict, hkind, h, if_true]
      rw [htake]
      exact .take h (.refl _) fun _ => by simp only [AnswerOk, hkind]
  · rw [verdict_skip self (Bool.not_eq_true _ ▸ h)]
    exact .skip (Bool.not_eq_true _ ▸ h)

end Verdicts

end Hci

/-! ### Every state is kept or finished once -/

namespace Reactor

/-- What a dispatch does with the states: it finishes some of them, each once, and keeps
the others in order. -/
def Conserves (r r' : Reactor) : Prop :=
  ∃ done, r'.finished = r.finished ++ done ∧
    (r'.states ++ done.map Prod.fst).Perm r.states ∧ r'.states.Sublist r.states

variable {self r : Reactor} {trb : Trb} {state : State} {rest : List State}

theorem Conserves.refl (r : Reactor) : Conserves r r := ⟨[], (append_nil _).symm, by simp, .refl _⟩

/-- Removing a state and finishing it comes before what follows. -/
theorem Conserves.remove {seen : List State} {message : Option NextEventTrb}
    (h : Conserves ({ self with states := seen ++ rest }.finish state message) r) :
    Conserves { self with states := seen ++ state :: rest } r := by
  obtain ⟨done, hfinished, hperm, hsub⟩ := h
  refine ⟨(state, message) :: done, ?_, ?_, ?_⟩
  · rw [hfinished]
    exact append_assoc _ _ _
  · exact perm_middle.trans ((hperm.cons state).trans perm_middle.symm)
  · exact hsub.trans ((sublist_cons_self state rest).append_left seen)

theorem acknowledgeFailedLoop_conserves (h : acknowledgeFailedLoop trb self rest = .ok r) :
    r.hci = self.hci ∧ Conserves { self with states := self.states ++ rest } r := by
  induction rest generalizing self with
  | nil => cases h
  | cons state rest ih =>
    unfold acknowledgeFailedLoop at h
    by_cases hisoch : state.isIsochOrVf = true
    · rw [if_pos hisoch] at h
      exact (ih h).imp_right .remove
    · rw [if_neg hisoch] at h
      by_cases hlast : rest.isEmpty = true
      · rw [if_pos hlast] at h
        cases h
        rw [isEmpty_iff.mp hlast]
        exact ⟨rfl, .refl _⟩
      · rw [if_neg hlast] at h
        have hconserves := ih h
        rwa [append_assoc] at hconserves

/-! ### When a dispatch returns -/

theorem acknowledgeFailedLoop_isOk : (∃ r, acknowledgeFailedLoop trb self rest = .ok r) ↔
    ∃ last, rest.getLast? = some last ∧ last.isIsochOrVf = false := by
  induction rest generalizing self with
  | nil => exact ⟨fun ⟨_, h⟩ => absurd h nofun, fun ⟨_, h, _⟩ => absurd h nofun⟩
  | cons state rest ih =>
    unfold acknowledgeFailedLoop
    cases rest with
    | nil =>
      by_cases hisoch : state.isIsochOrVf = true
      · simp [acknowledgeFailedLoop, hisoch]
      · simp [hisoch]
    | cons =>
      by_cases hisoch : state.isIsochOrVf = true
      · rw [if_pos hisoch]
        exact ih
      · rw [if_neg hisoch, if_neg (by simp)]
        exact ih

theorem acknowledgeLoop_take (self : Reactor) {hci : Hci} {message : Option NextEventTrb}
    (h : self.hci.verdict trb state = .ok (.take hci message)) :
    acknowledgeLoop trb self (state :: rest) =
      .ok ({ self with hci, states := self.states ++ rest }.finish state message) := by
  rw [acknowledgeLoop, h]
  rfl

/-- The search returns exactly if the first state that the event answers can be served. -/
theorem acknowledgeLoop_cases (self : Reactor) (trb : Trb) (fits : self.hci.CmdFits)
    (admits : ∀ state ∈ rest, self.hci.Admits state) : (∀ r, acknowledgeLoop trb self rest = .ok r →
      self.hci.SameLayout r.hci ∧ Conserves { self with states := self.states ++ rest } r) ∧
    ((∃ r, acknowledgeLoop trb self rest = .ok r) ↔
      ∀ state, rest.find? (·.answeredBy trb) = some state → self.hci.AnswerOk trb rest state) := by
  induction rest generalizing self with
  | nil =>
    refine ⟨?_, iff_of_true ⟨self, rfl⟩ nofun⟩
    rintro r ⟨⟩
    rw [append_nil]
    exact ⟨.refl _, .refl _⟩
  | cons state rest ih =>
    obtain ⟨hadmits, hrest⟩ := forall_mem_cons.mp admits
    have hjudged := Hci.judged_verdict trb fits hadmits
    simp only [acknowledgeLoop]
    generalize self.hci.verdict trb state = verdict at hjudged
    cases hjudged with
    | skip h =>
      have hlater : (∀ s, rest.find? (·.answeredBy trb) = some s →
          self.hci.AnswerOk trb (state :: rest) s) ↔
          ∀ s, rest.find? (·.answeredBy trb) = some s → self.hci.AnswerOk trb rest s :=
        forall₂_congr fun s hs => by
          obtain ⟨_, _, rfl⟩ := exists_cons_of_ne_nil (ne_nil_of_mem (mem_of_find?_eq_some hs))
          rw [Hci.AnswerOk, getLast?_cons_cons, Hci.AnswerOk]
      rw [find?_cons_of_neg (by simp [h]), hlater]
      split
      · have hih := ih (self.finish state (some ⟨trb, none⟩)) fits hrest
        exact ⟨fun r hr => (hih.1 r hr).imp_right .remove, hih.2⟩
      · have hih := ih { self with states := self.states ++ [state] } fits hrest
        rwa [append_assoc] at hih
    | take h layout hok =>
      refine ⟨?_, iff_of_true ⟨_, rfl⟩ ?_⟩
      · rintro r ⟨⟩
        exact ⟨layout, .remove (.refl _)⟩
      · rw [find?_cons_of_pos h]
        rintro s ⟨⟩
        exact hok _
    | fail h _ hok =>
      refine ⟨fun r hr => ?_, ?_⟩
      · obtain ⟨hhci, hconserves⟩ := acknowledgeFailedLoop_conserves hr
        exact ⟨hhci ▸ .refl _, hconserves⟩
      · change (∃ r, acknowledgeFailedLoop trb _ _ = .ok r) ↔ _
        simp only [find?_cons_of_pos h, some.injEq, forall_eq', hok, acknowledgeFailedLoop_isOk,
          getLast?_append_cons, getLast?_eq_some_getLast (cons_ne_nil state rest), exists_eq_left']
    | fault h hnot =>
      exact ⟨nofun, iff_of_false nofun fun hall => hnot _ (hall state (find?_cons_of_pos h))⟩

/-- States on live rings that the event does not answer are passed over. -/
theorem acknowledgeLoop_skip (self : Reactor) {seen : List State}
    (live : ∀ state ∈ seen, self.hci.onDeadRing state = false)
    (skipped : ∀ state ∈ seen, state.answeredBy trb = false) :
    acknowledgeLoop trb self (seen ++ rest) =
      acknowledgeLoop trb { self with states := self.states ++ seen } rest := by
  induction seen generalizing self with
  | nil => simp
  | cons state seen ih =>
    have hkeep := Hci.verdict_skip self.hci (skipped state mem_cons_self)
    rw [if_neg (by simp [live state mem_cons_self])] at hkeep
    rw [cons_append, acknowledgeLoop, hkeep, ok_bind, ih, append_assoc]
    · rfl
    · exact fun s hs => live s (mem_cons_of_mem _ hs)
    · exact fun s hs => skipped s (mem_cons_of_mem _ hs)

/-- On live rings the search comes to the first state that the event answers. -/
theorem acknowledgeLoop_split (self : Reactor) (trb : Trb)
    (live : ∀ state ∈ rest, self.hci.onDeadRing state = false) :
    (rest.find? (·.answeredBy trb) = none ∧
      acknowledgeLoop trb self rest = .ok { self with states := self.states ++ rest }) ∨
    ∃ before state after, rest = before ++ state :: after ∧
      rest.find? (·.answeredBy trb) = some state ∧ acknowledgeLoop trb self rest =
        acknowledgeLoop trb { self with states := self.states ++ before } (state :: after) := by
  cases hfind : rest.find? (·.answeredBy trb) with
  | none =>
    have hskip : acknowledgeLoop trb self (rest ++ []) = _ :=
      acknowledgeLoop_skip self live (by simpa using find?_eq_none.mp hfind)
    rw [append_nil] at hskip
    exact .inl ⟨rfl, hskip⟩
  | some state =>
    obtain ⟨-, before, after, rfl, hskip⟩ := find?_eq_some_iff_append.mp hfind
    refine .inr ⟨before, state, after, rfl, rfl, acknowledgeLoop_skip self ?_ (by simpa using hskip)⟩
    exact fun s hs => live s (mem_append_left _ hs)

/-- With live rings, an event that has a pointer finishes the first state it answers, and no
other one. -/
theorem acknowledgeLoop_finished (h : acknowledgeLoop trb self rest = .ok r)
    (fits : self.hci.CmdFits) (admits : ∀ state ∈ rest, self.hci.Admits state)
    (live : ∀ state ∈ rest, self.hci.onDeadRing state = false)
    (hptr : trb.transferEventTrbPointer ≠ none) : r.finished.map Prod.fst =
      self.finished.map Prod.fst ++ (rest.find? (·.answeredBy trb)).toList := by
  rcases acknowledgeLoop_split self trb live with
    ⟨hfind, hloop⟩ | ⟨before, state, after, -, hfind, hloop⟩
  · cases hloop.symm.trans h
    simp [hfind]
  · have hjudged := Hci.judged_verdict trb fits (admits state (mem_of_find?_eq_some hfind))
    obtain ⟨verdict, hverdict, h⟩ := bind_eq_ok.mp (hloop ▸ h)
    rw [show self.hci.verdict trb state = _ from hverdict] at hjudged
    cases hjudged with
    | skip hnot => exact absurd (find?_some hfind) (by simp [hnot])
    | take =>
      cases h
      simp [finish, hfind]
    | fail _ hnone => exact absurd hnone hptr

/-- If all states wait for commands, the event finishes the first one it answers, and clears
its TRB. -/
theorem acknowledge_commands (self : Reactor) (trb : Trb) (fits : self.hci.CmdFits)
    (commands : ∀ state ∈ self.states, ∃ i < self.hci.cmd.trbs.length,
      state.kind = .commandCompletion (self.hci.cmd.trbPhysPtr self.hci.ac64 i)) :
    (self.states.find? (·.answeredBy trb) = none ∧ self.acknowledge trb = .ok self) ∨
      ∃ before state after i message, self.states = before ++ state :: after ∧
        self.states.find? (·.answeredBy trb) = some state ∧
        self.acknowledge trb = .ok ({ self with
          hci := { self.hci with cmd := { self.hci.cmd with
            trbs := self.hci.cmd.trbs.modify i fun _ => .reserved false } }
          states := before ++ after }.finish state (some message)) := by
  have live : ∀ state ∈ self.states, self.hci.onDeadRing state = false := by
    intro state hstate
    obtain ⟨i, -, hkind⟩ := commands state hstate
    rw [Hci.onDeadRing, hkind]
  refine (acknowledgeLoop_split { self with states := [] } trb live).imp_right ?_
  rintro ⟨before, state, after, hsplit, hfind, hloop⟩
  obtain ⟨i, hi, hkind⟩ := commands state (mem_of_find?_eq_some hfind)
  have hverdict := Hci.verdict_command fits (getElem?_eq_getElem hi) hkind (find?_some hfind)
  exact ⟨before, state, after, i, _, hsplit, hfind, hloop.trans (acknowledgeLoop_take _ hverdict)⟩

/-- The condition on an event: a port status change names one of the ports, and the first
state that any other event answers can be served. -/
structure Dispatchable (hci : Hci) (states : List State) (trb : Trb) : Prop where
  port : trb.trbType = portStatusChange.toU8 → ∀ portNum,
    trb.portStatusChangePortId = some portNum →
      1 ≤ portNum.toNat ∧ portNum.toNat ≤ hci.ports.length
  answer : trb.trbType ≠ portStatusChange.toU8 → ∀ state,
    states.find? (·.answeredBy trb) = some state → hci.AnswerOk trb states state

variable {p : Profile}

/-- Port 0 is out of bounds in either profile, as there are at most 255 ports. -/
theorem handlePortStatusChange_isOk (ports : self.hci.ports.length ≤ 255) :
    (∃ r, self.handlePortStatusChange p trb = .ok r) ↔
      ∀ portNum, trb.portStatusChangePortId = some portNum →
        1 ≤ portNum.toNat ∧ portNum.toNat ≤ self.hci.ports.length := by
  unfold handlePortStatusChange
  cases hport : trb.portStatusChangePortId with
  | none => exact ⟨fun _ _ h => absurd h nofun, fun _ => ⟨self, rfl⟩⟩
  | some portNum =>
    simp only [some.injEq, forall_eq']
    constructor
    · rintro ⟨r, hr⟩
      obtain ⟨i, hsub, hr⟩ := bind_eq_ok.mp hr
      obtain ⟨ports', hmodify, -⟩ := bind_eq_ok.mp hr
      obtain ⟨-, rfl⟩ := Profile.sub_eq_ok.mp hsub
      have hi := (modifyAt_eq_ok.mp hmodify).1
      by_cases hzero : portNum = 0
      · rw [hzero] at hi
        have : ((0 : U8) - 1).toNat = 255 := rfl
        omega
      · bv_omega
    · rintro ⟨hpos, hle⟩
      have hsub : p.sub portNum 1 = .ok (portNum - 1) :=
        Profile.sub_eq_ok.mpr ⟨fun h => absurd h.2 (by bv_omega), rfl⟩
      exact ⟨_, bind_eq_ok.mpr ⟨_, hsub,
        bind_eq_ok.mpr ⟨_, modifyAt_eq_ok.mpr ⟨by bv_omega, rfl⟩, rfl⟩⟩⟩

theorem dispatch_isOk (ports : self.hci.ports.length ≤ 255) (fits : self.hci.CmdFits)
    (admits : ∀ state ∈ self.states, self.hci.Admits state) :
    (∃ r, self.dispatch p trb = .ok r) ↔ Dispatchable self.hci self.states trb := by
  unfold dispatch
  by_cases htype : trb.trbType = portStatusChange.toU8
  · rw [if_pos htype, handlePortStatusChange_isOk ports]
    exact ⟨fun h => ⟨fun _ => h, absurd htype⟩, fun h => h.port htype⟩
  · rw [if_neg htype, acknowledge, (acknowledgeLoop_cases { self with states := [] } trb fits admits).2]
    exact ⟨fun h => ⟨fun ht => absurd ht htype, fun _ => h⟩, fun h => h.answer htype⟩

/-- A dispatch leaves the layout alone, and removes no state without finishing it. -/
theorem dispatch_conserves (h : self.dispatch p trb = .ok r) (fits : self.hci.CmdFits)
    (admits : ∀ state ∈ self.states, self.hci.Admits state) :
    self.hci.SameLayout r.hci ∧ Conserves self r := by
  unfold dispatch handlePortStatusChange at h
  split at h
  · split at h
    · obtain ⟨i, -, h⟩ := bind_eq_ok.mp h
      obtain ⟨ports, hports, h⟩ := bind_eq_ok.mp h
      obtain ⟨-, rfl⟩ := modifyAt_eq_ok.mp hports
      cases h
      exact ⟨⟨rfl, rfl, rfl, length_modify ..⟩, .refl _⟩
    · cases h
      exact ⟨.refl _, .refl _⟩
  · exact (acknowledgeLoop_cases { self with states := [] } trb fits admits).1 r h

/-- **When a dispatch is safe.** The dispatch of an event returns, with every state either
kept in order or removed and finished once, exactly if the event is dispatchable: a port
status change names one of the ports; the pointer of a transfer event is not right behind
the live ring of the first transfer it is in; and an event without a pointer does not
meet a transfer while the last state of all is isochronous. -/
theorem dispatch_conserves_iff (p : Profile) (self : Reactor) (trb : Trb)
    (ports : self.hci.ports.length ≤ 255) (fits : self.hci.CmdFits)
    (admits : ∀ state ∈ self.states, self.hci.Admits state) :
    (∃ r, self.dispatch p trb = .ok r ∧ Conserves self r) ↔
      Dispatchable self.hci self.states trb := by
  rw [← dispatch_isOk ports fits admits]
  constructor
  · rintro ⟨r, h, -⟩
    exact ⟨r, h⟩
  · rintro ⟨r, h⟩
    exact ⟨r, h, (dispatch_conserves h fits admits).2⟩

/-- A controller with one device, which has one endpoint with a ring of 16 TRBs. -/
def oneEndpoint : Hci where
  ac64 := true
  cmd := .new 0x1000 16 true
  portStates port := if port = 1 then
    some ⟨fun endpoint => if endpoint = 3 then some (.ring (.new 0x2000 16 true)) else none⟩ else none
  ports := [0, 0]

/-- A reactor in which one transfer on that endpoint is pending. -/
def onePending (isIsochOrVf : Bool) : Reactor :=
  ⟨oneEndpoint, [⟨0, .transfer 0x2000 0x2010 ⟨1, 3, 1⟩, 0, isIsochOrVf⟩], [], []⟩

/-- A Transfer Event with the code Ring Underrun. -/
def ringUnderrun : Trb := .set 0 (14 <<< 24) (32 <<< 10)

theorem dispatch_conserves_iff_bulk : (onePending false).hci.CmdFits ∧
    Dispatchable oneEndpoint (onePending false).states ringUnderrun ∧
    ∃ r, (onePending false).dispatch .debug ringUnderrun = .ok r ∧
      Conserves (onePending false) r := by
  have fits : (onePending false).hci.CmdFits := by
    unfold Hci.CmdFits
    decide
  have admits : ∀ state ∈ (onePending false).states, oneEndpoint.Admits state := by
    intro state hstate physPtr hkind
    rw [mem_singleton.mp hstate] at hkind
    cases hkind
  have dispatchable : Dispatchable oneEndpoint (onePending false).states ringUnderrun := by
    refine ⟨fun h => absurd h (by decide), fun _ state hstate => ?_⟩
    obtain rfl := some.inj hstate
    intro last hlast
    obtain rfl := some.inj hlast
    rfl
  exact ⟨fits, dispatchable,
    (dispatch_conserves_iff .debug (onePending false) ringUnderrun (by decide) fits admits).mpr
      dispatchable⟩

/-- A Port Status Change Event for port 0, with the code Success. -/
def portZeroChange : Trb := .set 0 (1 <<< 24) (34 <<< 10)

/-- The broadcast looks at the first state again after it has removed the only one; and
ports are counted from 1. -/
theorem underrun_and_port_zero_panic :
    (onePending true).dispatch .debug ringUnderrun = .error .outOfBounds ∧
      (onePending true).dispatch .release ringUnderrun = .error .outOfBounds ∧
      (onePending false).dispatch .debug portZeroChange = .error .overflow ∧
      (onePending false).dispatch .release portZeroChange = .error .outOfBounds :=
  ⟨rfl, rfl, rfl, rfl⟩

end Reactor

end RedoxDrivers.Xhci
