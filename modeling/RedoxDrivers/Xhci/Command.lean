import RedoxDrivers.Xhci.Calls

/-!
The completion protocol of `execute_command`, over all interleavings of any number of
tasks, the reactor and the controller.

A task writes its TRB under the lock of the command ring and registers with the reactor
when its future is first polled, before it rings the doorbell. The doorbell and the ring
are shared, though: the doorbell of one task lets the controller run the TRB of another
one that has not registered yet. `noLost_iff_matched` gives the exact condition for no
completion to be lost, and derives it from two rules that the driver does not enforce:
the controller fetches a TRB only after its task has registered, and a slot is reused
only after its last user is done and all of its registrations are gone.
-/

namespace RedoxDrivers.Xhci.Command

open Lib List Option Function Reactor

/-- Where the future of a task is. -/
inductive Phase where
  /-- Never polled. -/
  | created
  /-- In its first poll: the state is sent, the doorbell not yet rung. -/
  | sending
  /-- `Poll::Pending`. -/
  | waiting
  /-- `Poll::Ready`. -/
  | finished
deriving DecidableEq, Repr

/-- A task that runs `execute_command`. `consumed` says that the reactor has handled the
completion event of its TRB. -/
structure Task where
  slot : Nat
  kind : StateKind
  phase : Phase
  message : Option NextEventTrb
  consumed : Bool
deriving DecidableEq, Repr

/-- A completion event, and the task whose TRB the controller had fetched. -/
structure Event where
  trb : Trb
  owner : Option Nat
deriving DecidableEq, Repr

/-- Where the reactor is in a round of its loop. -/
inductive Stage where
  | idle
  | taken (event : Event)
  | drained (event : Event)
  | acknowledged
deriving DecidableEq, Repr

/-- `owner` names the task whose TRB lies at an address of the command ring, until the TRB is
cleared. Tasks are named by their position, which also names their message cell. -/
structure System where
  reactor : Reactor
  irqReceiver : List State
  stage : Stage
  events : List Event
  reader : Reader
  doorbell : Bool
  tasks : List Task
  owner : U64 → Option Nat

/-- The controller has been told the register of the command ring. -/
def System.start (hci : Hci) : System :=
  ⟨⟨hci, [], [], []⟩, [], .idle, [], .ofRegister hci.cmd.register, false, [], fun _ => none⟩

inductive Move where
  /-- A new task writes its TRB and creates its future, under the lock of the ring. -/
  | write (f : Store)
  /-- `EventTrbFuture::poll`, up to the doorbell. -/
  | poll (t : Nat)
  /-- The end of a first poll. -/
  | ring (t : Nat)
  /-- The controller looks for the next command, and completes it with a code. -/
  | process (code : TrbCompletionCode)
  /-- The reactor finds an event. -/
  | take
  /-- `handle_requests`. -/
  | drain
  | acknowledge
  /-- The reactor clears the slot of the event. -/
  | clear

/-- A Command Completion Event for the TRB at an address. -/
def completionEvent (address : U64) (code : TrbCompletionCode) : Trb :=
  .set address (code.toU8.setWidth 32 <<< 24) (TrbType.commandCompletion.toU8.setWidth 32 <<< 10)

/-- The codes that a command can complete with. -/
def Completes (code : TrbCompletionCode) : Prop :=
  code ∉ [.invalid, .ringUnderrun, .ringOverrun, .vfEventRingFull]

instance (code : TrbCompletionCode) : Decidable (Completes code) :=
  inferInstanceAs (Decidable (code ∉ _))

theorem completionEvent_pointer (address : U64) {code : TrbCompletionCode} (h : Completes code) :
    (completionEvent address code).trbType = TrbType.commandCompletion.toU8 ∧
      (completionEvent address code).completionTrbPointer =
        some (completionEvent address code).readData := by
  constructor
  · simp only [completionEvent, Trb.trbType, Trb.set_control]
    decide
  · have hcode : (completionEvent address code).completionCode = code.toU8 :=
      Trb.completionCode_set _ _ _
    have hpointer : (completionEvent address code).hasCompletionTrbPointer = true := by
      rw [Trb.hasCompletionTrbPointer, hcode]
      revert h
      cases code <;> decide
    rw [Trb.completionTrbPointer, if_pos hpointer]

namespace System

/-- `*self.message.lock().unwrap() = message` -/
def deliver (tasks : List Task) (finished : State × Option NextEventTrb) : List Task :=
  tasks.modify finished.1.message ({ · with message := finished.2 })

def consume (tasks : List Task) : Option Nat → List Task
  | some t => tasks.modify t ({ · with consumed := true })
  | none => tasks

def step (s : System) : Move → Option System
  | .write f => do
    let (td, cmd) ← (executeCommand s.reactor.hci.ac64 s.reactor.hci.cmd f).toOption
    let slot ← td.slots.head?
    return { s with
      reactor := { s.reactor with hci := { s.reactor.hci with cmd } }
      tasks := s.tasks ++ [⟨slot, td.kind, .created, none, false⟩]
      owner := Function.update s.owner (Ring.slotAddr cmd.base slot) (some s.tasks.length) }
  | .poll t => do
    let task ← s.tasks[t]?
    if task.phase = .created ∨ task.phase = .waiting then
      match task.message with
      | some _ => return { s with
          tasks := s.tasks.set t { task with phase := .finished, message := none } }
      | none => return { s with
          irqReceiver := s.irqReceiver ++ [⟨t, task.kind, t, false⟩]
          tasks := s.tasks.set t
            { task with phase := if task.phase = .created then .sending else .waiting } }
    else none
  | .ring t => do
    let task ← s.tasks[t]?
    if task.phase = .sending then
      return { s with doorbell := true, tasks := s.tasks.set t { task with phase := .waiting } }
    else none
  | .process code =>
    if s.doorbell ∧ Completes code then
      match s.reader.fetch s.reactor.hci.cmd with
      | some (_, reader) => some { s with
          reader
          events := s.events ++ [⟨completionEvent (reader.dequeue - 16) code,
            s.owner (reader.dequeue - 16)⟩] }
      | none => some { s with doorbell := false }
    else none
  | .take => match s.stage, s.events with
      | .idle, event :: _ => some { s with stage := .taken event }
      | _, _ => none
  | .drain => match s.stage with
      | .taken event => some { s with
          reactor := { s.reactor with states := s.reactor.states ++ s.irqReceiver }
          irqReceiver := [], stage := .drained event }
      | _ => none
  | .acknowledge => match s.stage with
      | .drained event => do
        let reactor ← ({ s.reactor with finished := [] }.acknowledge event.trb).toOption
        return { s with
          reactor, stage := .acknowledged
          tasks := consume (reactor.finished.foldl deliver s.tasks) event.owner
          owner := if reactor.finished.isEmpty then s.owner
            else Function.update s.owner event.trb.readData none }
      | _ => none
  | .clear => match s.stage with
      | .acknowledged => some { s with stage := .idle, events := s.events.tail }
      | _ => none

/-- No task waits for a command whose completion event has been handled without giving the
task its message. -/
def NoLost (s : System) : Prop :=
  ∀ task ∈ s.tasks, task.phase ≠ .finished → task.consumed = true → task.message ≠ none

/-! ### What each move does -/

variable {s s' : System} {base : U64} {n : Nat}

/-- The slot that the next command takes. -/
def nextSlot (s : System) : Nat := s.reactor.hci.cmd.i % (s.reactor.hci.cmd.trbs.length - 1)

theorem step_write (usable : s.reactor.hci.cmd.Usable) {f : Store}
    (h : s.step (.write f) = some s') :
    ∃ cmd, cmd.Usable ∧ s.reactor.hci.cmd.SamePlace cmd ∧ s' = { s with
      reactor := { s.reactor with hci := { s.reactor.hci with cmd } }
      tasks := s.tasks ++ [⟨s.nextSlot, .commandCompletion
        (s.reactor.hci.cmd.trbPhysPtr s.reactor.hci.ac64 s.nextSlot), .created, none, false⟩]
      owner := update s.owner (Ring.slotAddr cmd.base s.nextSlot)
        (some s.tasks.length) } := by
  obtain ⟨⟨td, cmd⟩, hcommand, h⟩ := bind_eq_some_iff.mp h
  obtain ⟨slot, hslot, h⟩ := bind_eq_some_iff.mp h
  obtain ⟨hslots, hkind, usable', place⟩ :=
    Call.executeCommand_eq_ok usable (toOption_eq_some.mp hcommand)
  obtain rfl : s.nextSlot = slot := by
    rw [hslots] at hslot
    exact some.inj hslot
  cases h
  exact ⟨cmd, usable', place, by rw [hkind]; rfl⟩

/-- A poll takes the message, or sends the state once more. -/
theorem step_poll {t : Nat} (h : s.step (.poll t) = some s') :
    ∃ task, s.tasks[t]? = some task ∧ task.phase ≠ .finished ∧
      ((task.message ≠ none ∧ s' = { s with
          tasks := s.tasks.set t { task with phase := .finished, message := none } }) ∨
        task.message = none ∧ ∃ phase, phase ≠ .created ∧ phase ≠ .finished ∧ s' = { s with
          irqReceiver := s.irqReceiver ++ [⟨t, task.kind, t, false⟩]
          tasks := s.tasks.set t { task with phase } }) := by
  obtain ⟨task, htask, h⟩ := bind_eq_some_iff.mp h
  refine ⟨task, htask, ?_⟩
  split at h
  · rename_i hphase
    refine ⟨by rcases hphase with h | h <;> simp [h], ?_⟩
    cases hmessage : task.message with
    | some =>
      rw [hmessage] at h
      cases h
      exact .inl ⟨nofun, rfl⟩
    | none =>
      rw [hmessage] at h
      cases h
      refine .inr ⟨rfl, _, ?_, ?_, rfl⟩
      all_goals split <;> decide
  · cases h

theorem step_ring {t : Nat} (h : s.step (.ring t) = some s') :
    ∃ task, s.tasks[t]? = some task ∧ task.phase = .sending ∧ s' = { s with
      doorbell := true, tasks := s.tasks.set t { task with phase := .waiting } } := by
  obtain ⟨task, htask, h⟩ := bind_eq_some_iff.mp h
  split at h
  · rename_i hphase
    cases h
    exact ⟨task, htask, hphase, rfl⟩
  · cases h

/-- The controller posts an event for the TRB it fetched, or goes to sleep. -/
theorem step_process {code : TrbCompletionCode} (h : s.step (.process code) = some s') :
    Completes code ∧ ((∃ trb reader, s.reader.fetch s.reactor.hci.cmd = some (trb, reader) ∧
      s' = { s with
        reader
        events := s.events ++ [⟨completionEvent (reader.dequeue - 16) code,
          s.owner (reader.dequeue - 16)⟩] }) ∨ s' = { s with doorbell := false }) := by
  simp only [step] at h
  split at h
  · rename_i hguard
    refine ⟨hguard.2, ?_⟩
    split at h
    · rename_i trb reader hfetch
      cases h
      exact .inl ⟨trb, reader, hfetch, rfl⟩
    · cases h
      exact .inr rfl
  · cases h

theorem step_take (h : s.step .take = some s') :
    ∃ event rest, s.events = event :: rest ∧ s' = { s with stage := .taken event } := by
  simp only [step] at h
  split at h
  · rename_i event rest _ hevents
    cases h
    exact ⟨event, rest, hevents, rfl⟩
  · cases h

theorem step_drain (h : s.step .drain = some s') : ∃ event, s.stage = .taken event ∧ s' = { s with
      reactor := { s.reactor with states := s.reactor.states ++ s.irqReceiver }
      irqReceiver := [], stage := .drained event } := by
  simp only [step] at h
  split at h
  · rename_i event hstage
    cases h
    exact ⟨event, hstage, rfl⟩
  · cases h

theorem step_clear (h : s.step .clear = some s') :
    s' = { s with stage := .idle, events := s.events.tail } := by
  simp only [step] at h
  split at h
  · cases h
    rfl
  · cases h

/-! ### The invariant of every run -/

/-- The slot of each task, and what it registers. -/
def places (tasks : List Task) : List (Nat × StateKind) :=
  tasks.map fun task => (task.slot, task.kind)

/-- Tasks and registrations have addresses of the command ring, and events point to it. -/
structure Inv (base : U64) (n : Nat) (s : System) : Prop where
  usable : s.reactor.hci.cmd.Usable
  atBase : s.reactor.hci.cmd.base = base
  length : s.reactor.hci.cmd.trbs.length = n
  reachable : s.reactor.hci.cmd.physBase s.reactor.hci.ac64 = base
  fits : base.toNat + 16 * n ≤ 2 ^ 64
  slots : ∀ slot kind, (slot, kind) ∈ places s.tasks →
    slot < n ∧ kind = .commandCompletion (Ring.slotAddr base slot)
  known : ∀ state ∈ s.reactor.states ++ s.irqReceiver,
    ∃ slot, (places s.tasks)[state.message]? = some (slot, state.kind)
  events : ∀ event ∈ s.events, event.trb.trbType = TrbType.commandCompletion.toU8 ∧
    event.trb.completionTrbPointer = some event.trb.readData
  current : ∀ event, s.stage = .taken event ∨ s.stage = .drained event → event ∈ s.events

section

variable (inv : Inv base n s)

include inv

theorem Inv.cmdFits : s.reactor.hci.CmdFits := by
  unfold Hci.CmdFits
  rw [inv.reachable, inv.length]
  exact inv.fits

theorem Inv.nextSlot_lt : s.nextSlot < n := by
  have htwo := inv.usable.two
  have hlt := Nat.mod_lt s.reactor.hci.cmd.i (show 0 < s.reactor.hci.cmd.trbs.length - 1 by omega)
  have hlen := inv.length
  unfold nextSlot
  omega

theorem Inv.trbPhysPtr (i : Nat) :
    s.reactor.hci.cmd.trbPhysPtr s.reactor.hci.ac64 i = Ring.slotAddr base i := by
  rw [Ring.trbPhysPtr, inv.reachable]

theorem Inv.commands {state : State} (h : state ∈ s.reactor.states) :
    ∃ i < s.reactor.hci.cmd.trbs.length,
      state.kind = .commandCompletion (s.reactor.hci.cmd.trbPhysPtr s.reactor.hci.ac64 i) := by
  obtain ⟨slot, hplace⟩ := inv.known state (mem_append_left _ h)
  obtain ⟨hslot, hkind⟩ := inv.slots slot state.kind (mem_of_getElem? hplace)
  rw [← inv.length] at hslot
  exact ⟨slot, hslot, by rw [inv.trbPhysPtr, hkind]⟩

/-- An acknowledge finds no state for the event, or finishes the first one it finds. -/
theorem Inv.step_acknowledge (h : s.step .acknowledge = some s') :
    ∃ event, s.stage = .drained event ∧
      ((s.reactor.states.find? (·.answeredBy event.trb) = none ∧ s' = { s with
          reactor := { s.reactor with finished := [] }, stage := .acknowledged
          tasks := consume s.tasks event.owner }) ∨
        ∃ before state after i message, s.reactor.states = before ++ state :: after ∧
          s.reactor.states.find? (·.answeredBy event.trb) = some state ∧ s' = { s with
            reactor := { s.reactor with
              hci := { s.reactor.hci with cmd := { s.reactor.hci.cmd with
                trbs := s.reactor.hci.cmd.trbs.modify i fun _ => .reserved false } }
              states := before ++ after, finished := [(state, some message)] }
            stage := .acknowledged
            tasks := consume (deliver s.tasks (state, some message)) event.owner
            owner := update s.owner event.trb.readData none }) := by
  simp only [step] at h
  split at h
  · rename_i event hstage
    obtain ⟨reactor, hreactor, h⟩ := bind_eq_some_iff.mp h
    have hok := toOption_eq_some.mp hreactor
    refine ⟨event, hstage, ?_⟩
    rcases acknowledge_commands { s.reactor with finished := [] } event.trb inv.cmdFits
        fun state => inv.commands with
      ⟨hnone, hsame⟩ | ⟨before, state, after, i, message, hsplit, hfind, htaken⟩
    · cases hsame.symm.trans hok
      cases h
      exact .inl ⟨hnone, rfl⟩
    · cases htaken.symm.trans hok
      cases h
      exact .inr ⟨before, state, after, i, message, hsplit, hfind, rfl⟩
  · cases h

end

section Places

variable {tasks : List Task} {task task' : Task} {t : Nat}

theorem places_set (h : tasks[t]? = some task) (hslot : task'.slot = task.slot)
    (hkind : task'.kind = task.kind) : places (tasks.set t task') = places tasks := by
  refine ext_getElem? fun u => ?_
  unfold places
  rw [getElem?_map, getElem?_map]
  by_cases hu : t = u
  · rw [← hu, List.getElem?_set_self (List.getElem?_eq_some_iff.mp h).1, h]
    simp [hslot, hkind]
  · rw [getElem?_set_ne hu]

theorem places_modify {f : Task → Task} (hslot : ∀ task, (f task).slot = task.slot)
    (hkind : ∀ task, (f task).kind = task.kind) : places (tasks.modify t f) = places tasks := by
  refine ext_getElem? fun u => ?_
  unfold places
  rw [getElem?_map, getElem?_map]
  by_cases hu : t = u
  · rw [hu, getElem?_modify_eq]
    cases tasks[u]? with
    | none => rfl
    | some => simp [hslot, hkind]
  · rw [getElem?_modify_ne _ _ hu]

theorem places_consume (owner : Option Nat) : places (consume tasks owner) = places tasks := by
  cases owner with
  | none => rfl
  | some => exact places_modify (fun _ => rfl) fun _ => rfl

theorem places_deliver (finished : State × Option NextEventTrb) :
    places (deliver tasks finished) = places tasks :=
  places_modify (fun _ => rfl) fun _ => rfl

theorem places_getElem? (h : tasks[t]? = some task) :
    (places tasks)[t]? = some (task.slot, task.kind) := by
  simp [places, h]

end Places

section

variable (inv : Inv base n s)

include inv

/-- The invariant sees the slots and the kinds of the tasks only. -/
theorem Inv.retask {tasks : List Task} (hplaces : places tasks = places s.tasks) :
    Inv base n { s with tasks } := by
  refine { inv with slots := ?_, known := ?_ }
  · rw [hplaces]
    exact inv.slots
  · rw [hplaces]
    exact inv.known

/-- A task that is there sends its state. -/
theorem Inv.send {t : Nat} {task : Task} (htask : s.tasks[t]? = some task) :
    Inv base n { s with irqReceiver := s.irqReceiver ++ [⟨t, task.kind, t, false⟩] } := by
  refine { inv with known := ?_ }
  intro state hstate
  rw [← append_assoc] at hstate
  rcases mem_append.mp hstate with hold | hnew
  · exact inv.known state hold
  · rw [mem_singleton.mp hnew]
    exact ⟨task.slot, places_getElem? htask⟩

theorem Inv.write {f : Store} (h : s.step (.write f) = some s') : Inv base n s' := by
  obtain ⟨cmd, usable, place, rfl⟩ := step_write inv.usable h
  have hplaces : places (s.tasks ++ [⟨s.nextSlot, .commandCompletion
      (s.reactor.hci.cmd.trbPhysPtr s.reactor.hci.ac64 s.nextSlot), .created, none, false⟩]) =
      places s.tasks ++ [(s.nextSlot, .commandCompletion (Ring.slotAddr base s.nextSlot))] := by
    simp [places, inv.trbPhysPtr]
  refine { inv with
    usable
    atBase := place.base.trans inv.atBase
    length := place.length.trans inv.length
    reachable := ?_, slots := ?_, known := ?_ }
  · have hreachable := inv.reachable
    unfold Ring.physBase at hreachable ⊢
    rw [place.base]
    exact hreachable
  · intro slot kind hmem
    rw [hplaces] at hmem
    rcases mem_append.mp hmem with hold | hnew
    · exact inv.slots slot kind hold
    · cases mem_singleton.mp hnew
      exact ⟨inv.nextSlot_lt, rfl⟩
  · intro state hstate
    obtain ⟨slot, hslot⟩ := inv.known state hstate
    refine ⟨slot, ?_⟩
    rw [hplaces, List.getElem?_append_left (List.getElem?_eq_some_iff.mp hslot).1]
    exact hslot

/-- An acknowledge clears a TRB and finishes a state, or does neither. -/
theorem Inv.acknowledge (h : s.step .acknowledge = some s') : Inv base n s' := by
  obtain ⟨event, -, ⟨-, rfl⟩ | ⟨before, state, after, i, message, hsplit, -, rfl⟩⟩ :=
    inv.step_acknowledge h
  · have hconsume := inv.retask (places_consume event.owner)
    refine { hconsume with current := ?_ }
    rintro event' (⟨⟨⟩⟩ | ⟨⟨⟩⟩)
  · have hdeliver := inv.retask (places_deliver (state, some message))
    have hconsume := hdeliver.retask (places_consume event.owner)
    refine { hconsume with
      usable := ⟨inv.usable.isLink, ?_, ?_⟩, length := ?_, known := ?_, current := ?_ }
    · simpa using inv.usable.two
    · simpa using inv.usable.index
    · simpa using inv.length
    · intro state' hstate'
      apply hconsume.known state'
      rw [hsplit]
      have hsub : (before ++ after).Sublist (before ++ state :: after) :=
        (sublist_cons_self state after).append_left before
      exact (hsub.append_right s.irqReceiver).subset hstate'
    · rintro event' (⟨⟨⟩⟩ | ⟨⟨⟩⟩)

/-- **Every move keeps the invariant.** -/
theorem Inv.step {move : Move} (h : s.step move = some s') : Inv base n s' := by
  cases move with
  | write => exact inv.write h
  | poll =>
    obtain ⟨task, htask, -, ⟨-, rfl⟩ | ⟨-, phase, -, -, rfl⟩⟩ := step_poll h
    · exact inv.retask (places_set htask rfl rfl)
    · exact (inv.send htask).retask (places_set htask rfl rfl)
  | ring =>
    obtain ⟨task, htask, -, rfl⟩ := step_ring h
    have hrung : Inv base n { s with doorbell := true } := { inv with }
    exact hrung.retask (places_set htask rfl rfl)
  | process =>
    obtain ⟨hcode, ⟨trb, reader, -, rfl⟩ | rfl⟩ := step_process h
    · refine { inv with events := ?_, current := ?_ }
      · intro event hevent
        rcases mem_append.mp hevent with hold | hnew
        · exact inv.events event hold
        · rw [mem_singleton.mp hnew]
          exact completionEvent_pointer _ hcode
      · exact fun event hstage => mem_append_left _ (inv.current event hstage)
    · exact { inv with }
  | take =>
    obtain ⟨event, rest, hevents, rfl⟩ := step_take h
    refine { inv with current := ?_ }
    rintro event' (⟨⟨⟩⟩ | ⟨⟨⟩⟩)
    rw [hevents]
    exact mem_cons_self
  | drain =>
    obtain ⟨event, hstage, rfl⟩ := step_drain h
    refine { inv with known := ?_, current := ?_ }
    · intro state hstate
      rw [append_nil] at hstate
      exact inv.known state hstate
    · rintro event' (⟨⟨⟩⟩ | ⟨⟨⟩⟩)
      exact inv.current event (.inl hstage)
  | acknowledge => exact inv.acknowledge h
  | clear =>
    obtain rfl := step_clear h
    refine { inv with events := ?_, current := ?_ }
    · exact fun event hevent => inv.events event (mem_of_mem_tail hevent)
    · rintro event' (⟨⟨⟩⟩ | ⟨⟨⟩⟩)

/-! ### The exact condition -/

end

/-- When the reactor acknowledges the event of a task that still waits for its message, the
first state it finds for the event is that of the task. -/
def Matched (s : System) : Move → Prop
  | .acknowledge => ∀ event t task, s.stage = .drained event → event.owner = some t →
      s.tasks[t]? = some task → task.phase ≠ .finished → task.message = none →
      ∃ state, s.reactor.states.find? (·.answeredBy event.trb) = some state ∧ state.message = t
  | _ => True

section Tasks

variable {tasks : List Task} {task task' : Task} {t u : Nat}

theorem getElem?_consume (owner : Option Nat) : (consume tasks owner)[u]? =
    tasks[u]?.map fun task => { task with consumed := task.consumed || owner == some u } := by
  cases owner with
  | none => simp [consume]
  | some t =>
    unfold consume
    by_cases hu : t = u
    · simp [hu]
    · rw [getElem?_modify_ne _ _ hu]
      simp [beq_eq_false_iff_ne.mpr hu]

theorem getElem?_deliver (finished : State × Option NextEventTrb) :
    (deliver tasks finished)[u]? = tasks[u]?.map fun task =>
      if finished.1.message = u then { task with message := finished.2 } else task := by
  unfold deliver
  by_cases hu : finished.1.message = u
  all_goals simp [hu]

end Tasks

theorem noLost_def : NoLost s ↔ ∀ (u : Nat) task, s.tasks[u]? = some task → task.phase ≠ .finished →
    task.consumed = true → task.message ≠ none := by
  constructor
  · exact fun h u task htask => h task (mem_of_getElem? htask)
  · intro h task htask
    obtain ⟨u, hu⟩ := mem_iff_getElem?.mp htask
    exact h u task hu

/-- A delivery takes no message away. -/
theorem noLost_deliver (noLost : NoLost s) (state : State) (message : NextEventTrb) :
    NoLost { s with tasks := deliver s.tasks (state, some message) } := by
  rw [noLost_def] at noLost ⊢
  simp only [getElem?_deliver, map_eq_some_iff]
  rintro u - ⟨task, htask, rfl⟩
  by_cases hu : state.message = u
  · rw [if_pos hu]
    exact fun _ _ => nofun
  · rw [if_neg hu]
    exact noLost u task htask

/-- Handling an event loses nothing exactly if the event's task has its message. -/
theorem noLost_consume {event : Event} (noLost : NoLost s) (hs' : s'.tasks =
    consume s.tasks event.owner) :
    NoLost s' ↔ ∀ t task, event.owner = some t → s.tasks[t]? = some task →
      task.phase ≠ .finished → task.message ≠ none := by
  rw [noLost_def] at noLost ⊢
  rw [hs']
  simp only [getElem?_consume, map_eq_some_iff]
  constructor
  · intro h t task howner htask hphase
    exact h t { task with consumed := task.consumed || event.owner == some t }
      ⟨task, htask, rfl⟩ hphase (by simp [howner])
  · rintro h u - ⟨task, htask, rfl⟩ hphase hconsumed
    rcases Bool.or_eq_true_iff.mp hconsumed with hold | hnew
    · exact noLost u task htask hphase hold
    · exact h u task (by simpa using hnew) htask hphase

/-- A task that is done, has its message or whose event is still to come loses nothing. -/
theorem noLost_set (noLost : NoLost s) (t : Nat) {task : Task}
    (h : task.phase ≠ .finished → task.consumed = true → task.message ≠ none) :
    NoLost { s with tasks := s.tasks.set t task } := by
  intro task' htask'
  rcases mem_or_eq_of_mem_set htask' with hold | rfl
  · exact noLost task' hold
  · exact h

/-- The state that is finished has to be that of the event's task. -/
theorem Inv.noLost_acknowledge (inv : Inv base n s) (noLost : NoLost s)
    (h : s.step .acknowledge = some s') : NoLost s' ↔ Matched s .acknowledge := by
  obtain ⟨event, hstage, ⟨hnone, rfl⟩ | ⟨before, state, after, i, message, -, hfind, rfl⟩⟩ :=
    inv.step_acknowledge h
  · rw [noLost_consume noLost rfl]
    constructor
    · intro hlost event' t task hstage' howner htask hphase hmessage
      cases hstage.symm.trans hstage'
      exact absurd hmessage (hlost t task howner htask hphase)
    · intro hmatched t task howner htask hphase hmessage
      obtain ⟨state, hstate, -⟩ := hmatched event t task hstage howner htask hphase hmessage
      cases hnone.symm.trans hstate
  · have hdeliver := noLost_deliver noLost state message
    rw [noLost_consume hdeliver rfl]
    simp only [getElem?_deliver, map_eq_some_iff]
    constructor
    · intro hlost event' t task hstage' howner htask hphase hmessage
      cases hstage.symm.trans hstage'
      refine ⟨state, hfind, ?_⟩
      by_contra hother
      apply hlost t task howner ⟨task, htask, ?_⟩ hphase hmessage
      rw [if_neg hother]
    · rintro hmatched t - howner ⟨task, htask, rfl⟩
      by_cases ht : state.message = t
      · rw [if_pos ht]
        exact fun _ => nofun
      · rw [if_neg ht]
        intro hphase hmessage
        obtain ⟨state', hfind', rfl⟩ :=
          hmatched event t task hstage howner htask hphase hmessage
        cases hfind.symm.trans hfind'
        exact ht rfl

/-- **One step.** From a state in which nothing is lost, a move loses nothing exactly if it
is matched. -/
theorem Inv.noLost_step (inv : Inv base n s) (noLost : NoLost s) {move : Move}
    (h : s.step move = some s') : NoLost s' ↔ Matched s move := by
  cases move with
  | write =>
    obtain ⟨cmd, -, -, rfl⟩ := step_write inv.usable h
    refine iff_of_true ?_ trivial
    intro task htask hphase hconsumed
    rcases mem_append.mp htask with hold | hnew
    · exact noLost task hold hphase hconsumed
    · rw [mem_singleton.mp hnew] at hconsumed
      cases hconsumed
  | poll t =>
    refine iff_of_true ?_ trivial
    obtain ⟨task, htask, hphase, ⟨-, rfl⟩ | ⟨-, phase, -, -, rfl⟩⟩ := step_poll h
    · exact noLost_set noLost t fun h => absurd rfl h
    · have hset : NoLost { s with tasks := s.tasks.set t { task with phase } } :=
        noLost_set noLost t fun _ => noLost task (mem_of_getElem? htask) hphase
      exact hset
  | ring t =>
    obtain ⟨task, htask, hphase, rfl⟩ := step_ring h
    have hunfinished : task.phase ≠ .finished := by simp [hphase]
    have hset : NoLost { s with tasks := s.tasks.set t { task with phase := .waiting } } :=
      noLost_set noLost t fun _ => noLost task (mem_of_getElem? htask) hunfinished
    exact iff_of_true hset trivial
  | process =>
    obtain ⟨-, ⟨trb, reader, -, rfl⟩ | rfl⟩ := step_process h
    all_goals exact iff_of_true noLost trivial
  | take =>
    obtain ⟨event, rest, -, rfl⟩ := step_take h
    exact iff_of_true noLost trivial
  | drain =>
    obtain ⟨event, -, rfl⟩ := step_drain h
    exact iff_of_true noLost trivial
  | acknowledge => exact inv.noLost_acknowledge noLost h
  | clear =>
    obtain rfl := step_clear h
    exact iff_of_true noLost trivial

/-! ### Two rules that suffice -/

/-- A slot is written to only when the tasks that used it are done and none of their
registrations are left, and the controller fetches the TRB of a task only when the
task has sent its state. -/
def Prompt (s : System) : Move → Prop
  | .write _ => (∀ task ∈ s.tasks, task.slot = s.nextSlot → task.phase = .finished) ∧
      ∀ state ∈ s.reactor.states ++ s.irqReceiver, state.kind ≠ .commandCompletion
        (s.reactor.hci.cmd.trbPhysPtr s.reactor.hci.ac64 s.nextSlot)
  | .process _ => ∀ trb reader t task, s.reader.fetch s.reactor.hci.cmd = some (trb, reader) →
      s.owner (reader.dequeue - 16) = some t → s.tasks[t]? = some task → task.phase ≠ .created
  | _ => True

/-- Under these rules the tasks that are not done have distinct slots, a registration for
the address of such a task is its own, and a task whose event has been posted is
registered; when the requests are drained, it is among the reactor's states. -/
structure Orderly (base : U64) (s : System) : Prop where
  distinct : ∀ (t u : Nat) task task', s.tasks[t]? = some task → s.tasks[u]? = some task' →
    task.phase ≠ .finished → task'.phase ≠ .finished → task.slot = task'.slot → t = u
  unique : ∀ (t : Nat) task, s.tasks[t]? = some task → task.phase ≠ .finished →
    ∀ state ∈ s.reactor.states ++ s.irqReceiver, state.kind = task.kind → state.message = t
  registered : ∀ (t : Nat) task, s.tasks[t]? = some task → task.phase ≠ .created →
    task.phase ≠ .finished → task.message = none →
    ∃ state ∈ s.reactor.states ++ s.irqReceiver, state.message = t
  owned : ∀ address t, s.owner address = some t →
    ∃ task, s.tasks[t]? = some task ∧ address = Ring.slotAddr base task.slot
  posted : ∀ event ∈ s.events, ∀ t, event.owner = some t → ∃ task, s.tasks[t]? = some task ∧
    task.phase ≠ .created ∧ event.trb.readData = Ring.slotAddr base task.slot
  ready : ∀ event (t : Nat) task, s.stage = .drained event → event.owner = some t →
    s.tasks[t]? = some task → task.phase ≠ .finished → task.message = none →
    ∃ state ∈ s.reactor.states, state.message = t

theorem Inv.task_kind (inv : Inv base n s) {t : Nat} {task : Task} (h : s.tasks[t]? = some task) :
    task.slot < n ∧ task.kind = .commandCompletion (Ring.slotAddr base task.slot) :=
  inv.slots task.slot task.kind (mem_of_getElem? (places_getElem? h))

/-- An event answers the registrations for the address it points to. -/
theorem Inv.answeredBy_iff (inv : Inv base n s) {event : Event} (hevent : event ∈ s.events)
    {state : State} {address : U64} (hkind : state.kind = .commandCompletion address) :
    state.answeredBy event.trb = true ↔ event.trb.readData = address := by
  obtain ⟨htype, hpointer⟩ := inv.events event hevent
  simp [State.answeredBy, hkind, htype, hpointer]

section

variable (ord : Orderly base s)

include ord

/-- The event of a task that waits for its message finds the state of the task. -/
theorem Orderly.matched (inv : Inv base n s) : Matched s .acknowledge := by
  intro event t task hstage howner htask hphase hmessage
  have hevent := inv.current event (.inr hstage)
  obtain ⟨-, hkind⟩ := inv.task_kind htask
  have hpointer : event.trb.readData = Ring.slotAddr base task.slot := by
    obtain ⟨task', htask', -, hpointer⟩ := ord.posted event hevent t howner
    cases htask.symm.trans htask'
    exact hpointer
  obtain ⟨own, hown, rfl⟩ := ord.ready event t task hstage howner htask hphase hmessage
  have hownKind : own.kind = .commandCompletion (Ring.slotAddr base task.slot) := by
    obtain ⟨slot, hplace⟩ := inv.known own (mem_append_left _ hown)
    rw [places_getElem? htask] at hplace
    exact (congrArg Prod.snd (some.inj hplace)).symm.trans hkind
  cases hfind : s.reactor.states.find? (·.answeredBy event.trb) with
  | none =>
    have hnot := find?_eq_none.mp hfind own hown
    exact absurd ((inv.answeredBy_iff hevent hownKind).mpr hpointer) hnot
  | some state =>
    have hmem : state ∈ s.reactor.states := mem_of_find?_eq_some hfind
    obtain ⟨i, -, hstateKind⟩ := inv.commands hmem
    have haddress := (inv.answeredBy_iff hevent hstateKind).mp (find?_some hfind)
    refine ⟨state, rfl, ord.unique own.message task htask hphase state
      (mem_append_left _ hmem) ?_⟩
    rw [hstateKind, hkind, ← haddress, hpointer]

/-- A task that is not done sends its state. -/
theorem Orderly.send (inv : Inv base n s) {t : Nat} {task : Task}
    (htask : s.tasks[t]? = some task) (hphase : task.phase ≠ .finished) :
    Orderly base { s with irqReceiver := s.irqReceiver ++ [⟨t, task.kind, t, false⟩] } := by
  refine { ord with unique := ?_, registered := ?_ }
  · intro u task' htask' hphase' state hstate hkind
    rw [← append_assoc] at hstate
    rcases mem_append.mp hstate with hold | hnew
    · exact ord.unique u task' htask' hphase' state hold hkind
    · -- Tasks with the same address have the same slot.
      obtain ⟨hslot, htaskKind⟩ := inv.task_kind htask
      obtain ⟨hslot', htaskKind'⟩ := inv.task_kind htask'
      rw [mem_singleton.mp hnew, htaskKind, htaskKind'] at hkind
      have hsame := Ring.slotAddr_inj inv.fits hslot hslot' (StateKind.commandCompletion.inj hkind)
      rw [mem_singleton.mp hnew]
      exact ord.distinct t u task task' htask htask' hphase hphase' hsame
  · intro u task' htask' hcreated hphase' hmessage
    obtain ⟨state, hstate, hown⟩ := ord.registered u task' htask' hcreated hphase' hmessage
    refine ⟨state, ?_, hown⟩
    rw [← append_assoc]
    exact mem_append_left _ hstate

/-- Tasks that stay in their slots, and registrations of which only those go that are not needed. -/
theorem Orderly.map {g : Nat → Task → Task} (htasks : ∀ u, s'.tasks[u]? = s.tasks[u]?.map (g u))
    (hg : ∀ u task, s.tasks[u]? = some task →
      (g u task).slot = task.slot ∧ (g u task).kind = task.kind ∧
      ((g u task).phase ≠ .finished → task.phase ≠ .finished) ∧
      (task.phase ≠ .created → (g u task).phase ≠ .created))
    (hstates : ∀ state ∈ s'.reactor.states ++ s'.irqReceiver, state ∈ s.reactor.states ++ s.irqReceiver)
    (howner : ∀ address t, s'.owner address = some t → s.owner address = some t)
    (hevents : s'.events = s.events)
    (registered : ∀ u task, s.tasks[u]? = some task → (g u task).phase ≠ .created →
      (g u task).phase ≠ .finished → (g u task).message = none →
      ∃ state ∈ s'.reactor.states ++ s'.irqReceiver, state.message = u)
    (ready : ∀ event u task, s'.stage = .drained event → event.owner = some u →
      s.tasks[u]? = some task → (g u task).phase ≠ .finished → (g u task).message = none →
      ∃ state ∈ s'.reactor.states, state.message = u) : Orderly base s' := by
  have hback : ∀ {u task}, s'.tasks[u]? = some task → ∃ old, s.tasks[u]? = some old ∧
      g u old = task := fun {u task} hu => map_eq_some_iff.mp ((htasks u).symm.trans hu)
  have hforth : ∀ {u old}, s.tasks[u]? = some old → s'.tasks[u]? = some (g u old) :=
    fun {u old} hu => by rw [htasks, hu]; rfl
  constructor
  · intro t u task task' ht hu hphase hphase' hslot
    obtain ⟨old, hold, rfl⟩ := hback ht
    obtain ⟨old', hold', rfl⟩ := hback hu
    obtain ⟨hsame, -, hunf, -⟩ := hg t old hold
    obtain ⟨hsame', -, hunf', -⟩ := hg u old' hold'
    exact ord.distinct t u old old' hold hold' (hunf hphase) (hunf' hphase')
      (hsame.symm.trans (hslot.trans hsame'))
  · intro t task ht hphase state hstate hkind
    obtain ⟨old, hold, rfl⟩ := hback ht
    obtain ⟨-, hsame, hunf, -⟩ := hg t old hold
    exact ord.unique t old hold (hunf hphase) state (hstates state hstate) (hkind.trans hsame)
  · intro t task ht
    obtain ⟨old, hold, rfl⟩ := hback ht
    exact registered t old hold
  · intro address t haddress
    obtain ⟨old, hold, hslot⟩ := ord.owned address t (howner address t haddress)
    exact ⟨g t old, hforth hold, (hg t old hold).1 ▸ hslot⟩
  · intro event hevent t hevt
    rw [hevents] at hevent
    obtain ⟨old, hold, hcreated, hpointer⟩ := ord.posted event hevent t hevt
    obtain ⟨hsame, -, -, hkeep⟩ := hg t old hold
    exact ⟨g t old, hforth hold, hkeep hcreated, hsame ▸ hpointer⟩
  · intro event t task hstage hevt ht
    obtain ⟨old, hold, rfl⟩ := hback ht
    exact ready event t old hstage hevt hold

/-- The future of a task that is not done, and registered if it waits, moves on. -/
theorem Orderly.update {t : Nat} {task : Task} (htask : s.tasks[t]? = some task)
    (hphase : task.phase ≠ .finished) {phase : Phase} {message : Option NextEventTrb}
    (hcreated : phase ≠ .created) (hmessage : phase ≠ .finished → message = task.message)
    (hregistered : phase ≠ .finished → message = none →
      ∃ state ∈ s.reactor.states ++ s.irqReceiver, state.message = t) :
    Orderly base { s with tasks := s.tasks.set t { task with phase, message } } := by
  refine ord.map (g := fun u old => if u = t then { task with phase, message } else old) ?_ ?_
    (fun _ => id) (fun _ _ => id) rfl ?_ ?_
  · intro u
    by_cases hu : t = u
    · subst hu
      simp [(List.getElem?_eq_some_iff.mp htask).1]
    · simp [hu, Ne.symm hu]
  · intro u old hold
    by_cases hu : u = t
    · subst hu
      cases htask.symm.trans hold
      simp [hphase, hcreated]
    · simp [hu]
  · intro u old hold
    by_cases hu : u = t
    · subst hu
      simpa using fun _ => hregistered
    · simpa [hu] using ord.registered u old hold
  · intro event u old hstage howner hold
    by_cases hu : u = t
    · subst hu
      cases htask.symm.trans hold
      simp only [if_true]
      intro hunf hnone
      exact ord.ready event u task hstage howner htask hphase (hmessage hunf ▸ hnone)
    · simpa [hu] using ord.ready event u old hstage howner hold

/-- A new task in a slot that nobody uses. -/
theorem Orderly.write (inv : Inv base n s) {f : Store} (prompt : Prompt s (.write f))
    (h : s.step (.write f) = some s') : Orderly base s' := by
  obtain ⟨cmd, -, place, rfl⟩ := step_write inv.usable h
  obtain ⟨hfree, hunregistered⟩ := prompt
  rw [inv.trbPhysPtr, place.base, inv.atBase]
  rw [inv.trbPhysPtr] at hunregistered
  have hold : ∀ {t : Nat} {task : Task} (new : Task), s.tasks[t]? = some task →
      (s.tasks ++ [new])[t]? = some task := fun new htask =>
    (List.getElem?_append_left (List.getElem?_eq_some_iff.mp htask).1).trans htask
  constructor
  · intro t u task task' ht hu hphase hphase' hslot
    rcases getElem?_push ht with ⟨-, htold⟩ | ⟨rfl, rfl⟩
    · rcases getElem?_push hu with ⟨-, huold⟩ | ⟨rfl, rfl⟩
      · exact ord.distinct t u task task' htold huold hphase hphase' hslot
      · exact absurd (hfree task (mem_of_getElem? htold) hslot) hphase
    · rcases getElem?_push hu with ⟨-, huold⟩ | ⟨rfl, rfl⟩
      · exact absurd (hfree task' (mem_of_getElem? huold) hslot.symm) hphase'
      · rfl
  · intro t task ht hphase state hstate hkind
    rcases getElem?_push ht with ⟨-, htold⟩ | ⟨rfl, rfl⟩
    · exact ord.unique t task htold hphase state hstate hkind
    · exact absurd hkind (hunregistered state hstate)
  · intro t task ht hcreated hphase hmessage
    rcases getElem?_push ht with ⟨-, htold⟩ | ⟨rfl, rfl⟩
    · exact ord.registered t task htold hcreated hphase hmessage
    · exact absurd rfl hcreated
  · intro address t howner
    change Function.update s.owner _ _ address = some t at howner
    by_cases haddress : address = Ring.slotAddr base s.nextSlot
    · rw [haddress, update_self] at howner
      cases howner
      exact ⟨_, getElem?_concat_length, haddress⟩
    · rw [update_of_ne haddress] at howner
      obtain ⟨task, htask, hslot⟩ := ord.owned address t howner
      exact ⟨task, hold _ htask, hslot⟩
  · intro event hevent t howner
    obtain ⟨task, htask, hcreated, hpointer⟩ := ord.posted event hevent t howner
    exact ⟨task, hold _ htask, hcreated, hpointer⟩
  · intro event t task hstage howner ht hphase hmessage
    rcases getElem?_push ht with ⟨-, htold⟩ | ⟨rfl, rfl⟩
    · exact ord.ready event t task hstage howner htold hphase hmessage
    · -- The event was posted before the task was there.
      obtain ⟨task', htask', -⟩ := ord.posted event (inv.current event (.inr hstage)) _ howner
      simp at htask'

/-- An acknowledge takes away at most the registration of a task that it gives a message. -/
theorem Orderly.acknowledge (inv : Inv base n s) (h : s.step .acknowledge = some s') :
    Orderly base s' := by
  obtain ⟨event, -, ⟨-, rfl⟩ | ⟨before, state, after, i, message, hsplit, -, rfl⟩⟩ :=
    inv.step_acknowledge h
  · exact ord.map (fun u => getElem?_consume event.owner) (fun _ _ _ => ⟨rfl, rfl, id, id⟩)
      (fun _ => id) (fun _ _ => id) rfl ord.registered
      fun _ _ _ hstage => nomatch hstage
  · refine ord.map (g := fun u task => { (if state.message = u then
      { task with message := some message } else task) with
        consumed := (if state.message = u then
          { task with message := some message } else task).consumed || event.owner == some u })
      ?_ ?_ ?_ ?_ rfl ?_ fun _ _ _ hstage => nomatch hstage
    · intro u
      rw [getElem?_consume, getElem?_deliver, Option.map_map]
      rfl
    · intro u task _
      by_cases hu : state.message = u
      all_goals simp [hu]
    · intro state' hstate'
      rw [hsplit]
      simp only [mem_append, mem_cons] at hstate' ⊢
      tauto
    · intro address t howner
      change Function.update s.owner _ _ address = some t at howner
      by_cases haddress : address = event.trb.readData
      · rw [haddress, update_self] at howner
        cases howner
      · rwa [update_of_ne haddress] at howner
    · intro u task htask hcreated hphase hmessage
      have hu : state.message ≠ u := by
        rintro rfl
        simp at hmessage
      simp only [if_neg hu] at hcreated hphase hmessage
      obtain ⟨state', hstate', rfl⟩ := ord.registered u task htask hcreated hphase hmessage
      refine ⟨state', ?_, rfl⟩
      rw [hsplit] at hstate'
      simp only [mem_append, mem_cons] at hstate' ⊢
      tauto

/-- **Prompt moves keep the order.** -/
theorem Orderly.step (inv : Inv base n s) {move : Move} (prompt : Prompt s move)
    (h : s.step move = some s') : Orderly base s' := by
  cases move with
  | write => exact ord.write inv prompt h
  | poll t =>
    obtain ⟨task, htask, hphase, ⟨-, rfl⟩ | ⟨hmessage, phase, hcreated, hphase', rfl⟩⟩ :=
      step_poll h
    · exact ord.update htask hphase nofun (fun h => absurd rfl h) fun h => absurd rfl h
    · have hsent := ord.send inv htask hphase
      exact hsent.update htask hphase hcreated (fun _ => rfl) fun _ _ =>
        ⟨⟨t, task.kind, t, false⟩, by simp, rfl⟩
  | ring t =>
    obtain ⟨task, htask, hphase, rfl⟩ := step_ring h
    have hrung : Orderly base { s with doorbell := true } := { ord with }
    have hunfinished : task.phase ≠ .finished := by simp [hphase]
    exact hrung.update htask hunfinished (by decide) (fun _ => rfl) fun _ =>
      ord.registered t task htask (by simp [hphase]) hunfinished
  | process =>
    obtain ⟨-, ⟨trb, reader, hfetch, rfl⟩ | rfl⟩ := step_process h
    · refine { ord with posted := ?_ }
      intro event hevent t howner
      rcases mem_append.mp hevent with hold | hnew
      · exact ord.posted event hold t howner
      · rw [mem_singleton.mp hnew] at howner ⊢
        obtain ⟨task, htask, haddress⟩ := ord.owned _ t howner
        exact ⟨task, htask, prompt trb reader t task hfetch howner htask,
          (Trb.readData_set _ _ _).trans haddress⟩
    · exact { ord with }
  | take =>
    obtain ⟨event, rest, -, rfl⟩ := step_take h
    exact { ord with ready := fun _ _ _ hstage => nomatch hstage }
  | drain =>
    obtain ⟨event, hstage, rfl⟩ := step_drain h
    refine { ord with unique := ?_, registered := ?_, ready := ?_ }
    · rw [append_nil]
      exact ord.unique
    · rw [append_nil]
      exact ord.registered
    · rintro event' t task ⟨⟩ howner htask hphase hmessage
      obtain ⟨task', htask', hcreated, -⟩ :=
        ord.posted event (inv.current event (.inl hstage)) t howner
      cases htask.symm.trans htask'
      exact ord.registered t task htask hcreated hphase hmessage
  | acknowledge => exact ord.acknowledge inv h
  | clear =>
    obtain rfl := step_clear h
    exact { ord with
      posted := fun event hevent => ord.posted event (mem_of_mem_tail hevent)
      ready := fun _ _ _ hstage => nomatch hstage }

/-! ### Whole runs -/

end

variable {hci : Hci}

theorem start_getElem? (t : Nat) : (start hci).tasks[t]? = none := rfl

theorem start_orderly : Orderly base (start hci) where
  distinct t _ _ _ h := nomatch (start_getElem? t).symm.trans h
  unique t _ h := nomatch (start_getElem? t).symm.trans h
  registered t _ h := nomatch (start_getElem? t).symm.trans h
  owned _ _ h := nomatch h
  posted _ h := nomatch h
  ready _ _ _ hstage := nomatch hstage

/-- The invariant of the runs that lose nothing. -/
structure Sound (base : U64) (n : Nat) (s : System) : Prop where
  inv : Inv base n s
  noLost : NoLost s

/-- The invariant of the runs whose moves are prompt. -/
structure Regular (base : U64) (n : Nat) (s : System) : Prop where
  inv : Inv base n s
  orderly : Orderly base s

theorem Regular.matched (regular : Regular base n s) (move : Move) : Matched s move := by
  cases move with
  | acknowledge => exact regular.orderly.matched regular.inv
  | _ => trivial

/-- **When no completion is lost.** In every interleaving of tasks that execute commands, the
reactor and the controller: no state has a task that waits for a command whose event has
been handled, exactly if each event is acknowledged with the state of its own task as the
first one found. This is so if the controller fetches the TRB of a task only after the task
has sent its state, and slots are reused only when their last users are done and
unregistered. -/
theorem noLost_iff_matched (hci : Hci) (usable : hci.cmd.Usable)
    (fits : hci.cmd.base.toNat + 16 * hci.cmd.trbs.length ≤ 2 ^ 64)
    (reachable : hci.cmd.physBase hci.ac64 = hci.cmd.base) (moves : List Move) (s : System)
    (h : run System.step (start hci) moves = some s) :
    (Throughout System.step (start hci) NoLost moves ↔
      Along System.step (start hci) Matched moves) ∧
    (Along System.step (start hci) Prompt moves →
      Throughout System.step (start hci) NoLost moves) := by
  have init : Inv hci.cmd.base hci.cmd.trbs.length (start hci) := by
    refine ⟨usable, rfl, rfl, reachable, fits, nofun, nofun, nofun, ?_⟩
    rintro event (⟨⟨⟩⟩ | ⟨⟨⟩⟩)
  have none_lost : NoLost (start hci) := fun task htask => nomatch htask
  have sound : Sound hci.cmd.base hci.cmd.trbs.length (start hci) := ⟨init, none_lost⟩
  have regular : Regular hci.cmd.base hci.cmd.trbs.length (start hci) := ⟨init, start_orderly⟩
  have exact_iff := throughout_iff_along sound none_lost
    (fun _ _ _ sound hmatched hstep =>
      ⟨sound.inv.step hstep, (sound.inv.noLost_step sound.noLost hstep).mpr hmatched⟩)
    (fun _ _ _ sound hstep => sound.inv.noLost_step sound.noLost hstep) h
  refine ⟨exact_iff, fun hprompt => exact_iff.mpr ?_⟩
  exact along_of_along regular
    (fun _ _ _ regular prompt hstep =>
      ⟨regular.inv.step hstep, regular.orderly.step regular.inv prompt hstep⟩)
    (fun _ move _ regular _ _ => regular.matched move) h hprompt

/-- Storing a No Op command. -/
def storeNoOp : Store := fun _ cycle => .noOpCmd cycle

/-- One task executes a command, and the reactor hands it the event. -/
def oneTask : List Move :=
  [.write storeNoOp, .poll 0, .ring 0, .process .success] ++
    [.take, .drain, .acknowledge, .clear, .poll 0]

theorem oneTask_prompt : Along step (start oneEndpoint) Prompt oneTask := by
  have hwrite : Along step (start oneEndpoint) Prompt ([] ++ [.write storeNoOp]) := by
    refine along_snoc.mpr ⟨along_nil, fun s hs => ?_⟩
    cases hs
    exact ⟨fun _ h => absurd h not_mem_nil, fun _ h => absurd h not_mem_nil⟩
  have hring : Along step (start oneEndpoint) Prompt
      ([.write storeNoOp] ++ [.poll 0] ++ [.ring 0]) :=
    along_snoc.mpr ⟨along_snoc.mpr ⟨hwrite, fun _ _ => trivial⟩, fun _ _ => trivial⟩
  have hrest : ∀ s, Along step s Prompt [.take, .drain, .acknowledge, .clear, .poll 0] := by
    simp [along_cons, along_nil, Prompt]
  refine along_append.mpr ⟨?_, fun s _ => hrest s⟩
  refine (along_snoc (e := .process .success)).mpr ⟨hring, ?_⟩
  intro s hs trb reader t task _ _ htask
  have htasks : s.tasks = [⟨0, .commandCompletion 0x1000, .waiting, none, false⟩] := by
    cases hs
    rfl
  rw [htasks] at htask
  rw [mem_singleton.mp (mem_of_getElem? htask)]
  decide

theorem noLost_iff_matched_one_task : ∃ s, run step (start oneEndpoint) oneTask = some s ∧
    Throughout step (start oneEndpoint) NoLost oneTask := by
  have along := fun s h => (noLost_iff_matched oneEndpoint ⟨rfl, by decide, by decide⟩
    (by decide) (by decide) oneTask s h).2 oneTask_prompt
  exact ⟨_, rfl, along _ rfl⟩

/-- The doorbell of the second task lets the controller run the command of the first one,
which has not sent its state yet, and waits in vain when it has. -/
theorem early_completion_lost : ∃ s,
    run step (start oneEndpoint) [.write storeNoOp, .write storeNoOp, .poll 1, .ring 1,
      .process .success, .take, .drain, .acknowledge, .clear, .poll 0, .ring 0] = some s ∧
    s.tasks[0]? = some ⟨0, .commandCompletion 0x1000, .waiting, none, true⟩ ∧ s.events = [] :=
  ⟨_, rfl, rfl, rfl⟩

end System

end RedoxDrivers.Xhci.Command
