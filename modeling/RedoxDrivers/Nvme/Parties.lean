import RedoxDrivers.Nvme.CqReactor

/-!
Completion futures, the controller and the reactor, one action at a time
(`storage/nvmed/src/nvme/cq_reactor.rs`).

This is a finer view of the parties than `System`: there are several submission queues, each
with its lock, and what a future does in `poll` and the reactor does with an entry happens one
action at a time, so that the actions of the others fall between them.

`Move` says once what a step can do; `step_move` takes a step apart.
-/

namespace RedoxDrivers.Nvme.Wakeup

open Lib Function Option

/-- A command or an entry with the future it is for. The memory of a queue starts out with
commands that no future has written. -/
structure Tagged (α : Type) where
  item : α
  owner : Option FutureId
deriving DecidableEq, Repr, Inhabited

inductive Holder where
  | future (f : FutureId)
  | reactor
deriving DecidableEq, Repr

structure SubmissionQueue where
  cqId : CqId
  queue : NvmeCmdQueue (Tagged NvmeCmd)
  /-- The tail that the controller has been told. -/
  doorbell : U16
  /-- The next slot the controller fetches. -/
  fetchHead : U16
  lock : Option Holder

/-- Where a future is: between two polls (`pendingSubmission`, `pendingCompletion`,
`finished`) or at an action of `poll`. -/
inductive Place where
  | pendingSubmission (cmdInit : CmdInit)
  /-- Waits for the lock. -/
  | locking (cmdInit : CmdInit)
  /-- Has the lock, and has not asked `is_full` yet. -/
  | locked (cmdInit : CmdInit)
  /-- Has found the queue full, and sends a request next. -/
  | full (cmdInit : CmdInit)
  /-- Has sent it, and gives the lock back next. -/
  | asked (cmdInit : CmdInit)
  /-- Has written its command, and sends a request next. -/
  | written (cmdId : CmdId)
  /-- Has sent it, and rings the doorbell next. -/
  | requested (cmdId : CmdId)
  /-- Gives the lock back next. -/
  | rung (cmdId : CmdId)
  | pendingCompletion (cmdId : CmdId)
  /-- Looks at its message next. -/
  | looking (cmdId : CmdId)
  /-- Has found no message, and sends a request next. -/
  | missed (cmdId : CmdId)
  | finished

namespace Place

/-- The places between taking the lock of the queue and giving it back. -/
def Holding : Place → Prop
  | .locked _ | .full _ | .asked _ | .written _ | .requested _ | .rung _ => True
  | _ => False

/-- The command is in its slot and the doorbell has not been rung. -/
def Writing : Place → Prop
  | .written _ | .requested _ => True
  | _ => False

/-- The future has sent a request for the completion of this command. -/
def sentId? : Place → Option CmdId
  | .requested id | .rung id | .pendingCompletion id | .looking id | .missed id => some id
  | _ => none

/-- The future has sent a request for the completion of `cmdId`, or is done. -/
def Sent : Place → CmdId → Prop
  | .requested id, cmdId | .rung id, cmdId | .pendingCompletion id, cmdId | .looking id, cmdId
  | .missed id, cmdId => id = cmdId
  | .finished, _ => True
  | _, _ => False

theorem Sent.cases {place : Place} {cmdId : CmdId} (h : place.Sent cmdId) :
    place.sentId? = some cmdId ∨ place = .finished := by
  cases place with
  | requested | rung | pendingCompletion | looking | missed => exact .inl (congrArg some h)
  | finished => exact .inr rfl
  | pendingSubmission | locking | locked | full | asked | written => exact h.elim

/-- The future has sent a request for a free entry. -/
def Waiting : Place → Prop
  | .asked _ | .pendingSubmission _ => True
  | _ => False

end Place

/-- Where the reactor is with the entry it has taken off a completion queue. -/
inductive ReactorPlace where
  | idle
  /-- Takes the lock of the entry's submission queue next. -/
  | took (cqId : CqId) (p : Tagged NvmeComp)
  /-- Has the lock, and stores the head next. -/
  | locked (cqId : CqId) (p : Tagged NvmeComp)
  /-- Has stored the head, and drains the channel. -/
  | draining (cqId : CqId) (p : Tagged NvmeComp)
  /-- Has given the lock back; `try_notify_futures` is at index `i`. -/
  | notifying (cqId : CqId) (p : Tagged NvmeComp) (i : Nat)
  /-- Has removed a request at `i` and filled its message, and wakes the task next. -/
  | waking (cqId : CqId) (p : Tagged NvmeComp) (i : Nat) (waker : FutureId)
deriving DecidableEq, Repr

namespace ReactorPlace

def entry? : ReactorPlace → Option (CqId × Tagged NvmeComp)
  | .idle => none
  | .took cqId p | .locked cqId p | .draining cqId p | .notifying cqId p _ | .waking cqId p _ _ =>
    some (cqId, p)

/-- The entry for which the reactor has the lock. -/
def lockedFor? : ReactorPlace → Option (Tagged NvmeComp)
  | .locked _ p | .draining _ p => some p
  | _ => none

/-- The entry for which the reactor goes over its list, and how far it has come. -/
def notifying? : ReactorPlace → Option (Tagged NvmeComp × Nat)
  | .notifying _ p i | .waking _ p i _ => some (p, i)
  | _ => none

/-- The entry whose head the reactor has stored. -/
def answering? : ReactorPlace → Option (Tagged NvmeComp)
  | .draining _ p | .notifying _ p _ | .waking _ p _ _ => some p
  | _ => none

def waking? : ReactorPlace → Option FutureId
  | .waking _ _ _ waker => some waker
  | _ => none

end ReactorPlace

/-- `sqId f` is the queue that the future `f` submits to.

`stores`, `asked` and `taken` are there for the statements: how often the reactor has stored a
head in a queue, how often it had when a future last found its queue full, and the entries that
the reactor has taken. -/
structure State where
  sqId : FutureId → SqId
  sqs : SqId → SubmissionQueue
  cqs : CqId → List (Tagged NvmeComp)
  executing : List (SqId × Tagged NvmeCmd)
  channel : List NotifReq
  pendingReqs : List PendingReq
  reactor : ReactorPlace
  places : FutureId → Place
  cells : Cells
  stores : SqId → Nat
  asked : FutureId → Option Nat
  taken : List (Tagged NvmeComp)

namespace State

def start (cqId : SqId → CqId) (sqId : FutureId → SqId) (init : FutureId → CmdInit) : State where
  sqId := sqId
  sqs := fun q => { cqId := cqId q, queue := .new, doorbell := 0, fetchHead := 0, lock := none }
  cqs := fun _ => []
  executing := []
  channel := []
  pendingReqs := []
  reactor := .idle
  places := fun f => .pendingSubmission (init f)
  cells := { message := fun _ => none, woken := fun _ => false }
  stores := fun _ => 0
  asked := fun _ => none
  taken := []

section

variable (s : State) (f : FutureId)

/-- The queue of the future `f`. -/
def sq : SubmissionQueue := s.sqs (s.sqId f)

def moveTo (place : Place) : State :=
  { s with places := update s.places f place }

def setSq (q : SqId) (sq : SubmissionQueue) : State :=
  { s with sqs := update s.sqs q sq }

def setMessage (message : Option NvmeComp) : State :=
  { s with cells := { s.cells with message := update s.cells.message f message } }

def setWoken (woken : Bool) : State :=
  { s with cells := { s.cells with woken := update s.cells.woken f woken } }

def send (req : NotifReq) : State := { s with channel := s.channel ++ [req] }

/-! ### Futures -/

/-- A poll takes back the wakeup that led to it. -/
def beginSubmit (cmdInit : CmdInit) : State :=
  { (s.setWoken f false).moveTo f (.locking cmdInit) with
    asked := update s.asked f none }

def lock (cmdInit : CmdInit) : State :=
  (s.setSq (s.sqId f) { s.sq f with lock := some (.future f) }).moveTo f (.locked cmdInit)

def unlock (place : Place) : State :=
  (s.setSq (s.sqId f) { s.sq f with lock := none }).moveTo f place

def findFull (cmdInit : CmdInit) : State :=
  { s.moveTo f (.full cmdInit) with
    asked := update s.asked f (some (s.stores (s.sqId f))) }

def askAvail (cmdInit : CmdInit) : State :=
  (s.send (.requestAvailSubmission (s.sqId f) f)).moveTo f (.asked cmdInit)

/-- Writes the command and makes the message cell. -/
def write (cmdInit : CmdInit) : State :=
  let cmdId := (s.sq f).queue.tail
  ((s.setSq (s.sqId f)
      { s.sq f with
        queue := ((s.sq f).queue.submitUnchecked ⟨cmdInit.run cmdId, some f⟩).2 }).setMessage
      f none).moveTo f (.written cmdId)

/-- Sends `RequestCompletion`, when it submits and when it finds no message. -/
def request (cmdId : CmdId) (place : Place) : State :=
  (s.send (.requestCompletion (s.sq f).cqId (s.sqId f) cmdId f f)).moveTo f place

/-- The lock is still held, so the tail is the one `submit_unchecked` has returned. -/
def ring (cmdId : CmdId) : State :=
  (s.setSq (s.sqId f) { s.sq f with doorbell := (s.sq f).queue.tail }).moveTo f (.rung cmdId)

def beginLook (cmdId : CmdId) : State :=
  (s.setWoken f false).moveTo f (.looking cmdId)

def finish : State := (s.setMessage f none).moveTo f .finished

/-- The next action of the future `f`. It is not enabled while somebody else has the lock it
waits for; a finished future is not polled again. -/
def advance : Option State :=
  match s.places f with
  | .pendingSubmission cmdInit => some (s.beginSubmit f cmdInit)
  | .locking cmdInit => if (s.sq f).lock = none then some (s.lock f cmdInit) else none
  | .locked cmdInit =>
    some (if (s.sq f).queue.isFull then s.findFull f cmdInit else s.write f cmdInit)
  | .full cmdInit => some (s.askAvail f cmdInit)
  | .asked cmdInit => some (s.unlock f (.pendingSubmission cmdInit))
  | .written cmdId => some (s.request f cmdId (.requested cmdId))
  | .requested cmdId => some (s.ring f cmdId)
  | .rung cmdId => some (s.unlock f (.pendingCompletion cmdId))
  | .pendingCompletion cmdId => some (s.beginLook f cmdId)
  | .looking cmdId =>
    match s.cells.message f with
    | some _ => some (s.finish f)
    | none => some (s.moveTo f (.missed cmdId))
  | .missed cmdId => some (s.request f cmdId (.pendingCompletion cmdId))
  | .finished => none

/-! ### The controller -/

def fetched (q : SqId) (c : Tagged NvmeCmd) : State :=
  { s.setSq q { s.sqs q with
      fetchHead := ((s.sqs q).fetchHead + 1) % BitVec.ofNat 16 (s.sqs q).queue.data.length } with
    executing := s.executing ++ [(q, c)] }

/-- The controller fetches the next command of a queue, if it has been told of one. -/
def fetch (q : SqId) : Option State :=
  if (s.sqs q).fetchHead = (s.sqs q).doorbell then none
  else ((s.sqs q).queue.data[(s.sqs q).fetchHead.toNat]?).map (s.fetched q)

def posted (i : Nat) (q : SqId) (c : Tagged NvmeCmd) (commandSpecific : U32)
    (status : U16) : State :=
  let cqId := (s.sqs q).cqId
  let entry : NvmeComp :=
    { commandSpecific, sqHead := (s.sqs q).fetchHead, sqId := q, cid := c.item.cid, status }
  { s with
    executing := s.executing.eraseIdx i
    cqs := update s.cqs cqId (s.cqs cqId ++ [⟨entry, c.owner⟩]) }

/-- The controller completes one of the commands it has fetched. -/
def post (i : Nat) (commandSpecific : U32) (status : U16) : Option State :=
  (s.executing[i]?).map fun c => s.posted i c.1 c.2 commandSpecific status

/-! ### The reactor -/

def receiveOne (req : NotifReq) (rest : List NotifReq) : State :=
  { s with pendingReqs := s.pendingReqs ++ [req.toPending], channel := rest }

/-- A request is received at the head of the reactor's loop. -/
def receive : Option State :=
  match s.reactor, s.channel with
  | .idle, req :: rest => some (s.receiveOne req rest)
  | _, _ => none

def takeEntry (cqId : CqId) (p : Tagged NvmeComp) (rest : List (Tagged NvmeComp)) : State :=
  { s with
    cqs := update s.cqs cqId rest
    reactor := .took cqId p
    taken := s.taken ++ [p] }

def take (cqId : CqId) : Option State :=
  match s.reactor, s.cqs cqId with
  | .idle, p :: rest => some (s.takeEntry cqId p rest)
  | _, _ => none

def lockSq (cqId : CqId) (p : Tagged NvmeComp) : State :=
  { s.setSq p.item.sqId { s.sqs p.item.sqId with lock := some .reactor } with
    reactor := .locked cqId p }

def storeHead (cqId : CqId) (p : Tagged NvmeComp) : State :=
  { s.setSq p.item.sqId
      { s.sqs p.item.sqId with queue := (s.sqs p.item.sqId).queue.setHead p.item.sqHead } with
    reactor := .draining cqId p
    stores := update s.stores p.item.sqId (s.stores p.item.sqId + 1) }

def unlockSq (cqId : CqId) (p : Tagged NvmeComp) : State :=
  { s.setSq p.item.sqId { s.sqs p.item.sqId with lock := none } with
    reactor := .notifying cqId p 0 }

/-- `finish_pending_completion` and `finish_pending_avail_submission`, up to the wakeup. -/
def answer (cqId : CqId) (p : Tagged NvmeComp) (i : Nat) (req : PendingReq) : State :=
  match req with
  | .pendingCompletion waker message _ _ _ =>
    { s.setMessage message (some p.item) with
      pendingReqs := s.pendingReqs.eraseIdx i
      reactor := .waking cqId p i waker }
  | .pendingAvailSubmission waker _ =>
    { s with
      pendingReqs := s.pendingReqs.eraseIdx i
      reactor := .waking cqId p i waker }

def goTo (place : ReactorPlace) : State := { s with reactor := place }

/-- The next action of the reactor with the entry it has taken. It is not enabled while somebody
else has the lock it waits for. An entry on the wrong completion queue fails an assertion. -/
def react : Option State :=
  match s.reactor with
  | .idle => none
  | .took cqId p =>
    if (s.sqs p.item.sqId).cqId = cqId ∧ (s.sqs p.item.sqId).lock = none then
      some (s.lockSq cqId p)
    else none
  | .locked cqId p => some (s.storeHead cqId p)
  | .draining cqId p =>
    match s.channel with
    | req :: rest => some (s.receiveOne req rest)
    | [] => some (s.unlockSq cqId p)
  | .notifying cqId p i =>
    match s.pendingReqs[i]? with
    | none => some (s.goTo .idle)
    | some req =>
      some (if req.finishes cqId p.item then s.answer cqId p i req
        else s.goTo (.notifying cqId p (i + 1)))
  | .waking cqId p i waker => some ((s.setWoken waker true).goTo (.notifying cqId p i))

end

end State

inductive Event where
  | advance (f : FutureId)
  | fetch (q : SqId)
  | post (i : Nat) (commandSpecific : U32) (status : U16)
  | receive
  | take (cqId : CqId)
  | react
deriving DecidableEq, Repr

namespace State

def step (s : State) : Event → Option State
  | .advance f => s.advance f
  | .fetch q => s.fetch q
  | .post i commandSpecific status => s.post i commandSpecific status
  | .receive => s.receive
  | .take cqId => s.take cqId
  | .react => s.react

/-- What a step can do: one constructor for each action of a party. -/
inductive Move (s : State) : State → Prop where
  | beginSubmit {f cmdInit} : s.places f = .pendingSubmission cmdInit → Move s (s.beginSubmit f cmdInit)
  | lock {f cmdInit} : s.places f = .locking cmdInit → (s.sq f).lock = none →
      Move s (s.lock f cmdInit)
  | findFull {f cmdInit} : s.places f = .locked cmdInit → Move s (s.findFull f cmdInit)
  | write {f cmdInit} : s.places f = .locked cmdInit → Move s (s.write f cmdInit)
  | askAvail {f cmdInit} : s.places f = .full cmdInit → Move s (s.askAvail f cmdInit)
  | giveUp {f cmdInit} : s.places f = .asked cmdInit →
      Move s (s.unlock f (.pendingSubmission cmdInit))
  | request {f cmdId} : s.places f = .written cmdId → Move s (s.request f cmdId (.requested cmdId))
  | ring {f cmdId} : s.places f = .requested cmdId → Move s (s.ring f cmdId)
  | release {f cmdId} : s.places f = .rung cmdId → Move s (s.unlock f (.pendingCompletion cmdId))
  | beginLook {f cmdId} : s.places f = .pendingCompletion cmdId → Move s (s.beginLook f cmdId)
  | finish {f cmdId} : s.places f = .looking cmdId → Move s (s.finish f)
  | miss {f cmdId} : s.places f = .looking cmdId → s.cells.message f = none →
      Move s (s.moveTo f (.missed cmdId))
  | register {f cmdId} : s.places f = .missed cmdId →
      Move s (s.request f cmdId (.pendingCompletion cmdId))
  | fetch {q c} : (s.sqs q).fetchHead ≠ (s.sqs q).doorbell →
      (s.sqs q).queue.data[(s.sqs q).fetchHead.toNat]? = some c → Move s (s.fetched q c)
  | post {i q c commandSpecific status} : (q, c) ∈ s.executing →
      Move s (s.posted i q c commandSpecific status)
  | receive {req rest} : s.reactor.notifying? = none → s.channel = req :: rest →
      Move s (s.receiveOne req rest)
  | take {cqId p rest} : s.reactor = .idle → s.cqs cqId = p :: rest →
      Move s (s.takeEntry cqId p rest)
  | lockSq {cqId p} : s.reactor = .took cqId p → (s.sqs p.item.sqId).lock = none →
      Move s (s.lockSq cqId p)
  | storeHead {cqId p} : s.reactor = .locked cqId p → Move s (s.storeHead cqId p)
  | unlockSq {cqId p} : s.reactor = .draining cqId p → s.channel = [] → Move s (s.unlockSq cqId p)
  | done {cqId p i} : s.reactor = .notifying cqId p i → s.pendingReqs[i]? = none →
      Move s (s.goTo .idle)
  | skip {cqId p i req} : s.reactor = .notifying cqId p i → s.pendingReqs[i]? = some req →
      req.finishes cqId p.item = false → Move s (s.goTo (.notifying cqId p (i + 1)))
  | answer {cqId p i req} : s.reactor = .notifying cqId p i → s.pendingReqs[i]? = some req →
      Move s (s.answer cqId p i req)
  | wake {cqId p i waker} : s.reactor = .waking cqId p i waker →
      Move s ((s.setWoken waker true).goTo (.notifying cqId p i))

section Moves

variable {s s' : State}

theorem advance_move {f : FutureId} (h : s.advance f = some s') : Move s s' := by
  unfold advance at h
  split at h
  · cases h
    exact .beginSubmit ‹_›
  · obtain ⟨hlock, ⟨⟩⟩ := ite_none_right_eq_some.mp h
    exact .lock ‹_› hlock
  · cases h
    split
    · exact .findFull ‹_›
    · exact .write ‹_›
  · cases h
    exact .askAvail ‹_›
  · cases h
    exact .giveUp ‹_›
  · cases h
    exact .request ‹_›
  · cases h
    exact .ring ‹_›
  · cases h
    exact .release ‹_›
  · cases h
    exact .beginLook ‹_›
  · split at h
    · cases h
      exact .finish ‹_›
    · cases h
      exact .miss ‹_› ‹_›
  · cases h
    exact .register ‹_›
  · cases h

theorem react_move (h : s.react = some s') : Move s s' := by
  unfold react at h
  split at h
  · cases h
  · obtain ⟨⟨-, hlock⟩, ⟨⟩⟩ := ite_none_right_eq_some.mp h
    exact .lockSq ‹_› hlock
  · cases h
    exact .storeHead ‹_›
  · rename_i hr
    split at h
    · cases h
      exact .receive (by rw [hr]; rfl) ‹_›
    · cases h
      exact .unlockSq hr ‹_›
  · split at h
    · cases h
      exact .done ‹_› ‹_›
    · cases h
      split
      · exact .answer ‹_› ‹_›
      · exact .skip ‹_› ‹_› (Bool.eq_false_iff.mpr ‹_›)
  · cases h
    exact .wake ‹_›

theorem step_move {e : Event} (h : s.step e = some s') : Move s s' := by
  cases e with
  | advance => exact advance_move h
  | fetch =>
    obtain ⟨hne, hmap⟩ := ite_none_left_eq_some.mp h
    obtain ⟨c, hc, rfl⟩ := map_eq_some_iff.mp hmap
    exact .fetch hne hc
  | post =>
    obtain ⟨⟨q, c⟩, hc, rfl⟩ := map_eq_some_iff.mp h
    exact .post (List.mem_of_getElem? hc)
  | receive =>
    simp only [step, receive] at h
    split at h
    · rename_i req rest hidle hchannel
      cases h
      exact .receive (by rw [hidle]; rfl) hchannel
    · cases h
  | take cqId =>
    simp only [step, take] at h
    split at h
    · rename_i p rest hidle hcq
      cases h
      exact .take hidle hcq
    · cases h
  | react => exact react_move h

end Moves

end State

end RedoxDrivers.Nvme.Wakeup
