import RedoxDrivers.Nvme.Queues
import Mathlib.Logic.Function.Basic

/-!
Completion futures and the reactor that wakes them
(`storage/nvmed/src/nvme/cq_reactor.rs`).

A future submits its command when it is first polled and sends the reactor a request
to be told of its completion. The reactor takes an entry off the completion queue,
stores the submission queue's head that it reports, moves the requests it has been
sent to its list, and then answers every request on the list that matches the entry.

A command's id is the slot it is written to, so ids are used again and again. A slot is
free for the next command once the controller has fetched the one in it, which is
before that command completes.
-/

namespace RedoxDrivers.Nvme

open Lib Function List Option Nat

abbrev CqId := U16
abbrev SqId := U16
abbrev CmdId := U16

structure NvmeComp where
  commandSpecific : U32
  sqHead : U16
  sqId : SqId
  cid : CmdId
  status : U16
deriving DecidableEq, Repr

/-- A future, and the task that polls it. Its number also stands for the message cell
that it shares with the reactor: it makes one when it submits and keeps it. -/
abbrev FutureId := Nat

inductive NotifReq where
  | requestCompletion (cqId : CqId) (sqId : SqId) (cmdId : CmdId) (waker message : FutureId)
  | requestAvailSubmission (sqId : SqId) (waker : FutureId)
deriving DecidableEq, Repr

inductive PendingReq where
  | pendingCompletion (waker message : FutureId) (cqId : CqId) (sqId : SqId) (cmdId : CmdId)
  | pendingAvailSubmission (waker : FutureId) (sqId : SqId)
deriving DecidableEq, Repr

def NotifReq.toPending : NotifReq → PendingReq
  | .requestCompletion cqId sqId cmdId waker message =>
    .pendingCompletion waker message cqId sqId cmdId
  | .requestAvailSubmission sqId waker => .pendingAvailSubmission waker sqId

/-- What the reactor and the futures share: the message of each future, and whether its
task has been woken since it was last polled. -/
structure Cells where
  message : FutureId → Option NvmeComp
  woken : FutureId → Bool

namespace PendingReq

/-- The tests of `finish_pending_completion` and `finish_pending_avail_submission`. -/
def finishes (cqId : CqId) (entry : NvmeComp) : PendingReq → Bool
  | .pendingCompletion _ _ reqCqId sqId cmdId =>
    reqCqId == cqId && sqId == entry.sqId && cmdId == entry.cid
  | .pendingAvailSubmission _ sqId => sqId == entry.sqId

/-- What the two do when their test succeeds. -/
def finish (entry : NvmeComp) (cells : Cells) : PendingReq → Cells
  | .pendingCompletion waker message _ _ _ =>
    { message := update cells.message message (some entry)
      woken := update cells.woken waker true }
  | .pendingAvailSubmission waker _ =>
    { cells with woken := update cells.woken waker true }

end PendingReq

/-- The loop of `try_notify_futures` over the requests from the current index on. A
request that is answered is removed, and the loop goes on behind it. -/
def tryNotifyFutures (cqId : CqId) (entry : NvmeComp) :
    List PendingReq → Cells → List PendingReq × Cells
  | [], cells => ([], cells)
  | req :: rest, cells =>
    if req.finishes cqId entry then tryNotifyFutures cqId entry rest (req.finish entry cells)
    else
      let (kept, cells) := tryNotifyFutures cqId entry rest cells
      (req :: kept, cells)

section Notify

variable {cqId : CqId} {entry : NvmeComp} {reqs : List PendingReq} {cells : Cells}

theorem tryNotifyFutures_kept : (tryNotifyFutures cqId entry reqs cells).1 =
      reqs.filter fun req => !req.finishes cqId entry := by
  induction reqs generalizing cells with
  | nil => rfl
  | cons req rest ih =>
    unfold tryNotifyFutures
    by_cases hreq : req.finishes cqId entry = true
    · rw [if_pos hreq, ih, filter_cons_of_neg (by simp [hreq])]
    · rw [if_neg hreq, filter_cons_of_pos (by simp [hreq])]
      exact congrArg (req :: ·) ih

/-- The entry goes to every cell that a matching request names, and to no other. -/
theorem tryNotifyFutures_message (cqId : CqId) (entry : NvmeComp) (reqs : List PendingReq)
    (cells : Cells) (f : FutureId) :
    ((∃ waker, .pendingCompletion waker f cqId entry.sqId entry.cid ∈ reqs) ∧
        (tryNotifyFutures cqId entry reqs cells).2.message f = some entry) ∨
      ((∀ waker, .pendingCompletion waker f cqId entry.sqId entry.cid ∉ reqs) ∧
        (tryNotifyFutures cqId entry reqs cells).2.message f = cells.message f) := by
  induction reqs generalizing cells with
  | nil => exact .inr ⟨fun _ => not_mem_nil, rfl⟩
  | cons req rest ih =>
    unfold tryNotifyFutures
    by_cases hreq : req.finishes cqId entry = true
    · rw [if_pos hreq]
      rcases ih (req.finish entry cells) with ⟨⟨w, hw⟩, hmsg⟩ | ⟨hnone, hmsg⟩
      · exact .inl ⟨⟨w, mem_cons_of_mem _ hw⟩, hmsg⟩
      · cases req with
        | pendingAvailSubmission =>
          refine .inr ⟨fun w' hmem => ?_, hmsg⟩
          rcases mem_cons.mp hmem with heq | hmem
          · cases heq
          · exact hnone w' hmem
        | pendingCompletion w g =>
          simp only [PendingReq.finishes, Bool.and_eq_true, beq_iff_eq] at hreq
          obtain ⟨⟨rfl, rfl⟩, rfl⟩ := hreq
          by_cases hg : g = f
          · subst hg
            refine .inl ⟨⟨w, mem_cons_self⟩, hmsg.trans ?_⟩
            exact update_self _ _ _
          · refine .inr ⟨fun w' hmem => ?_, hmsg.trans ?_⟩
            · rcases mem_cons.mp hmem with heq | hmem
              · cases heq
                exact hg rfl
              · exact hnone w' hmem
            · exact update_of_ne (Ne.symm hg) _ _
    · rw [if_neg hreq]
      rcases ih cells with ⟨⟨w, hw⟩, hmsg⟩ | ⟨hnone, hmsg⟩
      · exact .inl ⟨⟨w, mem_cons_of_mem _ hw⟩, hmsg⟩
      · refine .inr ⟨fun w' hmem => ?_, hmsg⟩
        rcases mem_cons.mp hmem with rfl | hmem
        · exact hreq (by simp [PendingReq.finishes])
        · exact hnone w' hmem

end Notify

/-! ### The parties -/

/-- `cmd_init`. The callers put the id they are given into the command. -/
structure CmdInit where
  run : CmdId → NvmeCmd
  cid_eq : ∀ id, (run id).cid = id

/-- `registering` is the point inside `poll` between the look at an empty message and
the request that follows: no lock is held there. -/
inductive CompletionFutureState where
  | pendingSubmission (cmdInit : CmdInit)
  | pendingCompletion (cmdId : CmdId)
  | registering (cmdId : CmdId)
  | finished

namespace CompletionFutureState

/-- The id of the command that an unfinished future has submitted. -/
def cmdId? : CompletionFutureState → Option CmdId
  | .pendingSubmission _ | .finished => none
  | .pendingCompletion cmdId | .registering cmdId => some cmdId

end CompletionFutureState

/-- A command with the future it is for and its number among the submissions. -/
structure Issued where
  cmd : NvmeCmd
  owner : FutureId
  seq : Nat
deriving DecidableEq, Repr, Inhabited

/-- A completion entry with the command it belongs to. -/
structure Posted where
  entry : NvmeComp
  command : Issued
deriving DecidableEq, Repr

/-- The futures of one submission queue, the controller and the reactor. The completion
queue is a queue of entries here.

`submitted` and `outstanding` are there for the statements: the number of submissions
and the commands among them whose completion has not been posted. -/
structure System where
  sqId : SqId
  cqId : CqId
  sq : NvmeCmdQueue Issued
  /-- The tail that the controller has been told. -/
  doorbell : U16
  /-- The next slot the controller fetches. -/
  fetchHead : U16
  executing : List Issued
  cq : List Posted
  channel : List NotifReq
  pendingReqs : List PendingReq
  /-- The entry that the reactor has taken and not yet answered requests for. -/
  handling : Option Posted
  futures : FutureId → CompletionFutureState
  cells : Cells
  submitted : Nat
  outstanding : List Issued

namespace System

def start (sq : NvmeCmdQueue Issued) (sqId : SqId) (cqId : CqId) (init : FutureId → CmdInit) :
    System where
  sqId := sqId
  cqId := cqId
  sq := sq
  doorbell := 0
  fetchHead := 0
  executing := []
  cq := []
  channel := []
  pendingReqs := []
  handling := none
  futures := fun f => .pendingSubmission (init f)
  cells := { message := fun _ => none, woken := fun _ => false }
  submitted := 0
  outstanding := []

section

variable (s : System) (f : FutureId)

/-- A poll takes back the wakeup that led to it. -/
def polled : System :=
  { s with cells := { s.cells with woken := update s.cells.woken f false } }

/-- The command that a submission by `f` would write. -/
def issue (init : CmdInit) : Issued :=
  { cmd := init.run s.sq.tail, owner := f, seq := s.submitted }

/-- The branch of `poll` that submits, under the lock of the submission queue. -/
def submit (init : CmdInit) : System :=
  { s.polled f with
    sq := (s.sq.submitUnchecked (s.issue f init)).2
    cells := { (s.polled f).cells with message := update s.cells.message f none }
    futures := update s.futures f (.pendingCompletion s.sq.tail)
    channel := s.channel ++ [.requestCompletion s.cqId s.sqId s.sq.tail f f]
    doorbell := (s.sq.submitUnchecked (s.issue f init)).1
    submitted := s.submitted + 1
    outstanding := s.outstanding ++ [s.issue f init] }

/-- The branch of `poll` that finds the queue full. -/
def awaitEntry : System :=
  { s.polled f with channel := s.channel ++ [.requestAvailSubmission s.sqId f] }

/-- The branch of `poll` that takes the message. -/
def finish : System :=
  { s.polled f with
    cells := { (s.polled f).cells with message := update s.cells.message f none }
    futures := update s.futures f .finished }

/-- The branch of `poll` that finds no message, up to the request it sends. -/
def missMessage (cmdId : CmdId) : System :=
  { s.polled f with futures := update s.futures f (.registering cmdId) }

/-- The rest of that branch. -/
def register (cmdId : CmdId) : System :=
  { s with
    channel := s.channel ++ [.requestCompletion s.cqId s.sqId cmdId f f]
    futures := update s.futures f (.pendingCompletion cmdId) }

/-- `poll`. A finished future is not polled again; that would panic. -/
def poll : Option System :=
  match s.futures f with
  | .pendingSubmission init => some (if s.sq.isFull then s.awaitEntry f else s.submit f init)
  | .pendingCompletion cmdId =>
    match s.cells.message f with
    | some _ => some (s.finish f)
    | none => some (s.missMessage f cmdId)
  | .registering cmdId => some (s.register f cmdId)
  | .finished => none

end

/-- The controller fetches the next command, if it has been told of one. -/
def fetch (s : System) : Option System :=
  if s.fetchHead = s.doorbell then none
  else (s.sq.data[s.fetchHead.toNat]?).map fun c =>
    { s with
      executing := s.executing ++ [c]
      fetchHead := (s.fetchHead + 1) % BitVec.ofNat 16 s.sq.data.length }

/-- The controller completes one of the commands it has fetched. -/
def post (s : System) (i : Nat) (commandSpecific : U32) (status : U16) : Option System :=
  (s.executing[i]?).map fun c =>
    { s with
      executing := s.executing.eraseIdx i
      cq := s.cq ++ [{
        entry :=
          { commandSpecific, sqHead := s.fetchHead, sqId := s.sqId, cid := c.cmd.cid, status }
        command := c }]
      outstanding := s.outstanding.filter fun o => o.seq ≠ c.seq }

/-- The reactor moves a request to its list, at the head of its loop. -/
def receive (s : System) : Option System :=
  match s.handling, s.channel with
  | none, req :: rest =>
    some { s with pendingReqs := s.pendingReqs ++ [req.toPending], channel := rest }
  | _, _ => none

/-- The reactor takes an entry, stores the head that it reports and receives all requests,
under the lock of the submission queue. -/
def take (s : System) : Option System :=
  match s.handling, s.cq with
  | none, p :: rest =>
    some { s with
      cq := rest
      sq := s.sq.setHead p.entry.sqHead
      pendingReqs := s.pendingReqs ++ s.channel.map NotifReq.toPending
      channel := []
      handling := some p }
  | _, _ => none

/-- The reactor answers the requests that match the entry it has taken. -/
def notify (s : System) : Option System :=
  s.handling.map fun p =>
    { s with
      pendingReqs := (tryNotifyFutures s.cqId p.entry s.pendingReqs s.cells).1
      cells := (tryNotifyFutures s.cqId p.entry s.pendingReqs s.cells).2
      handling := none }

end System

inductive Event where
  | poll (f : FutureId)
  | fetch
  | post (i : Nat) (commandSpecific : U32) (status : U16)
  | receive
  | take
  | notify
deriving DecidableEq, Repr

namespace System

def step (s : System) : Event → Option System
  | .poll f => s.poll f
  | .fetch => s.fetch
  | .post i commandSpecific status => s.post i commandSpecific status
  | .receive => s.receive
  | .take => s.take
  | .notify => s.notify

/-- The requests that have been made and not answered. -/
def requests (s : System) : List PendingReq := s.pendingReqs ++ s.channel.map NotifReq.toPending

section Branches

variable (s : System) (f : FutureId) (init : CmdInit) (cmdId : CmdId)

theorem submit_futures :
    (s.submit f init).futures = update s.futures f (.pendingCompletion s.sq.tail) := rfl

theorem submit_message : (s.submit f init).cells.message = update s.cells.message f none := rfl

theorem submit_requests : (s.submit f init).requests =
    s.requests ++ [.pendingCompletion f f s.cqId s.sqId s.sq.tail] := by
  simp [requests, submit, polled, NotifReq.toPending]

theorem awaitEntry_requests :
    (s.awaitEntry f).requests = s.requests ++ [.pendingAvailSubmission f s.sqId] := by
  simp [requests, awaitEntry, polled, NotifReq.toPending]

theorem finish_futures : (s.finish f).futures = update s.futures f .finished := rfl

theorem finish_message : (s.finish f).cells.message = update s.cells.message f none := rfl

theorem register_requests : (s.register f cmdId).requests =
    s.requests ++ [.pendingCompletion f f s.cqId s.sqId cmdId] := by
  simp [requests, register, NotifReq.toPending]

end Branches

section Cases

variable {s s' : System} {f : FutureId}

theorem poll_cases (h : s.poll f = some s') : (∃ init, s.futures f = .pendingSubmission init ∧
        ((s.sq.isFull = true ∧ s' = s.awaitEntry f) ∨
          (s.sq.isFull = false ∧ s' = s.submit f init))) ∨
      (∃ id, s.futures f = .pendingCompletion id ∧
        ((∃ m, s.cells.message f = some m ∧ s' = s.finish f) ∨
          (s.cells.message f = none ∧ s' = s.missMessage f id))) ∨
      (∃ id, s.futures f = .registering id ∧ s' = s.register f id) := by
  unfold poll at h
  cases hf : s.futures f with
  | pendingSubmission init =>
    simp only [hf, some.injEq] at h
    refine .inl ⟨init, rfl, ?_⟩
    cases hfull : s.sq.isFull with
    | true => exact .inl ⟨rfl, by simpa [hfull] using h.symm⟩
    | false => exact .inr ⟨rfl, by simpa [hfull] using h.symm⟩
  | pendingCompletion id =>
    simp only [hf] at h
    refine .inr (.inl ⟨id, rfl, ?_⟩)
    cases hm : s.cells.message f with
    | some m => exact .inl ⟨m, rfl, by simpa [hm] using h.symm⟩
    | none => exact .inr ⟨rfl, by simpa [hm] using h.symm⟩
  | registering id =>
    simp only [hf, some.injEq] at h
    exact .inr (.inr ⟨id, rfl, h.symm⟩)
  | finished =>
    simp only [hf] at h
    cases h

theorem fetch_cases (h : s.fetch = some s') :
    s.fetchHead ≠ s.doorbell ∧ ∃ c, s.sq.data[s.fetchHead.toNat]? = some c ∧
      s' = { s with
        executing := s.executing ++ [c]
        fetchHead := (s.fetchHead + 1) % BitVec.ofNat 16 s.sq.data.length } := by
  obtain ⟨hne, hmap⟩ := ite_none_left_eq_some.mp h
  obtain ⟨c, hc, rfl⟩ := map_eq_some_iff.mp hmap
  exact ⟨hne, c, hc, rfl⟩

theorem receive_cases (h : s.receive = some s') :
    s.handling = none ∧ ∃ req rest, s.channel = req :: rest ∧
      s' = { s with pendingReqs := s.pendingReqs ++ [req.toPending], channel := rest } := by
  unfold receive at h
  split at h
  · rename_i req rest hnone hcons
    cases h
    exact ⟨hnone, req, rest, hcons, rfl⟩
  · cases h

theorem take_cases (h : s.take = some s') : s.handling = none ∧ ∃ p rest, s.cq = p :: rest ∧
      s' = { s with
        cq := rest
        sq := s.sq.setHead p.entry.sqHead
        pendingReqs := s.requests
        channel := []
        handling := some p } := by
  unfold take at h
  split at h
  · rename_i p rest hnone hcons
    cases h
    exact ⟨hnone, p, rest, hcons, rfl⟩
  · cases h

end Cases

end System

/-! ### Interrupts -/

/-- A `BTreeMap`: its entries in the order of their keys. -/
structure BTreeMap (w : Nat) (α : Type) where
  entries : List (BitVec w × α)
  sorted : entries.Pairwise fun e e' => e.1 < e'.1

inductive InterruptSources (File : Type) where
  | msiX (map : BTreeMap 16 File)
  | msi (map : BTreeMap 8 File)
  | intx (file : File)

namespace InterruptSources

variable {File : Type}

/-- An event, as it is registered and as it is read back. -/
structure Event where
  id : Nat
  flags : U64
  data : Nat
deriving DecidableEq, Repr

def EVENT_READ : U64 := 1

def iterMut : InterruptSources File → List (U16 × File)
  | .msiX map => map.entries
  | .msi map => map.entries.map fun (vector, handle) => (vector.setWidth 16, handle)
  | .intx single => [(0, single)]

section

variable (fd : File → Nat) (self : InterruptSources File)

def createEventQueue : List Event :=
  self.iterMut.map fun (num, irqHandle) => ⟨fd irqHandle, EVENT_READ, num.toNat⟩

/-- The vector and the IRQ file that `run` takes for an event. -/
def source (self : InterruptSources File) (event : Event) : Option (U16 × File) :=
  self.iterMut[event.data]?

/-- The event that is registered for a vector leads back to it. -/
def Dispatches : Prop :=
  ∀ (i : Nat) vector file, self.iterMut[i]? = some (vector, file) →
    ∃ event, (self.createEventQueue fd)[i]? = some event ∧ event.id = fd file ∧
      self.source event = some (vector, file)

theorem sorted_iterMut (self : InterruptSources File) :
    self.iterMut.Pairwise fun e e' => e.1.toNat < e'.1.toNat := by
  cases self with
  | msiX map => exact map.sorted
  | msi map =>
    refine pairwise_map.mpr (map.sorted.imp fun {e e'} hlt => ?_)
    show (e.1.setWidth 16).toNat < (e'.1.setWidth 16).toNat
    bv_omega
  | intx => exact pairwise_singleton _ _

/-- **Interrupts.** Every registered event leads back to its vector exactly if the vectors are numbered
from 0 without gaps. -/
theorem dispatches_iff : self.Dispatches fd ↔
      self.iterMut.map (·.1.toNat) = List.range self.iterMut.length := by
  constructor
  · intro h
    refine ext_getElem (by simp) fun i hi _ => ?_
    rw [length_map] at hi
    obtain ⟨event, hevent, -, hsource⟩ := h i _ _ (List.getElem?_eq_getElem hi)
    rw [createEventQueue, List.getElem?_map, List.getElem?_eq_getElem hi] at hevent
    cases hevent
    obtain ⟨hlt, hsame⟩ := List.getElem?_eq_some_iff.mp hsource
    -- The vector stands at its own number and at `i`, and the vectors are sorted.
    have hsorted := pairwise_iff_getElem.mp self.sorted_iterMut
    rw [getElem_map, getElem_range]
    rcases lt_trichotomy self.iterMut[i].1.toNat i with hbelow | heq | habove
    · have hdown := hsorted _ i hlt hi hbelow
      rw [hsame] at hdown
      exact absurd hdown (lt_irrefl _)
    · exact heq
    · have hup := hsorted i _ hi hlt habove
      rw [hsame] at hup
      exact absurd hup (lt_irrefl _)
  · intro h i vector file hi
    have hvector : vector.toNat = i := by
      obtain ⟨hlt, hget⟩ := List.getElem?_eq_some_iff.mp hi
      simpa [hlt, hget] using congrArg (·[i]?) h
    refine ⟨⟨fd file, EVENT_READ, vector.toNat⟩, by simp [createEventQueue, hi], rfl, ?_⟩
    rw [source, hvector]
    exact hi

end

/-- A single vector that is not 0 is taken for no vector. -/
theorem not_dispatches_gap : ¬ Dispatches id (.msiX ⟨[(1, 3)], by simp⟩) := by
  intro h
  obtain ⟨event, hevent, -, hsource⟩ := h 0 1 3 rfl
  cases hevent
  cases hsource

end InterruptSources

end RedoxDrivers.Nvme
