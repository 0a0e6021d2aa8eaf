import Mathlib.Data.List.Nodup
import Mathlib.Data.List.Perm.Basic
import RedoxDrivers.Lib.Act
import RedoxDrivers.Lib.Runs

/-!
Servers that keep the requests they cannot answer yet.

A server works in rounds. One loop of a round takes new requests until there are none left. The
handler answers a request or says that it is not ready, and then the request is put to the end of a
queue. Another loop goes over the queue, tries each request again and takes out those that are
answered. A cancellation takes the request with its id out of the queue. A `Service` says which of
the loops comes first and what the handler does. Data may arrive between any two steps: whatever
the handlers look at may change then.

`Server.invariant` is what all runs share: each request is answered or queued, once, and a request
that a round leaves in the queue has been tried in it, after the data that had arrived when the retry
loop began. Data that arrives during the loop may be seen by its later turns only (`WaitsForAll`).
-/

namespace RedoxDrivers.Lib.Serving

open List

/-- Which of its two loops a round begins with. -/
inductive Order where
  | retryFirst
  | requestsFirst
deriving DecidableEq, Repr

/-- `handle` returns `none` when a request is not ready, and `interrupted` is the answer to a
request that is cancelled. -/
structure Service (ρ β σ : Type) where
  order : Order
  handle : ρ → σ → Except Fault (Option β × σ)
  interrupted : β

/-- The handler made of the functions of a scheme: a request that they neither answer nor refuse is
not ready. -/
def Service.ofCalls {ρ β σ : Type} (order : Order) (call : ρ → Act σ (Option β)) :
    Service ρ (Except Errno β) σ where
  order := order
  handle request s :=
    match call request s with
    | (.ok (some value), s) => .ok (some (.ok value), s)
    | (.ok none, s) => .ok (none, s)
    | (.error (.errno code), s) => .ok (some (.error code), s)
    | (.error (.panic fault), _) => .error fault
  interrupted := .error .eintr

/-- A request, with its number in the order in which requests came. -/
structure Ticket (κ ρ : Type) where
  number : Nat
  id : κ
  request : ρ

/-- One call of the handler: the request, the result, and how often data had arrived before. -/
structure Attempt (β : Type) where
  number : Nat
  result : Option β
  arrivals : Nat

inductive Phase where
  | idle
  | input
  | requests
  | retrying (i : Nat)
deriving DecidableEq, Repr

/-- What wakes a server up. -/
inductive Wake where
  | requests
  | data
deriving DecidableEq, Repr

/-- The state of a server. Behind `phase` stands its history: the ids of the requests received, the
responses by request, the calls of the handler, the requests that were cancelled, the number of
descriptors refused, and how often data has arrived: in all, before the last retry loop (`seen`) and
before its last call of the handler (`looked`). -/
structure Server (κ ρ β σ : Type) where
  scheme : σ
  blocked : List (Ticket κ ρ)
  phase : Phase
  received : List κ
  responses : List (Nat × β)
  attempts : List (Attempt β)
  cancelled : List Nat
  refused : Nat
  arrivals : Nat
  seen : Nat
  looked : Nat

inductive Event (κ ρ σ : Type) where
  | arrive (change : σ → σ)
  | wake (reason : Wake)
  | call (id : κ) (request : ρ)
  | cancel (id : κ)
  | sendFd
  | drained
  | retry

namespace Server

variable {κ ρ β σ : Type}

def new (scheme : σ) : Server κ ρ β σ where
  scheme := scheme
  blocked := []
  phase := .idle
  received := []
  responses := []
  attempts := []
  cancelled := []
  refused := 0
  arrivals := 0
  seen := 0
  looked := 0

section

variable (s : Server κ ρ β σ)

def beginRetry : Server κ ρ β σ :=
  { s with phase := .retrying 0, seen := s.arrivals, looked := s.arrivals }

/-- The retry loop calls the handler, which sees the data that has arrived so far. -/
def look : Server κ ρ β σ := { s with looked := s.arrivals }

/-- The handler has been called for a request. -/
def attempted (number : Nat) (result : Option β) (scheme : σ) : Server κ ρ β σ :=
  { s with scheme := scheme, attempts := s.attempts ++ [⟨number, result, s.arrivals⟩] }

/-- A request is taken out of the queue and answered. -/
def unblock (i number : Nat) (response : β) : Server κ ρ β σ :=
  { s with blocked := s.blocked.eraseIdx i, responses := s.responses ++ [(number, response)] }

/-- A new request, with what the handler made of it. -/
def receive (id : κ) (request : ρ) : Option β → Server κ ρ β σ
  | some response =>
    { s with
      received := s.received ++ [id]
      responses := s.responses ++ [(s.received.length, response)] }
  | none =>
    { s with
      received := s.received ++ [id]
      blocked := s.blocked ++ [⟨s.received.length, id, request⟩] }

/-- One turn of the retry loop, with what the handler made of the request at `i`. -/
def retried (i number : Nat) : Option β → Server κ ρ β σ
  | some response => s.unblock i number response
  | none => { s with phase := .retrying (i + 1) }

def cancelAt (i number : Nat) (interrupted : β) : Server κ ρ β σ :=
  { s.unblock i number interrupted with cancelled := s.cancelled ++ [number] }

end

/-- The steps of a server. A handler that panics ends the run. -/
def step [DecidableEq κ] (S : Service ρ β σ) (s : Server κ ρ β σ) : Event κ ρ σ → Option (Server κ ρ β σ)
  | .arrive change => some { s with scheme := change s.scheme, arrivals := s.arrivals + 1 }
  | .wake reason =>
    if s.phase = .idle then
      match S.order, reason with
      | .retryFirst, _ => some s.beginRetry
      | .requestsFirst, .requests => some { s with phase := .requests }
      | .requestsFirst, .data => some { s with phase := .input }
    else none
  | .call id request =>
    if s.phase = .requests then
      match S.handle request s.scheme with
      | .error _ => none
      | .ok (result, scheme) =>
        some ((s.attempted s.received.length result scheme).receive id request result)
    else none
  | .cancel id =>
    if s.phase = .requests then
      match s.blocked.findIdx? fun ticket => ticket.id = id with
      | none => some s
      | some i => (s.blocked[i]?).map fun ticket => s.cancelAt i ticket.number S.interrupted
    else none
  | .sendFd => if s.phase = .requests then some { s with refused := s.refused + 1 } else none
  | .drained =>
    match s.phase with
    | .input => some s.beginRetry
    | .requests =>
      match S.order with
      | .retryFirst => some { s with phase := .idle }
      | .requestsFirst => some s.beginRetry
    | _ => none
  | .retry =>
    match s.phase with
    | .retrying i =>
      match s.blocked[i]? with
      | some ticket =>
        match S.handle ticket.request s.scheme with
        | .error _ => none
        | .ok (result, scheme) =>
          some ((s.look.attempted ticket.number result scheme).retried i ticket.number result)
      | none =>
        match S.order with
        | .retryFirst => some { s with phase := .requests }
        | .requestsFirst => some { s with phase := .idle }
    | _ => none

/-! ### What a step does -/

variable {S : Service ρ β σ} {s s' : Server κ ρ β σ} {e : Event κ ρ σ}

/-- The steps that leave requests and responses alone. -/
inductive Quiet (s : Server κ ρ β σ) : Server κ ρ β σ → Prop
  | arrive (change : σ → σ) :
      Quiet s { s with scheme := change s.scheme, arrivals := s.arrivals + 1 }
  | beginRetry : Quiet s s.beginRetry
  | enter (phase : Phase) (notRetrying : ∀ i, s.phase ≠ .retrying i)
      (target : ∀ i, phase ≠ .retrying i) : Quiet s { s with phase := phase }
  | endRetry (i : Nat) (phase : Phase) (retrying : s.phase = .retrying i)
      (last : s.blocked[i]? = none) (target : ∀ i, phase ≠ .retrying i) :
      Quiet s { s with phase := phase }
  | refuse : Quiet s { s with refused := s.refused + 1 }
  | nothing : Quiet s s

/-- What a step may be. -/
inductive Move (S : Service ρ β σ) (s : Server κ ρ β σ) : Event κ ρ σ → Server κ ρ β σ → Prop
  | quiet {e : Event κ ρ σ} {s' : Server κ ρ β σ} (quiet : Quiet s s')
      (cancel : ∀ id, e = .cancel id → s' = s) : Move S s e s'
  | call (id : κ) (request : ρ) (result : Option β) (scheme : σ) (phase : s.phase = .requests)
      (handle : S.handle request s.scheme = .ok (result, scheme)) :
      Move S s (.call id request)
        ((s.attempted s.received.length result scheme).receive id request result)
  | cancel (id : κ) (i : Nat) (ticket : Ticket κ ρ) (phase : s.phase = .requests)
      (get : s.blocked[i]? = some ticket) (found : ticket.id = id) :
      Move S s (.cancel id) (s.cancelAt i ticket.number S.interrupted)
  | retry (i : Nat) (ticket : Ticket κ ρ) (result : Option β) (scheme : σ)
      (phase : s.phase = .retrying i) (get : s.blocked[i]? = some ticket)
      (handle : S.handle ticket.request s.scheme = .ok (result, scheme)) :
      Move S s .retry
        ((s.look.attempted ticket.number result scheme).retried i ticket.number result)

theorem move_of_step [DecidableEq κ] (h : step S s e = some s') : Move S s e s' := by
  cases e with
  | arrive change =>
    cases h
    exact .quiet (.arrive change) nofun
  | wake reason =>
    simp only [step] at h
    split at h
    · rename_i hphase
      have idle : ∀ i, s.phase ≠ .retrying i := by simp [hphase]
      split at h
      · cases h
        exact .quiet .beginRetry nofun
      all_goals
        cases h
        exact .quiet (.enter _ idle (by simp)) nofun
    · cases h
  | call id request =>
    simp only [step] at h
    split at h
    · rename_i hphase
      split at h
      · cases h
      · rename_i result scheme hhandle
        cases h
        exact .call id request result scheme hphase hhandle
    · cases h
  | cancel id =>
    simp only [step] at h
    split at h
    · rename_i hphase
      split at h
      · cases h
        exact .quiet .nothing fun _ _ => rfl
      · rename_i i hfind
        obtain ⟨hlt, hid, -⟩ := findIdx?_eq_some_iff_getElem.mp hfind
        rw [getElem?_eq_getElem hlt] at h
        cases h
        exact .cancel id i _ hphase (getElem?_eq_getElem hlt) (by simpa using hid)
    · cases h
  | sendFd =>
    simp only [step] at h
    split at h
    · cases h
      exact .quiet .refuse nofun
    · cases h
  | drained =>
    simp only [step] at h
    split at h
    · cases h
      exact .quiet .beginRetry nofun
    · rename_i hphase
      split at h
      · cases h
        exact .quiet (.enter _ (by simp [hphase]) (by simp)) nofun
      · cases h
        exact .quiet .beginRetry nofun
    · cases h
  | retry =>
    simp only [step] at h
    split at h
    · rename_i i hphase
      split at h
      · rename_i ticket hget
        split at h
        · cases h
        · rename_i result scheme hhandle
          cases h
          exact .retry i ticket result scheme hphase hget hhandle
      · rename_i hlast
        split at h
        all_goals
          cases h
          exact .quiet (.endRetry i _ hphase hlast (by simp)) nofun
    · cases h

/-! ### The queue and the responses -/

section

variable (s : Server κ ρ β σ)

/-- How often a request has been answered. -/
def answers (number : Nat) : Nat := (s.responses.map Prod.fst).count number

/-- How often a request is in the queue. -/
def places (number : Nat) : Nat := (s.blocked.map Ticket.number).count number

/-- The handler has said that a request is not ready, when data had arrived `n` times. -/
def TriedSince (n : Nat) (ticket : Ticket κ ρ) : Prop :=
  ∃ attempt ∈ s.attempts,
    attempt.number = ticket.number ∧ attempt.result = none ∧ n ≤ attempt.arrivals

/-- The handler has said that a request is not ready, after all the data that had arrived when the
last retry loop began. -/
def Tried (ticket : Ticket κ ρ) : Prop := s.TriedSince s.seen ticket

/-- The requests that this round's retry loop will not come to any more. -/
def Passed (i : Nat) : Prop := ∀ j, s.phase = .retrying j → i < j

end

/-- Every request is in one place, every response has its reason, and what the retry loop has
passed has been tried. -/
structure Inv (S : Service ρ β σ) (s : Server κ ρ β σ) : Prop where
  once : ∀ number, s.answers number + s.places number = if number < s.received.length then 1 else 0
  ids : ∀ ticket ∈ s.blocked, s.received[ticket.number]? = some ticket.id
  reasons : ∀ number response, (number, response) ∈ s.responses ↔
    (∃ attempt ∈ s.attempts, attempt.number = number ∧ attempt.result = some response) ∨
      (response = S.interrupted ∧ number ∈ s.cancelled)
  seen_le : s.seen ≤ s.arrivals
  tried : ∀ i ticket, s.blocked[i]? = some ticket → s.Passed i → s.Tried ticket

section Invariant

variable {ticket : Ticket κ ρ} {i : Nat} {scheme : σ}

theorem Inv.not_answered (inv : Inv S s) (h : ticket ∈ s.blocked) :
    s.answers ticket.number = 0 := by
  have hone : 0 < s.places ticket.number :=
    count_pos_iff.mpr (mem_map.mpr ⟨ticket, h, rfl⟩)
  have honce := inv.once ticket.number
  split at honce <;> omega

theorem Inv.quiet (inv : Inv S s) (h : Quiet s s') : Inv S s' := by
  cases h with
  | arrive =>
    exact ⟨inv.once, inv.ids, inv.reasons, Nat.le_succ_of_le inv.seen_le, inv.tried⟩
  | beginRetry =>
    refine ⟨inv.once, inv.ids, inv.reasons, Nat.le_refl _, ?_⟩
    intro i ticket _ passed
    exact absurd (passed 0 rfl) (Nat.not_lt_zero i)
  | enter phase notRetrying =>
    refine ⟨inv.once, inv.ids, inv.reasons, inv.seen_le, ?_⟩
    intro i ticket get _
    exact inv.tried i ticket get fun j hj => absurd hj (notRetrying j)
  | endRetry i phase retrying last =>
    refine ⟨inv.once, inv.ids, inv.reasons, inv.seen_le, ?_⟩
    intro j ticket get _
    refine inv.tried j ticket get fun k hk => ?_
    obtain rfl : i = k := by simpa [retrying] using hk
    have hlen := getElem?_eq_none_iff.mp last
    exact Nat.lt_of_lt_of_le (List.getElem?_eq_some_iff.mp get).1 hlen
  | refuse => exact ⟨inv.once, inv.ids, inv.reasons, inv.seen_le, inv.tried⟩
  | nothing => exact inv

/-- A call of the handler is an entry of the history. -/
theorem Tried.attempted (h : s.Tried ticket) (number : Nat) (result : Option β) (scheme : σ) :
    (s.attempted number result scheme).Tried ticket := by
  obtain ⟨attempt, hmem, rest⟩ := h
  exact ⟨attempt, mem_append_left _ hmem, rest⟩

theorem tried_of_attempted (inv : Inv S s) (ticket : Ticket κ ρ) (scheme : σ) :
    (s.attempted ticket.number none scheme).Tried ticket :=
  ⟨⟨ticket.number, none, s.arrivals⟩, mem_append_right _ (by simp), rfl, rfl, inv.seen_le⟩

/-- The reasons for the responses, after a call of the handler that was answered. -/
theorem Inv.reasons_some (inv : Inv S s) (number : Nat) (response : β) (n : Nat) (r : β) :
    (n, r) ∈ s.responses ++ [(number, response)] ↔
      (∃ attempt ∈ s.attempts ++ [⟨number, some response, s.arrivals⟩],
        attempt.number = n ∧ attempt.result = some r) ∨ (r = S.interrupted ∧ n ∈ s.cancelled) := by
  rw [mem_append, inv.reasons n r, mem_singleton, Prod.mk.injEq]
  simp only [mem_append, mem_singleton, or_and_right, exists_or, exists_eq_left,
    Option.some_inj]
  constructor
  · rintro ((h | h) | ⟨rfl, rfl⟩)
    · exact .inl (.inl h)
    · exact .inr h
    · exact .inl (.inr ⟨rfl, rfl⟩)
  · rintro ((h | ⟨rfl, rfl⟩) | h)
    · exact .inl (.inl h)
    · exact .inr ⟨rfl, rfl⟩
    · exact .inl (.inr h)

theorem Inv.reasons_none (inv : Inv S s) (number n : Nat) (r : β) : (n, r) ∈ s.responses ↔
      (∃ attempt ∈ s.attempts ++ [⟨number, none, s.arrivals⟩],
        attempt.number = n ∧ attempt.result = some r) ∨ (r = S.interrupted ∧ n ∈ s.cancelled) := by
  rw [inv.reasons n r]
  simp [or_and_right, exists_or]

theorem count_push (k n : Nat) :
    (if k < n + 1 then 1 else 0) = (if k < n then 1 else 0) + [n].count k := by
  rw [count_singleton]
  rcases Nat.lt_trichotomy k n with h | rfl | h
  · rw [if_pos (by omega), if_pos h, if_neg (by simp; omega)]
  · simp
  · rw [if_neg (by omega), if_neg (by omega), if_neg (by simp; omega)]

theorem Inv.call {id : κ} {request : ρ} {result : Option β} (inv : Inv S s)
    (phase : s.phase = .requests) :
    Inv S ((s.attempted s.received.length result scheme).receive id request result) := by
  have passed : ∀ i, s.Passed i := fun i j hj => by simp [phase] at hj
  have older : ∀ ticket ∈ s.blocked, (s.received ++ [id])[ticket.number]? = some ticket.id := by
    intro ticket hticket
    have hget := inv.ids ticket hticket
    rw [List.getElem?_append_left (List.getElem?_eq_some_iff.mp hget).1]
    exact hget
  cases result with
  | some response =>
    refine ⟨fun k => ?_, older, inv.reasons_some _ _, inv.seen_le, fun i ticket get _ => ?_⟩
    · have honce := inv.once k
      simp only [answers, places, receive, attempted, map_append, count_append,
        length_append, length_singleton, count_push, map_singleton] at honce ⊢
      omega
    · exact (inv.tried i ticket get (passed i)).attempted _ _ scheme
  | none =>
    refine ⟨fun k => ?_, fun ticket hticket => ?_, inv.reasons_none _, inv.seen_le,
      fun i ticket get _ => ?_⟩
    · have honce := inv.once k
      simp only [answers, places, receive, attempted, map_append, count_append,
        length_append, length_singleton, count_push, map_singleton] at honce ⊢
      omega
    · rcases mem_append.mp hticket with h | h
      · exact older ticket h
      · obtain rfl := mem_singleton.mp h
        exact getElem?_concat_length
    · rcases getElem?_push get with ⟨-, get⟩ | ⟨-, rfl⟩
      · exact (inv.tried i ticket get (passed i)).attempted _ _ scheme
      · exact tried_of_attempted inv ⟨s.received.length, id, request⟩ scheme

/-- What is left of the queue was there before, at its place or one further. -/
theorem getElem?_eraseIdx_cases {α : Type} {xs : List α} {j : Nat} {a : α}
    (h : (xs.eraseIdx i)[j]? = some a) :
    (j < i ∧ xs[j]? = some a) ∨ (i ≤ j ∧ xs[j + 1]? = some a) := by
  rw [getElem?_eraseIdx] at h
  split at h
  · exact .inl ⟨‹_›, h⟩
  · exact .inr ⟨by omega, h⟩

theorem once_unblock {response : β} (inv : Inv S s) (get : s.blocked[i]? = some ticket) (k : Nat) :
    (s.unblock i ticket.number response).answers k + (s.unblock i ticket.number response).places k =
      if k < s.received.length then 1 else 0 := by
  have honce := inv.once k
  obtain ⟨hlt, rfl⟩ := List.getElem?_eq_some_iff.mp get
  have hperm := ((getElem_cons_eraseIdx_perm hlt).map Ticket.number).count_eq k
  rw [map_cons, ← singleton_append, count_append] at hperm
  simp only [answers, places, unblock, map_append, count_append,
    map_singleton] at honce ⊢
  omega

theorem Inv.cancel (inv : Inv S s) (phase : s.phase = .requests)
    (get : s.blocked[i]? = some ticket) : Inv S (s.cancelAt i ticket.number S.interrupted) := by
  have passed : ∀ i, s.Passed i := fun i j hj => by simp [phase] at hj
  refine ⟨once_unblock inv get, fun t ht => inv.ids t (mem_of_mem_eraseIdx ht), ?_, inv.seen_le,
    fun j t hget _ => ?_⟩
  · intro n r
    show (n, r) ∈ s.responses ++ [(ticket.number, S.interrupted)] ↔
      _ ∨ (r = S.interrupted ∧ n ∈ s.cancelled ++ [ticket.number])
    rw [mem_append, inv.reasons n r, mem_append, mem_singleton, mem_singleton,
      Prod.mk.injEq, or_assoc, and_or_left, and_comm (a := n = ticket.number)]
    rfl
  · rcases getElem?_eraseIdx_cases hget with ⟨-, hget⟩ | ⟨-, hget⟩
    all_goals exact inv.tried _ t hget (passed _)

theorem Inv.retry {result : Option β} (inv : Inv S s) (phase : s.phase = .retrying i)
    (get : s.blocked[i]? = some ticket) :
    Inv S ((s.attempted ticket.number result scheme).retried i ticket.number result) := by
  have tried : ∀ j t, s.blocked[j]? = some t → j < i →
      (s.attempted ticket.number result scheme).Tried t := by
    intro j t hget hlt
    refine (inv.tried j t hget fun k hk => ?_).attempted _ _ scheme
    obtain rfl : i = k := by simpa [phase] using hk
    exact hlt
  cases result with
  | some response =>
    refine ⟨once_unblock (s := s) inv get, fun t ht => inv.ids t (mem_of_mem_eraseIdx ht),
      inv.reasons_some _ _, inv.seen_le, fun j t hget hpassed => ?_⟩
    have hlt : j < i := hpassed i phase
    rcases getElem?_eraseIdx_cases hget with ⟨-, hget⟩ | ⟨hle, -⟩
    · exact tried j t hget hlt
    · omega
  | none =>
    refine ⟨inv.once, inv.ids, inv.reasons_none _, inv.seen_le, fun j t hget hpassed => ?_⟩
    rcases Nat.lt_succ_iff_lt_or_eq.mp (hpassed (i + 1) rfl) with hlt | rfl
    · exact tried j t hget hlt
    · obtain rfl : ticket = t := Option.some.inj (get.symm.trans hget)
      exact tried_of_attempted inv ticket scheme

theorem Inv.look (inv : Inv S s) : Inv S s.look :=
  ⟨inv.once, inv.ids, inv.reasons, inv.seen_le, inv.tried⟩

theorem Inv.step [DecidableEq κ] (inv : Inv S s) (h : step S s e = some s') : Inv S s' := by
  cases move_of_step h with
  | quiet quiet => exact inv.quiet quiet
  | call id request result scheme phase => exact inv.call phase
  | cancel id i ticket phase get => exact inv.cancel phase get
  | retry i ticket result scheme phase get => exact inv.look.retry phase get

theorem inv_new (S : Service ρ β σ) (scheme : σ) : Inv S (new scheme : Server κ ρ β σ) where
  once _ := by simp [new, answers, places]
  ids := nofun
  reasons _ _ := by simp [new]
  seen_le := Nat.le_refl 0
  tried := nofun

theorem invariant [DecidableEq κ] {es : List (Event κ ρ σ)}
    (h : run (Server.step S) (new scheme) es = some s) : Inv S s :=
  invariant_of_run (inv_new S scheme) (fun _ _ _ inv hstep => inv.step hstep) h

end Invariant

/-! ### Answering once -/

section

variable (S s)

/-- **Answering once.** No request is answered twice, and a request is queued, in one place, exactly
while it has been received and not been answered. A response is what the handler returned for the
request, or says that it was cancelled while it was queued. When a round is over, the handler has
said of each request left that it is not ready, after all the data that had arrived when the
round's retry loop began. -/
structure AnswersOnce : Prop where
  at_most : ∀ number, s.answers number ≤ 1
  blocked_iff : ∀ number, (∃ ticket ∈ s.blocked, ticket.number = number) ↔
    number < s.received.length ∧ s.answers number = 0
  nodup : (s.blocked.map Ticket.number).Nodup
  reasons : ∀ number response, (number, response) ∈ s.responses ↔
    (∃ attempt ∈ s.attempts, attempt.number = number ∧ attempt.result = some response) ∨
      (response = S.interrupted ∧ number ∈ s.cancelled)
  waits : s.phase = .idle → ∀ ticket ∈ s.blocked, s.Tried ticket

/-- What `AnswersOnce.waits` does not say: when a round is over, the handler has said of each request
left that it is not ready, after all the data that the round's retry loop has seen. -/
def WaitsForAll : Prop :=
  s.phase = .idle → ∀ ticket ∈ s.blocked, s.TriedSince s.looked ticket

instance : Decidable s.WaitsForAll :=
  inferInstanceAs (Decidable (s.phase = .idle → ∀ ticket ∈ s.blocked, ∃ attempt ∈ s.attempts,
    attempt.number = ticket.number ∧ attempt.result = none ∧ s.looked ≤ attempt.arrivals))

end

/-- A cancellation has no effect if every request with its id has been answered. -/
def CancelsOnlyBlocked [DecidableEq κ] (S : Service ρ β σ) (s : Server κ ρ β σ) (e : Event κ ρ σ) : Prop :=
  ∀ id s', e = .cancel id → step S s e = some s' →
    (∀ number, s.received[number]? = some id → s.answers number ≠ 0) → s' = s

theorem Inv.answersOnce (inv : Inv S s) : AnswersOnce S s where
  at_most number := by
    have := inv.once number
    split at this <;> omega
  blocked_iff number := by
    have honce := inv.once number
    have hplaces : (∃ ticket ∈ s.blocked, ticket.number = number) ↔ 0 < s.places number := by
      rw [places, count_pos_iff, mem_map]
    rw [hplaces]
    split at honce <;> omega
  nodup := by
    refine nodup_iff_count_le_one.mpr fun number => ?_
    have honce := inv.once number
    rw [places] at honce
    split at honce <;> omega
  reasons := inv.reasons
  waits idle ticket hticket := by
    obtain ⟨i, get⟩ := mem_iff_getElem?.mp hticket
    exact inv.tried i ticket get fun j hj => by simp [idle] at hj

theorem Inv.cancelsOnlyBlocked [DecidableEq κ] (inv : Inv S s) : CancelsOnlyBlocked S s e := by
  intro id s' he hstep hanswered
  subst he
  cases move_of_step hstep with
  | quiet quiet cancel => exact cancel id rfl
  | cancel id i ticket phase get found =>
    have hmem := mem_of_getElem? get
    exact absurd (inv.not_answered hmem) (hanswered _ (found ▸ inv.ids ticket hmem))

/-- In every run every request is answered once, and cancellations reach queued requests only. -/
theorem throughout_answersOnce [DecidableEq κ] (S : Service ρ β σ) (scheme : σ)
    (es : List (Event κ ρ σ)) : Throughout (step S) (new scheme) (AnswersOnce S) es ∧
      Along (step S) (new scheme) (CancelsOnlyBlocked S) es :=
  ⟨fun _ _ _ hs => (invariant hs).answersOnce,
    fun _ _ _ _ _ hs => (invariant hs).cancelsOnlyBlocked⟩

end Server

end RedoxDrivers.Lib.Serving
