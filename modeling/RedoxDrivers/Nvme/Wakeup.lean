import RedoxDrivers.Nvme.Submissions

/-!
No wakeup is lost between the completion futures and the reactor
(`storage/nvmed/src/nvme/cq_reactor.rs`).

* A future sends its request before it rings the doorbell, and a command cannot complete before
  that. The reactor drains the channel after it has taken the entry, so the request is on its
  list by then (`Served`).
* A future that finds the queue full sends its request under the lock that the reactor takes to
  store a head. A head that is stored later is followed by a drain that finds the request
  (`Waits`).

A future that is polled again sends its request again. The reactor answers the old one and may
find the new one later: it then fills the message once more and wakes a task for nothing.
-/

namespace RedoxDrivers.Nvme.Wakeup

open Lib Function List Option NotifReq

namespace State

/-! ### Requests for a completion -/

/-- The requests that have been made and not answered. -/
def requests (s : State) : List PendingReq := s.pendingReqs ++ s.channel.map toPending

/-- The request that the future `g` sends for the completion of its command. -/
def completionReq (s : State) (g : FutureId) (cmdId : CmdId) : PendingReq :=
  .pendingCompletion g g (s.sq g).cqId (s.sqId g) cmdId

/-- What the reactor has done or has still to do for the future `g`. -/
structure Served (s : State) (g : FutureId) : Prop where
  /-- Nobody fills the message of a future that has not sent a request. -/
  fresh : (∀ id, ¬ (s.places g).Sent id) → s.cells.message g = none
  asks : ∀ id, (s.places g).sentId? = some id → s.cells.message g = none →
    s.completionReq g id ∈ s.requests
  /-- While the reactor goes over its list with the entry of `g`, the request is still ahead. -/
  ahead : ∀ p i id, s.reactor.notifying? = some (p, i) → p.owner = some g →
    (s.places g).sentId? = some id → s.cells.message g = none →
      s.completionReq g id ∈ s.pendingReqs.drop i
  /-- Once it is through, the message is there. -/
  filled : ∀ p ∈ s.taken, p.owner = some g →
    (∃ cqId, s.reactor.entry? = some (cqId, p)) ∨ s.places g = .finished ∨
      s.cells.message g ≠ none
  woken : ∀ id, (s.places g).sentId? = some id → s.places g ≠ .looking id →
    s.cells.message g ≠ none → s.cells.woken g = true ∨ s.reactor.waking? = some g

/-- What the moves of the futures and of the controller leave as it is. -/
structure Calm (s s' : State) : Prop where
  sqId : s'.sqId = s.sqId
  cqId : ∀ q, (s'.sqs q).cqId = (s.sqs q).cqId
  pendingReqs : s'.pendingReqs = s.pendingReqs
  channel : ∃ new, s'.channel = s.channel ++ new
  reactor : s'.reactor = s.reactor
  taken : s'.taken = s.taken

section Served

variable {s s' : State} {f g : FutureId}

theorem Calm.requests (calm : Calm s s') {req : PendingReq} (h : req ∈ s.requests) :
    req ∈ s'.requests := by
  obtain ⟨new, hnew⟩ := calm.channel
  rw [State.requests, calm.pendingReqs, hnew, map_append, ← append_assoc]
  exact mem_append_left _ h

theorem Calm.of (m : Move s s') (hpending : s'.pendingReqs = s.pendingReqs)
    (hchannel : ∃ new, s'.channel = s.channel ++ new) (hreactor : s'.reactor = s.reactor)
    (htaken : s'.taken = s.taken) : Calm s s' :=
  ⟨m.sqId, m.cqId, hpending, hchannel, hreactor, htaken⟩

theorem completionReq_congr (hid : s'.sqId = s.sqId)
    (hcqId : ∀ q, (s'.sqs q).cqId = (s.sqs q).cqId) : s'.completionReq g = s.completionReq g := by
  funext id
  rw [completionReq, completionReq, sq, hcqId, hid, sq]

theorem Calm.completionReq (calm : Calm s s') (g : FutureId) (id : CmdId) :
    s'.completionReq g id = s.completionReq g id :=
  congrFun (completionReq_congr calm.sqId calm.cqId) id

/-- A future whose place and message stay, and whose request is neither answered nor passed over. -/
theorem Served.react (h : Served s g) (hid : s'.sqId = s.sqId)
    (hcqId : ∀ q, (s'.sqs q).cqId = (s.sqs q).cqId) (hplace : s'.places g = s.places g)
    (hmessage : s'.cells.message g = s.cells.message g) (htaken : s'.taken = s.taken)
    (hreqs : ∀ id, s.completionReq g id ∈ s.requests → s.completionReq g id ∈ s'.requests)
    (hentry : s'.reactor.entry? = s.reactor.entry?)
    (hwoken : s.cells.woken g = true ∨ s.reactor.waking? = some g →
      s'.cells.woken g = true ∨ s'.reactor.waking? = some g)
    (hahead : ∀ p i id, s'.reactor.notifying? = some (p, i) → p.owner = some g →
      (s.places g).sentId? = some id → s.cells.message g = none →
        s.completionReq g id ∈ s'.pendingReqs.drop i) : Served s' g := by
  have hreq := completionReq_congr (g := g) hid hcqId
  refine ⟨?_, ?_, ?_, ?_, ?_⟩
  · rw [hplace, hmessage]
    exact h.fresh
  · rw [hplace, hmessage, hreq]
    exact fun id hid hnone => hreqs id (h.asks id hid hnone)
  · rw [hplace, hmessage, hreq]
    exact hahead
  · rw [hplace, hmessage, htaken, hentry]
    exact h.filled
  · rw [hplace, hmessage]
    exact fun id hid hlook hfull => hwoken (h.woken id hid hlook hfull)

/-- A future whose place, message and wakeup stay is served as before. -/
theorem Served.calm (h : Served s g) (calm : Calm s s') (hplace : s'.places g = s.places g)
    (hmessage : s'.cells.message g = s.cells.message g)
    (hwoken : s'.cells.woken g = s.cells.woken g) : Served s' g := by
  refine h.react calm.sqId calm.cqId hplace hmessage calm.taken (fun _ => calm.requests) ?_ ?_ ?_
  · rw [calm.reactor]
  · rw [calm.reactor, hwoken]
    exact id
  · rw [calm.reactor, calm.pendingReqs]
    exact h.ahead

/-- A future that has not sent a request has nothing to be served with. -/
theorem Served.unsent (flow : Flow s) (hplace : ∀ id, ¬ (s.places g).Sent id)
    (hid : (s.places g).sentId? = none) (hmessage : s.cells.message g = none) : Served s g := by
  refine ⟨fun _ => hmessage, fun id h => ?_, fun p i id _ _ h => ?_, fun p hp hg => ?_, fun id h => ?_⟩
  · rw [hid] at h
    cases h
  · rw [hid] at h
    cases h
  · exact absurd (flow.taken p g hp hg).2 (hplace _)
  · rw [hid] at h
    cases h

/-- A future that has sent its request goes on, with its message as it was. -/
theorem Served.onward (h : Served s g) (calm : Calm s s') {id : CmdId}
    (hold : (s.places g).sentId? = some id) (hsent : (s'.places g).Sent id)
    (hid : (s'.places g).sentId? = some id) (hmessage : s'.cells.message g = s.cells.message g)
    (hwoken : s'.places g ≠ .looking id → s.cells.message g ≠ none →
      s'.cells.woken g = true ∨ s.reactor.waking? = some g) : Served s' g := by
  have same : ∀ id', (s'.places g).sentId? = some id' → (s.places g).sentId? = some id' :=
    fun id' h' => hold.trans (hid.symm.trans h')
  refine ⟨fun hnone => absurd hsent (hnone id), ?_, ?_, ?_, ?_⟩
  · rw [hmessage]
    intro id' hid' hnone
    rw [calm.completionReq]
    exact calm.requests (h.asks id' (same id' hid') hnone)
  · rw [hmessage, calm.reactor, calm.pendingReqs]
    intro p i id' hp hg hid'
    rw [calm.completionReq]
    exact h.ahead p i id' hp hg (same id' hid')
  · rw [hmessage, calm.reactor, calm.taken]
    intro p hp hg
    rcases h.filled p hp hg with hentry | hfin | hfilled
    · exact .inl hentry
    · rw [hfin] at hold
      cases hold
    · exact .inr (.inr hfilled)
  · rw [hmessage, calm.reactor]
    intro id' hid' hlook
    obtain rfl : id = id' := some.inj (hid.symm.trans hid')
    exact hwoken hlook

theorem Served.finished (hplace : s.places g = .finished) : Served s g := by
  have hid : (s.places g).sentId? = none := by rw [hplace]; rfl
  refine ⟨fun hnone => absurd ?_ (hnone 0), fun id h => ?_, fun p i id _ _ h => ?_,
    fun _ _ _ => .inr (.inl hplace), fun id h => ?_⟩
  · rw [hplace]
    trivial
  all_goals
    rw [hid] at h
    cases h

/-- A future that has written its command sends its request. -/
theorem Served.request (h : Served s f) (flow : Flow s) {cmdId : CmdId}
    (hf : s.places f = .written cmdId) : Served (s.request f cmdId (.requested cmdId)) f := by
  have hplace : (s.request f cmdId (.requested cmdId)).places f = .requested cmdId :=
    update_self _ _ _
  have hnone : s.cells.message f = none := h.fresh fun id hsent => by
    rw [hf] at hsent
    exact hsent
  have hnot : ∀ p ∈ s.taken, p.owner ≠ some f := fun p hp hg => by
    have hsent := (flow.taken p f hp hg).2
    rw [hf] at hsent
    exact hsent
  refine ⟨fun _ => hnone, fun id hid _ => ?_, fun p i id hp hg _ _ => ?_,
    fun p hp hg => absurd hg (hnot p hp), fun _ _ _ hfull => absurd hnone hfull⟩
  · rw [hplace] at hid
    cases hid
    refine mem_append_right _ (mem_map.mpr ⟨_, mem_append_right _ mem_cons_self, ?_⟩)
    rfl
  · have hentry : ∃ cqId, s.reactor.entry? = some (cqId, p) := by
      change s.reactor.notifying? = _ at hp
      revert hp
      cases s.reactor with
      | notifying cqId | waking cqId => rintro ⟨⟩; exact ⟨cqId, rfl⟩
      | idle | took | locked | draining => rintro ⟨⟩
    obtain ⟨cqId, hentry⟩ := hentry
    exact absurd hg (hnot p (flow.handled cqId p hentry).1)

end Served

/-- A request for a completion names the task and the message of one future, which has sent it. -/
def Known (s : State) : PendingReq → Prop
  | .pendingCompletion w g _ _ _ => w = g ∧ ∃ id, (s.places g).Sent id
  | .pendingAvailSubmission _ _ => True

structure Answers (s : State) : Prop where
  known : ∀ req ∈ s.requests, s.Known req
  served : ∀ g, s.Served g

section Answers

variable {s s' : State} {f g : FutureId}

theorem Known.move {req : PendingReq} (h : s.Known req) (m : Move s s') : s'.Known req := by
  cases req with
  | pendingAvailSubmission => trivial
  | pendingCompletion w g =>
    obtain ⟨hw, id, hsent⟩ := h
    have hsentAs : s.SentAs g (s.sqId g) id := ⟨rfl, hsent⟩
    exact ⟨hw, id, (hsentAs.move m).2⟩

/-- Requests that were there are still known. -/
theorem Answers.still (h : Answers s) (m : Move s s')
    (hreqs : ∀ req ∈ s'.requests, req ∈ s.requests) (hserved : ∀ g, Served s' g) : Answers s' :=
  ⟨fun req hreq => (h.known req (hreqs req hreq)).move m, hserved⟩

/-- A future moves without sending a request for a completion. -/
theorem Answers.quiet (h : Answers s) (m : Move s s') (calm : Calm s s')
    (hquiet : ∀ req ∈ s'.requests, req ∈ s.requests ∨ s'.Known req) (hplace : ∀ g ≠ f, s'.places g = s.places g)
    (hmessage : ∀ g ≠ f, s'.cells.message g = s.cells.message g)
    (hwoken : ∀ g ≠ f, s'.cells.woken g = s.cells.woken g) (hf : Served s' f) : Answers s' := by
  refine ⟨fun req hreq => (hquiet req hreq).elim (fun hold => (h.known req hold).move m) id, fun g => ?_⟩
  by_cases hg : g = f
  · subst hg
    exact hf
  · exact (h.served g).calm calm (hplace g hg) (hmessage g hg) (hwoken g hg)

/-- A future sends a request for the completion of its command. -/
theorem Answers.request (h : Answers s) {cmdId : CmdId} {place : Place}
    (m : Move s (s.request f cmdId place)) (hsent : place.Sent cmdId)
    (hf : Served (s.request f cmdId place) f) : Answers (s.request f cmdId place) := by
  have hplaces : (s.request f cmdId place).places = update s.places f place := rfl
  have calm : Calm s (s.request f cmdId place) := .of m rfl ⟨[_], rfl⟩ rfl rfl
  refine h.quiet m calm (fun req hmem => ?_) (fun g hg => ?_) (fun _ _ => rfl) (fun _ _ => rfl) hf
  · have hreqs : (s.request f cmdId place).requests =
        s.requests ++ [s.completionReq f cmdId] := by
      simp [State.request, State.requests, send, moveTo, toPending, completionReq]
    rw [hreqs] at hmem
    rcases mem_append.mp hmem with hmem | hmem
    · exact .inl hmem
    · cases mem_singleton.mp hmem
      refine .inr ⟨rfl, cmdId, ?_⟩
      rw [hplaces, update_self]
      exact hsent
  · rw [hplaces, update_of_ne hg]

/-- The request of the future an entry is for matches the entry. -/
theorem Flow.finishes (flow : Flow s) {cqId : CqId} {p : Tagged NvmeComp} {id : CmdId}
    (hentry : s.reactor.entry? = some (cqId, p)) (hg : p.owner = some g)
    (hid : (s.places g).sentId? = some id) : (s.completionReq g id).finishes cqId p.item = true := by
  obtain ⟨hmem, hcq⟩ := flow.handled cqId p hentry
  obtain ⟨hsq, hsent⟩ := flow.taken p g hmem hg
  rcases hsent.cases with hcid | hfin
  · obtain rfl : id = p.item.cid := some.inj (hid.symm.trans hcid)
    simp [completionReq, PendingReq.finishes, sq, hsq, hcq]
  · rw [hfin] at hid
    cases hid

theorem mem_drop_succ {α : Type} {l : List α} {i : Nat} {x y : α} (hy : l[i]? = some y)
    (hx : x ∈ l.drop i) (hne : y ≠ x) : x ∈ l.drop (i + 1) := by
  obtain ⟨hlt, rfl⟩ := List.getElem?_eq_some_iff.mp hy
  rw [drop_eq_getElem_cons hlt] at hx
  rcases mem_cons.mp hx with rfl | hx
  · exact absurd rfl hne
  · exact hx

theorem drop_eraseIdx_self {α : Type} {l : List α} {i : Nat} {y : α} (hy : l[i]? = some y) :
    (l.eraseIdx i).drop i = l.drop (i + 1) := by
  obtain ⟨hlt, -⟩ := List.getElem?_eq_some_iff.mp hy
  have hlen : (l.take i).length = i := by
    rw [length_take]
    omega
  rw [eraseIdx_eq_take_drop_succ, drop_append_of_le_length (by omega),
    drop_eq_nil_of_le (by omega), nil_append]

/-- A request stays when another one is removed. -/
theorem mem_requests_erase {i : Nat} {req x : PendingReq} (hreq : s.pendingReqs[i]? = some req)
    (hx : x ∈ s.requests) (hne : req ≠ x) :
    x ∈ s.pendingReqs.eraseIdx i ++ s.channel.map toPending := by
  rcases mem_append.mp hx with hx | hx
  · refine mem_append_left _ (mem_eraseIdx_iff_getElem?.mpr ?_)
    obtain ⟨j, hj⟩ := getElem?_of_mem hx
    refine ⟨j, ?_, hj⟩
    rintro rfl
    exact hne (some.inj (hreq.symm.trans hj))
  · exact mem_append_right _ hx

section

variable (h : Answers s)

include h

variable {cqId : CqId} {p : Tagged NvmeComp} {i : Nat}

theorem Answers.answer {req : PendingReq} (hr : s.reactor = .notifying cqId p i)
    (hreq : s.pendingReqs[i]? = some req) : Answers (s.answer cqId p i req) := by
  have m : Move s (s.answer cqId p i req) := .answer hr hreq
  have hmem : req ∈ s.requests := mem_append_left _ (mem_of_getElem? hreq)
  have hnotifying : s.reactor.notifying? = some (p, i) := by rw [hr]; rfl
  have hkept : ∀ x ∈ s.pendingReqs.eraseIdx i ++ s.channel.map toPending, x ∈ s.requests :=
    fun x hx => (mem_append.mp hx).elim (fun hx => mem_append_left _ (mem_of_mem_eraseIdx hx))
      (mem_append_right _)
  cases req with
  | pendingAvailSubmission waker q =>
    refine h.still m hkept fun g => (h.served g).react m.sqId m.cqId rfl rfl rfl
      (fun id hx => mem_requests_erase hreq hx fun heq => by cases heq)
      (by rw [hr]; rfl) (fun hw => .inl (hw.resolve_right (by rw [hr]; nofun))) ?_
    rintro _ _ id ⟨⟩ hg hid hnone
    have hx := (h.served g).ahead p i id hnotifying hg hid hnone
    change _ ∈ (s.pendingReqs.eraseIdx i).drop i
    rw [drop_eraseIdx_self hreq]
    exact mem_drop_succ hreq hx fun heq => by cases heq
  | pendingCompletion waker message cq q id₀ =>
    obtain ⟨rfl, id', hsent⟩ := h.known _ hmem
    refine h.still m hkept fun g => ?_
    by_cases hg : g = waker
    · -- The future whose message is filled.
      subst hg
      have hfull : (s.answer cqId p i (.pendingCompletion g g cq q id₀)).cells.message g ≠ none := by
        simp [State.answer, setMessage]
      exact ⟨fun hnot => absurd hsent (hnot id'), fun _ _ hnone => absurd hnone hfull,
        fun _ _ _ _ _ _ hnone => absurd hnone hfull, fun _ _ _ => .inr (.inr hfull),
        fun _ _ _ _ => .inr rfl⟩
    · have hne : ∀ id, PendingReq.pendingCompletion waker waker cq q id₀ ≠ s.completionReq g id := by
        intro id heq
        cases heq
        exact hg rfl
      refine (h.served g).react m.sqId m.cqId rfl (update_of_ne hg _ _) rfl
        (fun id hx => mem_requests_erase hreq hx (hne id)) (by rw [hr]; rfl) ?_ ?_
      · rw [hr]
        exact fun hwoken => .inl (hwoken.resolve_right nofun)
      · rintro _ _ id ⟨⟩ howner hid hnone
        have hx := (h.served g).ahead p i id hnotifying howner hid hnone
        change _ ∈ (s.pendingReqs.eraseIdx i).drop i
        rw [drop_eraseIdx_self hreq]
        exact mem_drop_succ hreq hx (hne id)

theorem Answers.done (flow : Flow s) (hr : s.reactor = .notifying cqId p i)
    (hend : s.pendingReqs[i]? = none) : Answers (s.goTo .idle) := by
  refine h.still (.done hr hend) (fun _ => id) fun g => ?_
  refine ⟨(h.served g).fresh, (h.served g).asks, fun _ _ _ hx => ?_, fun p' hp' howner => .inr ?_,
    fun id hid hlook hfull => ?_⟩
  · cases hx
  · rcases (h.served g).filled p' hp' howner with ⟨cqId', hentry⟩ | hrest
    · -- The reactor has just come to the end of its list with the entry of `g`.
      obtain rfl : p = p' := by
        rw [hr] at hentry
        cases hentry
        rfl
      rcases (flow.taken p g hp' howner).2.cases with hid | hfin
      · refine .inr fun hnone => ?_
        have hx := (h.served g).ahead p i _ (by rw [hr]; rfl) howner hid hnone
        rw [drop_eq_nil_of_le (getElem?_eq_none_iff.mp hend)] at hx
        cases hx
      · exact .inl hfin
    · exact hrest
  · rcases (h.served g).woken id hid hlook hfull with hwoken | hwaking
    · exact .inl hwoken
    · rw [hr] at hwaking
      cases hwaking

theorem Answers.wake {waker : FutureId} (hr : s.reactor = .waking cqId p i waker) :
    Answers ((s.setWoken waker true).goTo (.notifying cqId p i)) := by
  refine h.still (.wake hr) (fun _ => id) fun g => ?_
  have hahead := (h.served g).ahead
  rw [hr] at hahead
  refine (h.served g).react rfl (fun _ => rfl) rfl rfl rfl (fun _ => id) (by rw [hr]; rfl)
    (fun hwoken => .inl ?_) hahead
  change update s.cells.woken waker true g = true
  by_cases hg : g = waker
  · subst hg
    exact update_self _ _ _
  · rw [update_of_ne hg]
    refine hwoken.resolve_right fun hwaking => ?_
    rw [hr] at hwaking
    cases hwaking
    exact hg rfl

theorem Answers.take {rest : List (Tagged NvmeComp)} (hr : s.reactor = .idle)
    (hcq : s.cqs cqId = p :: rest) : Answers (s.takeEntry cqId p rest) := by
  refine h.still (.take hr hcq) (fun _ => id) fun g => ?_
  refine ⟨(h.served g).fresh, (h.served g).asks, fun _ _ _ hx => ?_, fun p' hp' howner => ?_,
    fun id hid hlook hfull => ?_⟩
  · cases hx
  · rcases mem_append.mp hp' with hp' | hp'
    · rcases (h.served g).filled p' hp' howner with ⟨cqId', hentry⟩ | hrest
      · rw [hr] at hentry
        cases hentry
      · exact .inr hrest
    · cases mem_singleton.mp hp'
      exact .inl ⟨cqId, rfl⟩
  · rcases (h.served g).woken id hid hlook hfull with hwoken | hwaking
    · exact .inl hwoken
    · rw [hr] at hwaking
      cases hwaking

/-- A future that has not sent a request for a completion moves on and does not send one. -/
theorem Answers.unsent (flow : Flow s') (m : Move s s') (calm : Calm s s') {place : Place}
    (hplaces : s'.places = update s.places f place) (hold : ∀ id, ¬ (s.places f).Sent id)
    (hplace : ∀ id, ¬ place.Sent id) (hid : place.sentId? = none)
    (hquiet : ∀ req ∈ s'.requests, req ∈ s.requests ∨ s'.Known req)
    (hnone : s.cells.message f = none → s'.cells.message f = none)
    (hmessage : ∀ g ≠ f, s'.cells.message g = s.cells.message g)
    (hwoken : ∀ g ≠ f, s'.cells.woken g = s.cells.woken g) : Answers s' := by
  have hf : s'.places f = place := by rw [hplaces, update_self]
  refine h.quiet m calm hquiet (fun g hg => ?_) hmessage hwoken ?_
  · rw [hplaces, update_of_ne hg]
  · refine .unsent flow (hf ▸ hplace) (hf ▸ hid) (hnone ?_)
    exact (h.served f).fresh hold

/-- A future that has sent its request moves on and does not touch its message. -/
theorem Answers.onward (m : Move s s') (calm : Calm s s') {place : Place}
    (hplaces : s'.places = update s.places f place) {id : CmdId}
    (hold : (s.places f).sentId? = some id) (hsent : place.Sent id)
    (hid : place.sentId? = some id) (hquiet : s'.requests = s.requests)
    (hmessage : s'.cells.message = s.cells.message)
    (hothers : ∀ g ≠ f, s'.cells.woken g = s.cells.woken g)
    (hwoken : place ≠ .looking id → s.cells.message f ≠ none →
      s'.cells.woken f = true ∨ s.reactor.waking? = some f) : Answers s' := by
  have hf : s'.places f = place := by rw [hplaces, update_self]
  refine h.quiet m calm (fun _ hmem => .inl (hquiet ▸ hmem)) (fun g hg => ?_)
    (fun g _ => congrFun hmessage g) hothers ?_
  · rw [hplaces, update_of_ne hg]
  · exact (h.served f).onward calm hold (hf ▸ hsent) (hf ▸ hid) (congrFun hmessage f) (hf ▸ hwoken)

theorem Answers.move (flow : Flow s) (flow' : Flow s') (m : Move s s') : Answers s' := by
  have still : ∃ new, s.channel = s.channel ++ new := ⟨[], (append_nil _).symm⟩
  cases id m with
  | beginSubmit hf =>
    exact h.unsent flow' m (.of m rfl still rfl rfl) rfl (by rw [hf]; exact fun _ => id) (fun _ => id) rfl
      (fun _ => .inl) id (fun _ _ => rfl) fun _ hg => update_of_ne hg _ _
  | lock hf | giveUp hf | findFull hf =>
    exact h.unsent flow' m (.of m rfl still rfl rfl) rfl (by rw [hf]; exact fun _ => id) (fun _ => id) rfl
      (fun _ => .inl) id (fun _ _ => rfl) fun _ _ => rfl
  | write hf =>
    exact h.unsent flow' m (.of m rfl still rfl rfl) rfl (by rw [hf]; exact fun _ => id) (fun _ => id) rfl
      (fun _ => .inl) (fun _ => update_self _ _ _) (fun _ hg => update_of_ne hg _ _) fun _ _ => rfl
  | @askAvail f cmdInit hf =>
    refine h.unsent flow' m (.of m rfl ⟨[_], rfl⟩ rfl rfl) rfl
      (by rw [hf]; exact fun _ => id) (fun _ => id) rfl (fun req hmem => ?_) id
      (fun _ _ => rfl) fun _ _ => rfl
    have hreqs : (s.askAvail f cmdInit).requests =
        s.requests ++ [.pendingAvailSubmission f (s.sqId f)] := by
      simp [requests, askAvail, send, moveTo, toPending]
    rw [hreqs] at hmem
    rcases mem_append.mp hmem with hmem | hmem
    · exact .inl hmem
    · cases mem_singleton.mp hmem
      exact .inr trivial
  | request hf => exact h.request m rfl ((h.served _).request flow hf)
  | ring hf | release hf =>
    refine h.onward m (.of m rfl still rfl rfl) rfl (by rw [hf]; rfl) rfl rfl rfl rfl (fun _ _ => rfl)
      fun _ hfull => ?_
    exact (h.served _).woken _ (by rw [hf]; rfl) (by rw [hf]; intro heq; cases heq) hfull
  | beginLook hf =>
    exact h.onward m (.of m rfl still rfl rfl) rfl (by rw [hf]; rfl) rfl rfl rfl
      rfl (fun _ hg => update_of_ne hg _ _) fun hlook => absurd rfl hlook
  | @finish f =>
    refine h.quiet m (.of m rfl still rfl rfl) (fun _ => .inl)
      (fun _ hg => update_of_ne hg _ _) (fun _ hg => update_of_ne hg _ _)
      (fun _ _ => rfl) (.finished (g := f) (update_self _ _ _))
  | miss hf hnone =>
    exact h.onward m (.of m rfl still rfl rfl) rfl (by rw [hf]; rfl) rfl rfl rfl
      rfl (fun _ _ => rfl) fun _ hfull => absurd hnone hfull
  | @register f cmdId hf =>
    have hplace : (s.request f cmdId (.pendingCompletion cmdId)).places f =
        .pendingCompletion cmdId := update_self _ _ _
    have hold : (s.places f).sentId? = some cmdId := by rw [hf]; rfl
    refine h.request m rfl ((h.served f).onward (.of m rfl ⟨[_], rfl⟩ rfl rfl) hold
      ?_ ?_ rfl fun _ hfull => ?_)
    · rw [hplace]
      rfl
    · rw [hplace]
      rfl
    · exact (h.served f).woken cmdId hold (by rw [hf]; intro heq; cases heq) hfull
  | fetch | post =>
    exact h.still m (fun _ => id) fun g => (h.served g).calm (.of m rfl still rfl rfl) rfl rfl rfl
  | @receive req rest hr hchannel =>
    have hreqs : (s.receiveOne req rest).requests = s.requests := by
      simp [requests, receiveOne, hchannel]
    refine h.still m (fun _ hmem => hreqs ▸ hmem) fun g => ?_
    refine (h.served g).react m.sqId m.cqId rfl rfl rfl (fun id hmem => hreqs ▸ hmem) rfl id fun _ _ _ hx => ?_
    cases hr.symm.trans hx
  | take hr hcq => exact h.take hr hcq
  | lockSq hr | storeHead hr =>
    refine h.still m (fun _ => id) fun g => ?_
    exact (h.served g).react m.sqId m.cqId rfl rfl rfl (fun _ => id) (by rw [hr]; rfl)
      (fun hw => .inl (hw.resolve_right (by simp [hr, ReactorPlace.waking?]))) fun _ _ _ hx => by cases hx
  | unlockSq hr hchannel =>
    refine h.still m (fun _ => id) fun g => ?_
    refine (h.served g).react m.sqId m.cqId rfl rfl rfl (fun _ => id) (by rw [hr]; rfl)
      (fun hw => .inl (hw.resolve_right (by simp [hr, ReactorPlace.waking?]))) ?_
    rintro _ _ id ⟨⟩ howner hid hnone
    have hmem := (h.served g).asks id hid hnone
    rw [requests, hchannel, map_nil, append_nil] at hmem
    exact hmem
  | done hr hend => exact h.done flow hr hend
  | @skip cqId p i req hr hreq hskip =>
    refine h.still m (fun _ => id) fun g => ?_
    refine (h.served g).react m.sqId m.cqId rfl rfl rfl (fun _ => id) (by rw [hr]; rfl)
      (fun hw => .inl (hw.resolve_right (by simp [hr, ReactorPlace.waking?]))) ?_
    rintro _ _ id ⟨⟩ howner hid hnone
    have hx := (h.served g).ahead p i id (by rw [hr]; rfl) howner hid hnone
    refine mem_drop_succ hreq hx ?_
    rintro rfl
    rw [flow.finishes (by rw [hr]; rfl) howner hid] at hskip
    cases hskip
  | answer hr hreq => exact h.answer hr hreq
  | wake hr => exact h.wake hr

end

end Answers

/-! ### Requests for a free entry -/

def availReq (s : State) (f : FutureId) : PendingReq := .pendingAvailSubmission f (s.sqId f)

/-- The reactor has stored a head in the queue of `f` and is going to answer its request. -/
def Answering (s : State) (f : FutureId) : Prop :=
  match s.reactor with
  | .draining _ p => p.item.sqId = s.sqId f
  | .notifying _ p i => p.item.sqId = s.sqId f ∧ s.availReq f ∈ s.pendingReqs.drop i
  | .waking _ p i waker =>
    p.item.sqId = s.sqId f ∧ (waker = f ∨ s.availReq f ∈ s.pendingReqs.drop i)
  | _ => False

/-- What holds of a future that has found its queue full. -/
structure Waits (s : State) (f : FutureId) : Prop where
  /-- No head is stored between the question and the request: the lock is held. -/
  full : ∀ cmdInit, s.places f = .full cmdInit → s.asked f = some (s.stores (s.sqId f))
  sent : ∀ n, (s.places f).Waiting → s.asked f = some n → s.cells.woken f = false →
    s.availReq f ∈ s.requests ∨ s.reactor.waking? = some f
  answered : ∀ n, (s.places f).Waiting → s.asked f = some n → n < s.stores (s.sqId f) →
    s.cells.woken f = false → s.Answering f

section Waits

variable {s s' : State} {f g : FutureId}

theorem Calm.answering (calm : Calm s s') : s'.Answering f ↔ s.Answering f := by
  rw [Answering, Answering, calm.reactor, calm.pendingReqs, availReq, availReq, calm.sqId]

/-- A future that is between polls, or not moved, waits as before. -/
theorem Waits.calm (h : Waits s f) (calm : Calm s s') (hasked : s'.asked f = s.asked f)
    (hstores : s'.stores = s.stores) (hwoken : s'.cells.woken f = s.cells.woken f)
    (hfull : ∀ cmdInit, s'.places f = .full cmdInit → s.places f = .full cmdInit)
    (hwaiting : (s'.places f).Waiting → (s.places f).Waiting) : Waits s' f := by
  refine ⟨?_, ?_, ?_⟩
  · rw [hasked, hstores, calm.sqId]
    exact fun cmdInit hf => h.full cmdInit (hfull cmdInit hf)
  · rw [hasked, hwoken, calm.reactor]
    intro n hw hn hnot
    refine (h.sent n (hwaiting hw) hn hnot).imp_left fun hmem => ?_
    rw [availReq, calm.sqId]
    exact calm.requests hmem
  · rw [hasked, hstores, hwoken, calm.sqId]
    exact fun n hw hn hlt hnot => calm.answering.mpr (h.answered n (hwaiting hw) hn hlt hnot)

section

variable (h : Waits s f)

include h

theorem Waits.askAvail {cmdInit : CmdInit} (hf : s.places f = .full cmdInit) :
    Waits (s.askAvail f cmdInit) f := by
  have hplace : (s.askAvail f cmdInit).places f = .asked cmdInit := update_self _ _ _
  refine ⟨fun cmdInit' hf' => ?_, fun n _ _ _ => .inl ?_, fun n _ hn hlt => ?_⟩
  · rw [hplace] at hf'
    cases hf'
  · refine mem_append_right _ (mem_map.mpr ⟨_, mem_append_right _ mem_cons_self, ?_⟩)
    rfl
  · have hasked := h.full cmdInit hf
    obtain rfl : n = s.stores (s.sqId f) := some.inj (hn.symm.trans hasked)
    exact absurd hlt (Nat.lt_irrefl _)

/-- The reactor moves without storing a head or waking a task. -/
theorem Waits.react (m : Move s s') (hplaces : s'.places = s.places)
    (hcells : s'.cells.woken = s.cells.woken) (hasked : s'.asked = s.asked)
    (hstores : s'.stores = s.stores)
    (hsent : s.availReq f ∈ s.requests ∨ s.reactor.waking? = some f →
      s.availReq f ∈ s'.requests ∨ s'.reactor.waking? = some f)
    (hanswer : s.availReq f ∈ s.requests ∨ s.reactor.waking? = some f → s.Answering f → s'.Answering f) :
    Waits s' f := by
  refine ⟨?_, ?_, ?_⟩
  · rw [hplaces, hasked, hstores, m.sqId]
    exact h.full
  · rw [hplaces, hasked, hcells, availReq, m.sqId]
    exact fun n hw hn hnot => hsent (h.sent n hw hn hnot)
  · rw [hplaces, hasked, hcells, hstores, m.sqId]
    exact fun n hw hn hlt hnot => hanswer (h.sent n hw hn hnot) (h.answered n hw hn hlt hnot)

variable {cqId : CqId} {p : Tagged NvmeComp}

theorem Waits.storeHead (lock : Exclusive s) (hr : s.reactor = .locked cqId p) :
    Waits (s.storeHead cqId p) f := by
  refine ⟨fun cmdInit hf => ?_, ?_, fun n hw hn hlt hnot => ?_⟩
  · have hne : s.sqId f ≠ p.item.sqId := by
      refine (lock.ne_reactor ?_ (by rw [hr]; rfl)).symm
      rw [show s.places f = .full cmdInit from hf]
      trivial
    change s.asked f = some (update s.stores p.item.sqId _ (s.sqId f))
    rw [update_of_ne hne]
    exact h.full cmdInit hf
  · have hsent := h.sent
    rw [hr] at hsent
    exact hsent
  · by_cases hq : p.item.sqId = s.sqId f
    · exact hq
    · change n < update s.stores p.item.sqId _ (s.sqId f) at hlt
      rw [update_of_ne (Ne.symm hq)] at hlt
      have hanswer := h.answered n hw hn hlt hnot
      rw [Answering, hr] at hanswer
      exact hanswer.elim

theorem Waits.answer {i : Nat} {req : PendingReq} (hr : s.reactor = .notifying cqId p i)
    (hreq : s.pendingReqs[i]? = some req) : Waits (s.answer cqId p i req) f := by
  -- The request that is removed is the one of `f`, or the one of `f` stays.
  have key : ∀ waker, s.availReq f ≠ req ∨ waker = f →
      (s.availReq f ∈ s.requests ∨ s.reactor.waking? = some f →
        s.availReq f ∈ s.pendingReqs.eraseIdx i ++ s.channel.map toPending ∨
          some waker = some f) ∧
      (s.Answering f → p.item.sqId = s.sqId f ∧
        (waker = f ∨ s.availReq f ∈ (s.pendingReqs.eraseIdx i).drop i)) := by
    rintro waker (hne | rfl)
    · refine ⟨fun hsent => .inl ?_, fun hanswer => ?_⟩
      · rcases hsent with hmem | hwaking
        · exact mem_requests_erase hreq hmem hne.symm
        · rw [hr] at hwaking
          cases hwaking
      · rw [Answering, hr] at hanswer
        refine ⟨hanswer.1, .inr ?_⟩
        rw [drop_eraseIdx_self hreq]
        exact mem_drop_succ hreq hanswer.2 hne.symm
    · refine ⟨fun _ => .inr rfl, fun hanswer => ⟨?_, .inl rfl⟩⟩
      rw [Answering, hr] at hanswer
      exact hanswer.1
  cases req with
  | pendingCompletion waker =>
    obtain ⟨hsent, hanswer⟩ := key waker (.inl fun heq => by cases heq)
    exact h.react (.answer hr hreq) rfl rfl rfl rfl hsent fun _ => hanswer
  | pendingAvailSubmission waker q =>
    have hkey : s.availReq f ≠ .pendingAvailSubmission waker q ∨ waker = f := by
      by_cases hw : waker = f
      · exact .inr hw
      · refine .inl fun heq => ?_
        cases heq
        exact hw rfl
    obtain ⟨hsent, hanswer⟩ := key waker hkey
    exact h.react (.answer hr hreq) rfl rfl rfl rfl hsent fun _ => hanswer

theorem Waits.wake {i : Nat} {waker : FutureId} (hr : s.reactor = .waking cqId p i waker) :
    Waits ((s.setWoken waker true).goTo (.notifying cqId p i)) f := by
  have hne : update s.cells.woken waker true f = false → f ≠ waker ∧
      s.cells.woken f = false := by
    intro hnot
    by_cases hf : f = waker
    · rw [hf, update_self] at hnot
      cases hnot
    · rw [update_of_ne hf] at hnot
      exact ⟨hf, hnot⟩
  refine ⟨h.full, fun n hw hn hnot => .inl ?_, fun n hw hn hlt hnot => ?_⟩
  · obtain ⟨hf, hnot⟩ := hne hnot
    rcases h.sent n hw hn hnot with hmem | hwaking
    · exact hmem
    · rw [hr] at hwaking
      cases hwaking
      exact absurd rfl hf
  · obtain ⟨hf, hnot⟩ := hne hnot
    have hanswer := h.answered n hw hn hlt hnot
    rw [Answering, hr] at hanswer
    exact ⟨hanswer.1, hanswer.2.resolve_left (Ne.symm hf)⟩

end

/-- A move of the future `g`: the others wait as before. -/
theorem waits_future (h : ∀ f, Waits s f) (calm : Calm s s') {place : Place}
    (hplaces : s'.places = update s.places g place) (hstores : s'.stores = s.stores)
    (hasked : ∀ f ≠ g, s'.asked f = s.asked f)
    (hwoken : ∀ f ≠ g, s'.cells.woken f = s.cells.woken f) (hg : Waits s' g) : ∀ f, Waits s' f := by
  intro f
  by_cases hf : f = g
  · subst hf
    exact hg
  · have hplace : s'.places f = s.places f := by rw [hplaces, update_of_ne hf]
    refine (h f).calm calm (hasked f hf) hstores (hwoken f hf) ?_ ?_
    · rw [hplace]
      exact fun _ => id
    · rw [hplace]
      exact id

/-- A move of the future `g` to a place where it does not wait. -/
theorem waits_leave (h : ∀ f, Waits s f) (calm : Calm s s') {place : Place}
    (hplaces : s'.places = update s.places g place) (hstores : s'.stores = s.stores)
    (hasked : ∀ f ≠ g, s'.asked f = s.asked f)
    (hwoken : ∀ f ≠ g, s'.cells.woken f = s.cells.woken f)
    (hfull : ∀ cmdInit, place ≠ .full cmdInit) (hwaiting : ¬ place.Waiting) : ∀ f, Waits s' f := by
  have hplace : s'.places g = place := by rw [hplaces, update_self]
  rw [← hplace] at hfull hwaiting
  exact waits_future h calm hplaces hstores hasked hwoken ⟨fun cmdInit hf => absurd hf (hfull cmdInit),
    fun _ hw => absurd hw hwaiting, fun _ hw => absurd hw hwaiting⟩

theorem waits_move (h : ∀ f, Waits s f) (lock : Exclusive s) (m : Move s s') : ∀ f, Waits s' f := by
  have still : ∃ new, s.channel = s.channel ++ new := ⟨[], (append_nil _).symm⟩
  cases id m with
  | beginSubmit =>
    exact waits_leave h (.of m rfl still rfl rfl) rfl rfl (fun _ hf => update_of_ne hf _ _)
      (fun _ hf => update_of_ne hf _ _) (fun _ heq => by cases heq) id
  | lock | write | ring | release | finish | miss =>
    exact waits_leave h (.of m rfl still rfl rfl) rfl rfl (fun _ _ => rfl) (fun _ _ => rfl)
      (fun _ heq => by cases heq) id
  | request | register =>
    exact waits_leave h (.of m rfl ⟨[_], rfl⟩ rfl rfl) rfl rfl (fun _ _ => rfl) (fun _ _ => rfl)
      (fun _ heq => by cases heq) id
  | beginLook =>
    exact waits_leave h (.of m rfl still rfl rfl) rfl rfl (fun _ _ => rfl)
      (fun _ hf => update_of_ne hf _ _) (fun _ heq => by cases heq) id
  | @findFull g cmdInit =>
    refine waits_future h (.of m rfl still rfl rfl) rfl rfl
      (fun _ hf => update_of_ne hf _ _) (fun _ _ => rfl) ?_
    have hplace : (s.findFull g cmdInit).places g = .full cmdInit := update_self _ _ _
    have hwaiting : ¬ ((s.findFull g cmdInit).places g).Waiting := by
      rw [hplace]
      exact id
    exact ⟨fun _ _ => update_self _ _ _, fun _ hw => absurd hw hwaiting,
      fun _ hw => absurd hw hwaiting⟩
  | askAvail hg =>
    exact waits_future h (.of m rfl ⟨[_], rfl⟩ rfl rfl) rfl rfl (fun _ _ => rfl)
      (fun _ _ => rfl) ((h _).askAvail hg)
  | @giveUp g cmdInit hg =>
    have calm : Calm s (s.unlock g (.pendingSubmission cmdInit)) := .of m rfl still rfl rfl
    have hplace : (s.unlock g (.pendingSubmission cmdInit)).places g =
        .pendingSubmission cmdInit := update_self _ _ _
    refine waits_future h calm rfl rfl (fun _ _ => rfl) (fun _ _ => rfl)
      ((h g).calm calm rfl rfl rfl (fun cmdInit' hfull => ?_) fun _ => ?_)
    · rw [hplace] at hfull
      cases hfull
    · rw [hg]
      trivial
  | fetch | post => exact fun f => (h f).calm (.of m rfl still rfl rfl) rfl rfl rfl (fun _ => id) id
  | @receive req rest hr hchannel =>
    intro f
    have hreqs : (s.receiveOne req rest).requests = s.requests := by
      simp [requests, receiveOne, hchannel]
    refine (h f).react m rfl rfl rfl rfl (fun hsent => by rwa [hreqs]) fun _ hanswer => ?_
    revert hr hanswer
    rw [Answering, Answering, show (s.receiveOne req rest).reactor = s.reactor from rfl]
    cases s.reactor with
    | notifying | waking =>
      intro hr
      cases hr
    | idle | took | locked | draining => exact fun _ => id
  | take hr | lockSq hr =>
    refine fun f => (h f).react m rfl rfl rfl rfl ?_ fun _ hanswer => ?_
    · rw [hr]
      exact id
    · rw [Answering, hr] at hanswer
      exact hanswer.elim
  | storeHead hr => exact fun f => (h f).storeHead lock hr
  | unlockSq hr hchannel =>
    refine fun f => (h f).react m rfl rfl rfl rfl ?_ fun hsent hanswer => ?_
    · rw [hr]
      exact id
    · rw [Answering, hr] at hanswer
      rw [hr, requests, hchannel, map_nil, append_nil] at hsent
      rcases hsent with hmem | hwaking
      · exact ⟨hanswer, hmem⟩
      · cases hwaking
  | done hr hend =>
    refine fun f => (h f).react m rfl rfl rfl rfl ?_ fun _ hanswer => ?_
    · rw [hr]
      exact id
    · rw [Answering, hr] at hanswer
      obtain ⟨-, hmem⟩ := hanswer
      rw [drop_eq_nil_of_le (getElem?_eq_none_iff.mp hend)] at hmem
      cases hmem
  | skip hr hreq hskip =>
    refine fun f => (h f).react m rfl rfl rfl rfl ?_ fun _ hanswer => ?_
    · rw [hr]
      exact id
    · rw [Answering, hr] at hanswer
      obtain ⟨hq, hmem⟩ := hanswer
      refine ⟨hq, mem_drop_succ hreq hmem fun heq => ?_⟩
      have hfinishes : (s.availReq f).finishes _ _ = false := heq ▸ hskip
      rw [availReq, PendingReq.finishes, hq, beq_self_eq_true] at hfinishes
      cases hfinishes
  | answer hr hreq => exact fun f => (h f).answer hr hreq
  | wake hr => exact fun f => (h f).wake hr

end Waits

/-! ### No wakeup is lost -/

structure Inv (s : State) : Prop where
  exclusive : Exclusive s
  slots : Slots s
  flow : Flow s
  answers : Answers s
  waits : ∀ f, Waits s f

section Invariant

variable {s s' : State} (cqId : SqId → CqId) (sqId : FutureId → SqId) (init : FutureId → CmdInit)

theorem inv_start : (start cqId sqId init).Inv where
  exclusive := ⟨fun _ h => h.elim, fun _ h => by cases h⟩
  slots := by
    refine ⟨fun _ _ => rfl, fun q j c g hc hg => ?_⟩
    have hblank : c = default := eq_of_mem_replicate (mem_of_getElem? hc)
    subst hblank
    cases hg
  flow := by
    refine ⟨fun _ _ _ h => ?_, fun _ _ _ h => ?_, fun _ _ h => ?_, fun _ _ h => ?_, fun _ _ h => ?_⟩
    all_goals cases h
  answers := by
    refine ⟨fun _ h => ?_, fun g => ⟨fun _ => rfl, fun _ h => ?_, fun _ _ _ h => ?_,
      fun _ h => ?_, fun _ h => ?_⟩⟩
    all_goals cases h
  waits f := by
    refine ⟨fun _ h => ?_, fun _ _ h => ?_, fun _ _ h => ?_⟩
    all_goals cases h

theorem Inv.move (h : s.Inv) (m : Move s s') : s'.Inv :=
  have flow := h.flow.move h.slots m
  ⟨h.exclusive.move m, h.slots.move h.exclusive m, flow, h.answers.move h.flow flow m,
    waits_move h.waits h.exclusive m⟩

end Invariant

/-- The reactor has taken the entry `p` off its queue and is done with it. -/
def Consumed (s : State) (p : Tagged NvmeComp) : Prop :=
  p ∈ s.taken ∧ ∀ cqId, s.reactor.entry? ≠ some (cqId, p)

/-- The reactor has stored a head in the queue `q` and is not done with the entry it came in. -/
def Freeing (s : State) (q : SqId) : Prop := ∃ p, s.reactor.answering? = some p ∧ p.item.sqId = q

structure NoLostWakeup (s : State) : Prop where
  /-- A future whose entry is consumed has its message and is woken, if it is not just looking. -/
  completion : ∀ p g, s.Consumed p → p.owner = some g → s.places g ≠ .finished →
    s.cells.message g ≠ none ∧ (s.cells.woken g = true ∨ s.reactor.waking? = some g ∨
      ∃ id, s.places g = .looking id)
  /-- A future that has found its queue full is woken once a head has been stored since. -/
  submission : ∀ f n, (s.places f).Waiting → s.asked f = some n → n < s.stores (s.sqId f) →
    s.cells.woken f = true ∨ s.Freeing (s.sqId f)

section NoLostWakeup

variable {s : State}

theorem Answering.freeing {f : FutureId} (h : s.Answering f) : s.Freeing (s.sqId f) := by
  rw [Answering] at h
  split at h
  · rename_i p hr
    exact ⟨p, by rw [hr]; rfl, h⟩
  · rename_i p i hr
    exact ⟨p, by rw [hr]; rfl, h.1⟩
  · rename_i p i waker hr
    exact ⟨p, by rw [hr]; rfl, h.1⟩
  · exact h.elim

theorem Inv.noLostWakeup (h : s.Inv) : s.NoLostWakeup := by
  refine ⟨fun p g hp howner hpending => ?_, fun f n hw hn hlt => ?_⟩
  · have served := h.answers.served g
    obtain ⟨id, hid⟩ : ∃ id, (s.places g).sentId? = some id :=
      ⟨_, (h.flow.taken p g hp.1 howner).2.cases.resolve_right hpending⟩
    have hfull : s.cells.message g ≠ none := by
      rcases served.filled p hp.1 howner with ⟨cqId, hentry⟩ | hfin | hfull
      · exact absurd hentry (hp.2 cqId)
      · exact absurd hfin hpending
      · exact hfull
    refine ⟨hfull, ?_⟩
    by_cases hlook : s.places g = .looking id
    · exact .inr (.inr ⟨id, hlook⟩)
    · exact (served.woken id hid hlook hfull).imp_right .inl
  · cases hnot : s.cells.woken f with
    | true => exact .inl rfl
    | false => exact .inr ((h.waits f).answered n hw hn hlt hnot).freeing

end NoLostWakeup

end State

open State

open State in
/-- Whatever the order in which any number of futures, the controller and the reactor act, no
wakeup is lost in any state they pass through. It takes no assumption on the ids of commands:
an entry with the id of another command fills a message too early, and never leaves one empty. -/
theorem no_wakeup_lost (cqId : SqId → CqId) (sqId : FutureId → SqId) (init : FutureId → CmdInit)
    (es : List Event) : Throughout step (start cqId sqId init) NoLostWakeup es := by
  intro pre _ s hs
  have inv : s.Inv := invariant_of_run (inv_start cqId sqId init)
    (fun s e s' h hstep => h.move (step_move hstep)) hs
  exact inv.noLostWakeup

theorem blank_cid (id : CmdId) : { (default : NvmeCmd) with cid := id }.cid = id := rfl

/-- Every future submits an otherwise empty command. -/
def blankCommands (_ : FutureId) : CmdInit :=
  ⟨fun id => { (default : NvmeCmd) with cid := id }, blank_cid⟩

/-- A future submits its command, the controller completes it, and the reactor takes the entry
and goes over its list. -/
def onePolled : List Event :=
  List.replicate 6 (.advance 0) ++ [.fetch 1, .post 0 0 1, .take 1] ++ List.replicate 7 .react

theorem onePolled_woken :
    ∃ s, run step (.start (fun _ => 1) (fun _ => 1) blankCommands) onePolled = some s ∧
      (s.reactor = .idle ∧ s.taken ≠ []) ∧ s.NoLostWakeup := by
  have hend : (run step (.start (fun _ => 1) (fun _ => 1) blankCommands) onePolled).map
      (fun s => decide (s.reactor = .idle ∧ s.taken ≠ [])) = some true := by decide
  obtain ⟨s, hs, hdone⟩ := map_eq_some_iff.mp hend
  exact ⟨s, hs, of_decide_eq_true hdone,
    no_wakeup_lost (fun _ => 1) (fun _ => 1) blankCommands onePolled _ prefix_rfl s hs⟩

/-! ### Submissions -/

/-- What the lock of a submission queue and the order of the actions under it ensure. -/
structure State.SafeSubmission (s : State) : Prop where
  /-- One future at a time writes to a queue and rings its doorbell, -/
  exclusive : ∀ f g, (s.places f).Holding → (s.places g).Holding → s.sqId g = s.sqId f → g = f
  /-- and the reactor does not store a head meanwhile. -/
  apart : ∀ f p, (s.places f).Holding → s.reactor.lockedFor? = some p → p.item.sqId ≠ s.sqId f
  /-- The controller knows of all commands, but for one that is being written. -/
  told : ∀ q, (∀ f, s.sqId f = q → ¬ (s.places f).Writing) →
    (s.sqs q).queue.tail = (s.sqs q).doorbell
  /-- It completes commands of futures that have sent their requests, -/
  registered : ∀ cqId p g, p ∈ s.cqs cqId ∨ p ∈ s.taken → p.owner = some g →
    s.SentAs g p.item.sqId p.item.cid
  /-- on the completion queue that the reactor asserts. -/
  routed : ∀ cqId p, s.reactor.entry? = some (cqId, p) → (s.sqs p.item.sqId).cqId = cqId
  /-- Nobody finds a message before it has asked for one. -/
  fresh : ∀ g, (∀ id, ¬ (s.places g).Sent id) → s.cells.message g = none
  /-- Until there is one, the reactor has the request, -/
  kept : ∀ g id, (s.places g).sentId? = some id → s.cells.message g = none →
    s.completionReq g id ∈ s.requests
  /-- and so it has those for free slots. -/
  queued : ∀ f n, (s.places f).Waiting → s.asked f = some n → s.cells.woken f = false →
    s.availReq f ∈ s.requests ∨ s.reactor.waking? = some f

open State in
/-- **Submissions are safe** in every interleaving of any number of futures, the controller and the
reactor. -/
theorem submissions_safe (cqId : SqId → CqId) (sqId : FutureId → SqId) (init : FutureId → CmdInit)
    (es : List Event) : Throughout step (start cqId sqId init) SafeSubmission es := by
  intro pre _ s hs
  have inv : s.Inv := invariant_of_run (inv_start cqId sqId init)
    (fun s e s' h hstep => h.move (step_move hstep)) hs
  exact {
    exclusive := fun f g hf hg => inv.exclusive.eq hf hg
    apart := fun f p => inv.exclusive.ne_reactor
    told := inv.slots.settled
    registered := fun cqId p g hp => hp.elim (inv.flow.posted cqId p g) (inv.flow.taken p g)
    routed := fun cqId p hp => (inv.flow.handled cqId p hp).2
    fresh := fun g => (inv.answers.served g).fresh
    kept := fun g => (inv.answers.served g).asks
    queued := fun f => (inv.waits f).sent }

end RedoxDrivers.Nvme.Wakeup
