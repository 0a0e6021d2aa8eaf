import RedoxDrivers.Nvme.Parties

/-!
Commands on their way from a future to the controller and back.

A future writes its command and rings the doorbell under the lock of the queue (`Exclusive`),
and sends its request between the two. So a command that the controller can fetch belongs to a
future that has sent its request (`Slots`), and so does every entry (`Flow`).
-/

namespace RedoxDrivers.Nvme.Wakeup

open Lib Function List

namespace State

/-! ### Who has a lock -/

/-- Writing a queue back without changing what `π` reads of it. -/
theorem read_update {β : Type} (π : SubmissionQueue → β) {sqs : SqId → SubmissionQueue} {q : SqId}
    {sq : SubmissionQueue} (h : π sq = π (sqs q)) (q' : SqId) :
    π (update sqs q sq q') = π (sqs q') := by
  by_cases hq : q' = q
  · subst hq
    rw [update_self, h]
  · rw [update_of_ne hq]

/-- Nobody changes which queues the futures use. -/
theorem Move.sqId {s s' : State} (m : Move s s') : s'.sqId = s.sqId := by
  cases m with
  | @answer _ _ _ req => cases req <;> rfl
  | _ => rfl

theorem Move.cqId {s s' : State} (m : Move s s') (q : SqId) : (s'.sqs q).cqId = (s.sqs q).cqId := by
  cases m with
  | lock | write | giveUp | ring | release | fetch | lockSq | storeHead | unlockSq =>
    exact read_update SubmissionQueue.cqId (by rfl) q
  | @answer _ _ _ req => cases req <;> rfl
  | _ => rfl

structure Exclusive (s : State) : Prop where
  future : ∀ f, (s.places f).Holding → (s.sq f).lock = some (.future f)
  reactor : ∀ p, s.reactor.lockedFor? = some p → (s.sqs p.item.sqId).lock = some .reactor

section Exclusive

variable {s s' : State} {f g : FutureId}

section

variable (h : Exclusive s)

include h

/-- Two futures of one queue do not both have its lock. -/
theorem Exclusive.eq (hf : (s.places f).Holding) (hg : (s.places g).Holding)
    (hq : s.sqId g = s.sqId f) : g = f := by
  have hlock := h.future g hg
  rw [sq, hq, ← sq, h.future f hf] at hlock
  cases hlock
  rfl

variable {p : Tagged NvmeComp}

theorem Exclusive.ne_reactor (hf : (s.places f).Holding) (hp : s.reactor.lockedFor? = some p) :
    p.item.sqId ≠ s.sqId f := by
  intro hq
  have hlock := h.reactor p hp
  rw [hq, ← sq, h.future f hf] at hlock
  cases hlock

theorem Exclusive.frame (m : Move s s') (hlock : ∀ q, (s'.sqs q).lock = (s.sqs q).lock)
    (hplaces : ∀ g, (s'.places g).Holding → (s.places g).Holding)
    (hreactor : ∀ p, s'.reactor.lockedFor? = some p → s.reactor.lockedFor? = some p) :
    Exclusive s' := by
  refine ⟨fun g hg => ?_, fun p hp => ?_⟩
  · rw [sq, hlock, m.sqId]
    exact h.future g (hplaces g hg)
  · rw [hlock]
    exact h.reactor p (hreactor p hp)

theorem Exclusive.lock {cmdInit : CmdInit} (hfree : (s.sq f).lock = none) :
    Exclusive (s.lock f cmdInit) := by
  have hsqs : (s.lock f cmdInit).sqs =
      update s.sqs (s.sqId f) { s.sq f with lock := some (.future f) } := rfl
  refine ⟨fun g hg => ?_, fun p hp => ?_⟩
  · by_cases hgf : g = f
    · subst hgf
      simp [lock, sq, setSq, moveTo]
    · have hold : (s.places g).Holding := by
        simpa [State.lock, setSq, moveTo, update_of_ne hgf] using hg
      have hne : s.sqId g ≠ s.sqId f := fun hq => by
        have := h.future g hold
        rw [sq, hq, ← sq, hfree] at this
        cases this
      simpa [State.lock, sq, setSq, moveTo, update_of_ne hne] using h.future g hold
  · have hne : p.item.sqId ≠ s.sqId f := fun hq => by
      have := h.reactor p hp
      rw [hq, ← sq, hfree] at this
      cases this
    rw [hsqs, update_of_ne hne]
    exact h.reactor p hp

theorem Exclusive.unlock {place : Place} (hf : (s.places f).Holding) (hplace : ¬ place.Holding) :
    Exclusive (s.unlock f place) := by
  have hsqs : (s.unlock f place).sqs =
      update s.sqs (s.sqId f) { s.sq f with lock := none } := rfl
  refine ⟨fun g hg => ?_, fun p hp => ?_⟩
  · have hgf : g ≠ f := by
      rintro rfl
      exact hplace (by simpa [unlock, setSq, moveTo] using hg)
    have hold : (s.places g).Holding := by
      simpa [State.unlock, setSq, moveTo, update_of_ne hgf] using hg
    have hne : s.sqId g ≠ s.sqId f := fun hq => hgf (h.eq hf hold hq)
    simpa [State.unlock, sq, setSq, moveTo, update_of_ne hne] using h.future g hold
  · rw [hsqs, update_of_ne (h.ne_reactor hf hp)]
    exact h.reactor p hp

theorem Exclusive.lockSq {cqId : CqId} (hfree : (s.sqs p.item.sqId).lock = none) :
    Exclusive (s.lockSq cqId p) := by
  refine ⟨fun g hg => ?_, fun p' hp' => ?_⟩
  · have hne : s.sqId g ≠ p.item.sqId := fun hq => by
      have := h.future g hg
      rw [sq, hq, hfree] at this
      cases this
    simpa [State.lockSq, sq, setSq, update_of_ne hne] using h.future g hg
  · cases hp'
    simp [State.lockSq, setSq]

theorem Exclusive.unlockSq {cqId : CqId} (hr : s.reactor = .draining cqId p) :
    Exclusive (s.unlockSq cqId p) := by
  refine ⟨fun g hg => ?_, fun _ hp => by cases hp⟩
  have hne : s.sqId g ≠ p.item.sqId := (h.ne_reactor hg (by rw [hr]; rfl)).symm
  simpa [State.unlockSq, sq, setSq, update_of_ne hne] using h.future g hg

/-- A future goes on without taking or giving back a lock. -/
theorem Exclusive.go (m : Move s s') {place : Place}
    (hplaces : s'.places = update s.places f place) (hf : place.Holding → (s.places f).Holding)
    (hlock : ∀ q, (s'.sqs q).lock = (s.sqs q).lock) (hreactor : s'.reactor = s.reactor) :
    Exclusive s' := by
  refine h.frame m hlock (fun g hg => ?_) fun p hp => by rwa [hreactor] at hp
  rw [hplaces] at hg
  by_cases hgf : g = f
  · rw [hgf, update_self] at hg
    exact hgf ▸ hf hg
  · rwa [update_of_ne hgf] at hg

/-- The reactor goes on without a lock. -/
theorem Exclusive.away (m : Move s s') (hplaces : s'.places = s.places) (hsqs : s'.sqs = s.sqs)
    (hreactor : s'.reactor.lockedFor? = none) : Exclusive s' := by
  refine h.frame m (fun q => by rw [hsqs]) (fun g hg => by rwa [hplaces] at hg) fun p hp => ?_
  rw [hreactor] at hp
  cases hp

theorem Exclusive.move (m : Move s s') : Exclusive s' := by
  cases id m with
  | lock _ hfree => exact h.lock hfree
  | giveUp hf | release hf => exact h.unlock (by rw [hf]; trivial) id
  | findFull hf | askAvail hf | request hf =>
    exact h.go m rfl (fun _ => by rw [hf]; trivial) (fun _ => rfl) rfl
  | write hf | ring hf => exact h.go m rfl (fun _ => by rw [hf]; trivial) (read_update _ rfl) rfl
  | beginSubmit | beginLook | finish | miss | register =>
    exact h.go m rfl False.elim (fun _ => rfl) rfl
  | fetch => exact h.frame m (read_update _ rfl) (fun _ => id) fun _ => id
  | post | receive => exact h.frame m (fun _ => rfl) (fun _ => id) fun _ => id
  | lockSq _ hfree => exact h.lockSq hfree
  | storeHead hr =>
    exact h.frame m (read_update _ rfl) (fun _ => id) fun p hp => by rw [hr]; exact hp
  | unlockSq hr => exact h.unlockSq hr
  | take | done | skip | wake => exact h.away m rfl rfl rfl
  | @answer _ _ _ req =>
    cases req with
    | pendingCompletion | pendingAvailSubmission => exact h.away m rfl rfl rfl

end

end Exclusive

/-! ### Commands and their entries -/

/-- The future `g` has sent a request for the completion of its command `cmdId` on `q`. -/
def SentAs (s : State) (g : FutureId) (q : SqId) (cmdId : CmdId) : Prop :=
  s.sqId g = q ∧ (s.places g).Sent cmdId

section SentAs

variable {s s' : State} {f g : FutureId} {q : SqId} {cmdId : CmdId}

theorem SentAs.go (h : s.SentAs g q cmdId) (m : Move s s') {place : Place}
    (hplaces : s'.places = update s.places f place)
    (hf : ∀ id, (s.places f).Sent id → place.Sent id) : s'.SentAs g q cmdId := by
  refine ⟨m.sqId ▸ h.1, ?_⟩
  rw [hplaces]
  by_cases hg : g = f
  · subst hg
    rw [update_self]
    exact hf _ h.2
  · rw [update_of_ne hg]
    exact h.2

theorem SentAs.move (h : s.SentAs g q cmdId) (m : Move s s') : s'.SentAs g q cmdId := by
  cases id m with
  | beginSubmit hf | lock hf | findFull hf | write hf | askAvail hf | giveUp hf | request hf =>
    exact h.go m rfl fun _ hsent => by rw [hf] at hsent; exact hsent.elim
  | ring hf | release hf | beginLook hf | miss hf | register hf =>
    exact h.go m rfl fun _ hsent => by rw [hf] at hsent; exact hsent
  | finish => exact h.go m rfl fun _ _ => trivial
  | fetch | post | receive | take | lockSq | storeHead | unlockSq | done | skip | wake => exact h
  | @answer _ _ _ req =>
    cases req with
    | pendingCompletion | pendingAvailSubmission => exact h

end SentAs

/-- A command in the memory of a queue belongs to a future that has sent its request, but for
the one that a future is just writing: that one is behind the doorbell. -/
structure Slots (s : State) : Prop where
  settled : ∀ q, (∀ f, s.sqId f = q → ¬ (s.places f).Writing) →
    (s.sqs q).queue.tail = (s.sqs q).doorbell
  sent : ∀ q j c g, (s.sqs q).queue.data[j]? = some c → c.owner = some g →
    s.SentAs g q c.item.cid ∨
      (j = (s.sqs q).doorbell.toNat ∧ s.sqId g = q ∧ s.places g = .written c.item.cid)

section Slots

variable {s s' : State} {f : FutureId}

theorem Slots.frame (h : Slots s) (m : Move s s')
    (htail : ∀ q, (s'.sqs q).queue.tail = (s.sqs q).queue.tail)
    (hdata : ∀ q, (s'.sqs q).queue.data = (s.sqs q).queue.data)
    (hdoorbell : ∀ q, (s'.sqs q).doorbell = (s.sqs q).doorbell)
    (hwriting : ∀ g, (s.places g).Writing → (s'.places g).Writing)
    (hwritten : ∀ g id, s.places g = .written id →
      s'.places g = .written id ∨ (s'.places g).Sent id) : Slots s' := by
  refine ⟨fun q hnone => ?_, fun q j c g hc hg => ?_⟩
  · rw [htail, hdoorbell]
    exact h.settled q fun f hf hw => hnone f (m.sqId ▸ hf) (hwriting f hw)
  · rw [hdata] at hc
    rw [hdoorbell, m.sqId]
    rcases h.sent q j c g hc hg with hsent | ⟨hj, hq, hw⟩
    · exact .inl (hsent.move m)
    · rcases hwritten g _ hw with hw | hsent
      · exact .inr ⟨hj, hq, hw⟩
      · exact .inl ⟨m.sqId ▸ hq, hsent⟩

/-- A future that is not writing goes on. -/
theorem Slots.go (h : Slots s) (m : Move s s') {place : Place}
    (hplaces : s'.places = update s.places f place) (hf : ¬ (s.places f).Writing)
    (htail : ∀ q, (s'.sqs q).queue.tail = (s.sqs q).queue.tail)
    (hdata : ∀ q, (s'.sqs q).queue.data = (s.sqs q).queue.data)
    (hdoorbell : ∀ q, (s'.sqs q).doorbell = (s.sqs q).doorbell) : Slots s' := by
  have same : ∀ g, (s.places g).Writing → s'.places g = s.places g := by
    intro g hg
    have hgf : g ≠ f := by
      rintro rfl
      exact hf hg
    rw [hplaces, update_of_ne hgf]
  refine h.frame m htail hdata hdoorbell (fun g hg => by rwa [same g hg]) fun g id hg => .inl ?_
  rwa [same g (by rw [hg]; trivial)]

section

variable (h : Slots s) (lock : Exclusive s)

include h lock

theorem Slots.write {cmdInit : CmdInit} (hf : s.places f = .locked cmdInit) :
    Slots (s.write f cmdInit) := by
  have m : Move s (s.write f cmdInit) := .write hf
  have holding : (s.places f).Holding := by
    rw [hf]
    trivial
  have hplaces : (s.write f cmdInit).places =
      update s.places f (.written (s.sq f).queue.tail) := rfl
  have hsqs : (s.write f cmdInit).sqs = update s.sqs (s.sqId f)
      { s.sq f with
        queue := ((s.sq f).queue.submitUnchecked
          ⟨cmdInit.run (s.sq f).queue.tail, some f⟩).2 } := rfl
  -- Only `f` has the lock, so nobody else is writing and the doorbell shows the tail.
  have hsettled : (s.sq f).queue.tail = (s.sq f).doorbell := by
    refine h.settled (s.sqId f) fun g hg hw => ?_
    have hgf : g = f :=
      lock.eq holding (by cases hp : s.places g <;> simp_all [Place.Writing, Place.Holding]) hg
    subst hgf
    rw [hf] at hw
    exact hw
  refine ⟨fun q hnone => ?_, fun q j c g hc hg => ?_⟩
  · have hq : q ≠ s.sqId f := by
      rintro rfl
      refine hnone f rfl ?_
      rw [hplaces, update_self]
      trivial
    rw [hsqs, update_of_ne hq]
    refine h.settled q fun g hg hw => hnone g hg ?_
    have hgf : g ≠ f := by
      rintro rfl
      exact hq hg.symm
    rwa [hplaces, update_of_ne hgf]
  · by_cases hq : q = s.sqId f
    · subst hq
      rw [hsqs, update_self] at hc ⊢
      by_cases hj : j = (s.sq f).queue.tail.toNat
      · subst hj
        have hlt := (s.sq f).queue.tail_lt
        have hcmd : (⟨cmdInit.run (s.sq f).queue.tail, some f⟩ : Tagged NvmeCmd) = c := by
          simpa [NvmeCmdQueue.submitUnchecked, hlt] using hc
        subst hcmd
        cases hg
        refine .inr ⟨congrArg _ hsettled, rfl, ?_⟩
        rw [hplaces, update_self, cmdInit.cid_eq]
      · have hold : (s.sq f).queue.data[j]? = some c := by
          simpa [NvmeCmdQueue.submitUnchecked, List.getElem?_set_ne (Ne.symm hj)] using hc
        rcases h.sent _ j c g hold hg with hsent | ⟨hdoor, -, -⟩
        · exact .inl (hsent.move m)
        · exact absurd (hdoor.trans (congrArg _ hsettled.symm)) hj
    · rw [hsqs, update_of_ne hq] at hc ⊢
      rcases h.sent q j c g hc hg with hsent | ⟨hdoor, hid, hw⟩
      · exact .inl (hsent.move m)
      · have hgf : g ≠ f := by
          rintro rfl
          exact hq hid.symm
        refine .inr ⟨hdoor, hid, ?_⟩
        rw [hplaces, update_of_ne hgf, hw]

theorem Slots.ring {cmdId : CmdId} (hf : s.places f = .requested cmdId) :
    Slots (s.ring f cmdId) := by
  have m : Move s (s.ring f cmdId) := .ring hf
  have holding : (s.places f).Holding := by
    rw [hf]
    trivial
  have hplaces : (s.ring f cmdId).places = update s.places f (.rung cmdId) := rfl
  have hsqs : (s.ring f cmdId).sqs = update s.sqs (s.sqId f)
      { s.sq f with doorbell := (s.sq f).queue.tail } := rfl
  refine ⟨fun q hnone => ?_, fun q j c g hc hg => ?_⟩
  · by_cases hq : q = s.sqId f
    · subst hq
      rw [hsqs, update_self]
    · rw [hsqs, update_of_ne hq]
      refine h.settled q fun g hg hw => hnone g hg ?_
      have hgf : g ≠ f := by
        rintro rfl
        exact hq hg.symm
      rwa [hplaces, update_of_ne hgf]
  · have hqueue : ∀ q, ((s.ring f cmdId).sqs q).queue = (s.sqs q).queue := read_update _ rfl
    have hold : (s.sqs q).queue.data[j]? = some c := by rwa [hqueue] at hc
    rcases h.sent q j c g hold hg with hsent | ⟨hdoor, hid, hw⟩
    · exact .inl (hsent.move m)
    · have hgf : g ≠ f := by
        rintro rfl
        rw [hf] at hw
        cases hw
      by_cases hq : q = s.sqId f
      · exact absurd (lock.eq holding (by rw [hw]; trivial) (hid.trans hq)) hgf
      · refine .inr ⟨?_, hid, ?_⟩
        · rw [hsqs, update_of_ne hq]
          exact hdoor
        · rw [hplaces, update_of_ne hgf, hw]

theorem Slots.move (m : Move s s') : Slots s' := by
  cases id m with
  | beginSubmit hf | findFull hf | askAvail hf | beginLook hf | finish hf | miss hf | register hf =>
    exact h.go m rfl (by rw [hf]; exact id) (fun _ => rfl) (fun _ => rfl) fun _ => rfl
  | lock hf | giveUp hf | release hf =>
    refine h.go m rfl (by rw [hf]; exact id) ?_ ?_ (read_update _ rfl)
    · exact read_update (fun sq => sq.queue.tail) rfl
    · exact read_update (fun sq => sq.queue.data) rfl
  | write hf => exact h.write lock hf
  | @request f cmdId hf =>
    have hplaces : (s.request f cmdId (.requested cmdId)).places =
        update s.places f (.requested cmdId) := rfl
    refine h.frame m (fun _ => rfl) (fun _ => rfl) (fun _ => rfl) (fun g hg => ?_)
      fun g id hg => ?_
    · by_cases hgf : g = f
      · subst hgf
        rw [hplaces, update_self]
        trivial
      · rwa [hplaces, update_of_ne hgf]
    · by_cases hgf : g = f
      · subst hgf
        rw [hf] at hg
        cases hg
        rw [hplaces, update_self]
        exact .inr rfl
      · rw [hplaces, update_of_ne hgf]
        exact .inl hg
  | ring hf => exact h.ring lock hf
  | fetch | lockSq | unlockSq | storeHead =>
    refine h.frame m ?_ ?_ (read_update _ rfl) (fun _ => id) fun _ _ => .inl
    · exact read_update (fun sq => sq.queue.tail) rfl
    · exact read_update (fun sq => sq.queue.data) rfl
  | post | receive | take | done | skip | wake =>
    exact h.frame m (fun _ => rfl) (fun _ => rfl) (fun _ => rfl) (fun _ => id) fun _ _ => .inl
  | @answer _ _ _ req =>
    cases req with
    | pendingCompletion | pendingAvailSubmission =>
      exact h.frame m (fun _ => rfl) (fun _ => rfl) (fun _ => rfl) (fun _ => id) fun _ _ => .inl

end

end Slots

/-- Every command that the controller has fetched, and every entry for one, belongs to a future
that has sent its request; an entry is on the completion queue of its submission queue. -/
structure Flow (s : State) : Prop where
  executing : ∀ q c g, (q, c) ∈ s.executing → c.owner = some g → s.SentAs g q c.item.cid
  posted : ∀ cqId p g, p ∈ s.cqs cqId → p.owner = some g → s.SentAs g p.item.sqId p.item.cid
  routed : ∀ cqId p, p ∈ s.cqs cqId → (s.sqs p.item.sqId).cqId = cqId
  taken : ∀ p g, p ∈ s.taken → p.owner = some g → s.SentAs g p.item.sqId p.item.cid
  handled : ∀ cqId p, s.reactor.entry? = some (cqId, p) →
    p ∈ s.taken ∧ (s.sqs p.item.sqId).cqId = cqId

section Flow

variable {s s' : State}

theorem Flow.frame (h : Flow s) (m : Move s s') (hexec : s'.executing = s.executing)
    (hcqs : s'.cqs = s.cqs) (htaken : s'.taken = s.taken)
    (hreactor : ∀ x, s'.reactor.entry? = some x → s.reactor.entry? = some x) : Flow s' where
  executing q c g hc hg := (h.executing q c g (hexec ▸ hc) hg).move m
  posted cqId p g hp hg := (h.posted cqId p g (hcqs ▸ hp) hg).move m
  routed cqId p hp := (m.cqId _).trans (h.routed cqId p (hcqs ▸ hp))
  taken p g hp hg := (h.taken p g (htaken ▸ hp) hg).move m
  handled cqId p hp := by
    rw [htaken, m.cqId]
    exact h.handled cqId p (hreactor _ hp)

variable {q : SqId} {c : Tagged NvmeCmd}

theorem Flow.fetch (h : Flow s) (slots : Slots s) (hne : (s.sqs q).fetchHead ≠ (s.sqs q).doorbell)
    (hc : (s.sqs q).queue.data[(s.sqs q).fetchHead.toNat]? = some c) : Flow (s.fetched q c) where
  executing q' c' g hmem hg := by
    rcases mem_append.mp hmem with hmem | hmem
    · exact h.executing q' c' g hmem hg
    · cases mem_singleton.mp hmem
      rcases slots.sent q _ c g hc hg with hsent | ⟨hdoor, -, -⟩
      · exact hsent
      · exact absurd (BitVec.toNat_inj.mp hdoor) hne
  posted := h.posted
  routed cqId p hp :=
    (read_update SubmissionQueue.cqId (by rfl) _).trans (h.routed cqId p hp)
  taken := h.taken
  handled cqId p hp := by
    obtain ⟨hmem, hcq⟩ := h.handled cqId p hp
    exact ⟨hmem, (read_update SubmissionQueue.cqId (by rfl) _).trans hcq⟩

/-- What is on a completion queue after a command has been completed. -/
theorem mem_posted {i : Nat} {commandSpecific : U32} {status : U16} {cqId : CqId}
    {p : Tagged NvmeComp} (h : p ∈ (s.posted i q c commandSpecific status).cqs cqId) :
    p ∈ s.cqs cqId ∨ (cqId = (s.sqs q).cqId ∧ p.item.sqId = q ∧ p.item.cid = c.item.cid ∧
      p.owner = c.owner) := by
  by_cases hcq : cqId = (s.sqs q).cqId
  · subst hcq
    simp only [posted, update_self] at h
    rcases mem_append.mp h with h | h
    · exact .inl h
    · cases mem_singleton.mp h
      exact .inr ⟨rfl, rfl, rfl, rfl⟩
  · simp only [posted, update_of_ne hcq] at h
    exact .inl h

theorem Flow.post (h : Flow s) {i : Nat} {commandSpecific : U32} {status : U16}
    (hc : (q, c) ∈ s.executing) : Flow (s.posted i q c commandSpecific status) where
  executing q' c' g hmem hg := h.executing q' c' g (mem_of_mem_eraseIdx hmem) hg
  posted cqId p g hp hg := by
    rcases mem_posted hp with hp | ⟨-, hsq, hcid, howner⟩
    · exact h.posted cqId p g hp hg
    · rw [hsq, hcid]
      exact h.executing q c g hc (howner ▸ hg)
  routed cqId p hp := by
    rcases mem_posted hp with hp | ⟨hcq, hsq, -, -⟩
    · exact h.routed cqId p hp
    · rw [hsq, hcq]
      rfl
  taken := h.taken
  handled := h.handled

theorem Flow.take (h : Flow s) {cqId : CqId} {p : Tagged NvmeComp} {rest : List (Tagged NvmeComp)}
    (hcq : s.cqs cqId = p :: rest) : Flow (s.takeEntry cqId p rest) := by
  have hsub : ∀ cqId' p', p' ∈ (s.takeEntry cqId p rest).cqs cqId' → p' ∈ s.cqs cqId' := by
    intro cqId' p' hp'
    by_cases hne : cqId' = cqId
    · subst hne
      simp only [takeEntry, update_self] at hp'
      rw [hcq]
      exact mem_cons_of_mem _ hp'
    · simpa only [takeEntry, update_of_ne hne] using hp'
  have hp : p ∈ s.cqs cqId := by
    rw [hcq]
    exact mem_cons_self
  refine ⟨h.executing, fun cqId' p' g hp' => h.posted cqId' p' g (hsub cqId' p' hp'),
    fun cqId' p' hp' => h.routed cqId' p' (hsub cqId' p' hp'), fun p' g hp' hg => ?_, ?_⟩
  · rcases mem_append.mp hp' with hp' | hp'
    · exact h.taken p' g hp' hg
    · cases mem_singleton.mp hp'
      exact h.posted cqId p g hp hg
  · rintro cqId' p' hp'
    cases hp'
    exact ⟨mem_append_right _ (mem_singleton_self p), h.routed cqId p hp⟩

theorem Flow.move (h : Flow s) (slots : Slots s) (m : Move s s') : Flow s' := by
  cases id m with
  | fetch hne hc => exact h.fetch slots hne hc
  | post hc => exact h.post hc
  | take _ hcq => exact h.take hcq
  | lockSq hr | storeHead hr | unlockSq hr | skip hr | wake hr =>
    exact h.frame m rfl rfl rfl fun x hx => by rw [hr]; exact hx
  | done => exact h.frame m rfl rfl rfl fun x hx => by cases hx
  | @answer _ _ _ req hr =>
    cases req with
    | pendingCompletion | pendingAvailSubmission =>
      exact h.frame m rfl rfl rfl fun x hx => by rw [hr]; exact hx
  | _ => exact h.frame m rfl rfl rfl fun _ => id

end Flow

end State

end RedoxDrivers.Nvme.Wakeup
