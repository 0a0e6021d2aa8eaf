import RedoxDrivers.Lib.Holdings
import RedoxDrivers.Nvme.CqReactor
import Mathlib.Data.List.Nodup
import Mathlib.Data.List.Perm.Basic

/-!
Delivery of completions to the futures they are for.

A command's id is its slot, and a slot is written again one lap later. The outstanding
commands have different ids in every state of a run exactly if each submission finds the
command of one lap before completed (`LapDone`). Nothing in the driver sees to that, since
a slot counts as free as soon as its command has been fetched.

Different ids are not enough for the entries to reach the right futures: a completion
that the reactor has not read yet, or a request that an unfinished future left behind,
would meet the next user of the id. If no submission takes an id that an unfinished
future still has (`IdFree`), every entry reaches the future of its command and no other
unfinished one. `distinct_iff_lapDone_and_delivers` states both.
-/

namespace RedoxDrivers.Nvme.System

open Lib Function List NvmeCmdQueue

variable {s s' : System} {e : Event}

/-- The event is a submission. -/
def Submits (s : System) : Event → Prop
  | .poll f => (∃ init, s.futures f = .pendingSubmission init) ∧ s.sq.isFull = false
  | _ => False

theorem step_submits (h : s.step e = some s') (submits : s.Submits e) :
    ∃ f init, e = .poll f ∧ s.futures f = .pendingSubmission init ∧ s' = s.submit f init := by
  cases e with
  | poll f =>
    obtain ⟨⟨init, hf⟩, hfull⟩ := submits
    refine ⟨f, init, rfl, hf, ?_⟩
    simpa [step, poll, hf, hfull] using h.symm
  | fetch | post | receive | take | notify => exact submits.elim

/-- What only a submission changes. -/
theorem step_frame (h : s.step e = some s') (quiet : ¬ s.Submits e) :
    s'.outstanding.Sublist s.outstanding ∧ s'.sq.tail = s.sq.tail ∧
      s'.sq.data.length = s.sq.data.length ∧ s'.submitted = s.submitted := by
  cases e with
  | poll =>
    rcases poll_cases h with
      ⟨init, hf, ⟨-, rfl⟩ | ⟨hfull, -⟩⟩ | ⟨id, -, ⟨m, -, rfl⟩ | ⟨-, rfl⟩⟩ | ⟨id, -, rfl⟩
    · exact ⟨.refl _, rfl, rfl, rfl⟩
    · exact absurd ⟨⟨init, hf⟩, hfull⟩ quiet
    all_goals exact ⟨.refl _, rfl, rfl, rfl⟩
  | fetch =>
    obtain ⟨-, c, -, rfl⟩ := fetch_cases h
    exact ⟨.refl _, rfl, rfl, rfl⟩
  | post =>
    obtain ⟨c, -, rfl⟩ := Option.map_eq_some_iff.mp h
    exact ⟨filter_sublist, rfl, rfl, rfl⟩
  | receive =>
    obtain ⟨-, req, rest, -, rfl⟩ := receive_cases h
    exact ⟨.refl _, rfl, rfl, rfl⟩
  | take =>
    obtain ⟨-, p, rest, -, rfl⟩ := take_cases h
    exact ⟨.refl _, rfl, rfl, rfl⟩
  | notify =>
    obtain ⟨p, -, rfl⟩ := Option.map_eq_some_iff.mp h
    exact ⟨.refl _, rfl, rfl, rfl⟩

/-! ### Ids of outstanding commands -/

/-- The outstanding commands have different ids. -/
def Distinct (s : System) : Prop := (s.outstanding.map (·.cmd.cid)).Nodup

/-- A submission finds the command of one lap before completed. -/
def LapDone (s : System) (e : Event) : Prop :=
  s.Submits e → ∀ c ∈ s.outstanding, c.seq + s.sq.data.length ≠ s.submitted

/-- Ids are slots, and the outstanding commands are those of the last lap at most. -/
structure Laps (s : System) : Prop where
  tail_eq : s.sq.tail.toNat = s.submitted % s.sq.data.length
  cid_eq : ∀ c ∈ s.outstanding, c.cmd.cid.toNat = c.seq % s.sq.data.length
  old : ∀ c ∈ s.outstanding, c.seq < s.submitted
  near : ∀ c ∈ s.outstanding, s.submitted ≤ c.seq + s.sq.data.length

theorem Laps.quiet (h : s.Laps) (hstep : s.step e = some s') (quiet : ¬ s.Submits e) : s'.Laps := by
  obtain ⟨hsub, htail, hlen, hcount⟩ := step_frame hstep quiet
  constructor
  · rw [htail, hlen, hcount]
    exact h.tail_eq
  · intro c hc
    rw [hlen]
    exact h.cid_eq c (hsub.subset hc)
  · intro c hc
    rw [hcount]
    exact h.old c (hsub.subset hc)
  · intro c hc
    rw [hcount, hlen]
    exact h.near c (hsub.subset hc)

theorem Laps.tail_ne_iff (h : s.Laps) : (∀ c ∈ s.outstanding, c.cmd.cid ≠ s.sq.tail) ↔
      ∀ c ∈ s.outstanding, c.seq + s.sq.data.length ≠ s.submitted := by
  refine forall₂_congr fun c hc => ?_
  rw [Ne, ← BitVec.toNat_inj, h.cid_eq c hc, h.tail_eq]
  have hold := h.old c hc
  rcases Nat.lt_or_eq_of_le (h.near c hc) with hlt | heq
  · exact iff_of_true (slot_ne hold hlt) (by omega)
  · rw [heq, Nat.add_mod_right]
    simp

theorem Laps.submit (h : s.Laps) {f : FutureId} {init : CmdInit}
    (done : ∀ c ∈ s.outstanding, c.seq + s.sq.data.length ≠ s.submitted) :
    (s.submit f init).Laps := by
  have hlen : (s.submit f init).sq.data.length = s.sq.data.length :=
    submitUnchecked_length _ _
  have hmem : ∀ c ∈ (s.submit f init).outstanding, c ∈ s.outstanding ∨ c = s.issue f init := by
    intro c hc
    simpa [System.submit] using hc
  have htwo := s.sq.two_le
  constructor
  · rw [hlen]
    change s.sq.nextTail.toNat = (s.submitted + 1) % s.sq.data.length
    rw [nextTail_toNat, h.tail_eq, Nat.mod_add_mod]
  · intro c hc
    rw [hlen]
    rcases hmem c hc with hc | rfl
    · exact h.cid_eq c hc
    · exact (congrArg BitVec.toNat (init.cid_eq s.sq.tail)).trans h.tail_eq
  · intro c hc
    rcases hmem c hc with hc | rfl
    · exact Nat.lt_succ_of_lt (h.old c hc)
    · exact Nat.lt_succ_self s.submitted
  · intro c hc
    rw [hlen]
    rcases hmem c hc with hc | rfl
    · exact Nat.lt_of_le_of_ne (h.near c hc) (done c hc).symm
    · exact Nat.add_le_add_left (by omega) s.submitted

theorem distinct_submit_iff {f : FutureId} {init : CmdInit} (distinct : s.Distinct) :
    (s.submit f init).Distinct ↔ ∀ c ∈ s.outstanding, c.cmd.cid ≠ s.sq.tail := by
  have hout : (s.submit f init).outstanding.map (·.cmd.cid) =
      s.outstanding.map (·.cmd.cid) ++ [s.sq.tail] := by
    simp [System.submit, issue, init.cid_eq]
  unfold Distinct at distinct ⊢
  rw [hout, nodup_append]
  simp only [mem_map, mem_singleton, nodup_singleton, true_and]
  constructor
  · rintro ⟨-, hne⟩ c hc
    exact hne _ ⟨c, hc, rfl⟩ _ rfl
  · intro hne
    refine ⟨distinct, ?_⟩
    rintro _ ⟨c, hc, rfl⟩ _ rfl
    exact hne c hc

/-- The states of runs with different ids. -/
def Spread (s : System) : Prop := s.Laps ∧ s.Distinct

theorem distinct_step_iff (laps : s.Laps) (distinct : s.Distinct) (h : s.step e = some s') :
    s'.Distinct ↔ s.LapDone e := by
  by_cases hsub : s.Submits e
  · obtain ⟨f, init, -, -, rfl⟩ := step_submits h hsub
    rw [distinct_submit_iff distinct, laps.tail_ne_iff]
    exact ⟨fun hne _ => hne, fun hne => hne hsub⟩
  · obtain ⟨hout, -⟩ := step_frame h hsub
    exact iff_of_true (distinct.sublist (hout.map _)) fun h => absurd h hsub

theorem Laps.step (laps : s.Laps) (done : s.LapDone e) (h : s.step e = some s') : s'.Laps := by
  by_cases hsub : s.Submits e
  · obtain ⟨f, init, -, -, rfl⟩ := step_submits h hsub
    exact laps.submit (done hsub)
  · exact laps.quiet h hsub

/-! ### Commands on their way -/

/-- The commands of `underway` are those of different unfinished futures that have no
message yet, and each is asked for. Unfinished futures have different ids, and requests
that are no longer needed are those of finished futures. -/
structure Flow (s : System) (underway : List Issued) : Prop where
  live : ∀ c ∈ underway, (s.futures c.owner).cmdId? = some c.cmd.cid
  empty : ∀ c ∈ underway, s.cells.message c.owner = none
  requested : ∀ c ∈ underway,
    .pendingCompletion c.owner c.owner s.cqId s.sqId c.cmd.cid ∈ s.requests
  owners : (underway.map (·.owner)).Nodup
  ids : ∀ f g id, (s.futures f).cmdId? = some id → (s.futures g).cmdId? = some id → f = g
  stale : ∀ w f cqId sqId id, .pendingCompletion w f cqId sqId id ∈ s.requests →
    (s.futures f).cmdId? = some id ∨ s.futures f = .finished

section Flow

variable {underway underway' : List Issued} {f : FutureId} {id : CmdId}

section

variable (h : s.Flow underway)

include h

theorem Flow.perm (hperm : underway.Perm underway') : s.Flow underway' where
  live c hc := h.live c (hperm.mem_iff.mpr hc)
  empty c hc := h.empty c (hperm.mem_iff.mpr hc)
  requested c hc := h.requested c (hperm.mem_iff.mpr hc)
  owners := (hperm.map _).nodup_iff.mp h.owners
  ids := h.ids
  stale := h.stale

/-- A step that moves no message keeps the flow if the futures keep their ids and new
requests are those of unfinished futures. -/
theorem Flow.mono (cqId_eq : s'.cqId = s.cqId) (sqId_eq : s'.sqId = s.sqId)
    (cmdId_eq : ∀ g, (s'.futures g).cmdId? = (s.futures g).cmdId?)
    (finished : ∀ g, s.futures g = .finished → s'.futures g = .finished)
    (message_eq : s'.cells.message = s.cells.message) (kept : ∀ r ∈ s.requests, r ∈ s'.requests)
    (new : ∀ w f cqId sqId id, .pendingCompletion w f cqId sqId id ∈ s'.requests →
      .pendingCompletion w f cqId sqId id ∈ s.requests ∨ (s.futures f).cmdId? = some id) :
    s'.Flow underway where
  live c hc := (cmdId_eq _).trans (h.live c hc)
  empty c hc := by rw [message_eq]; exact h.empty c hc
  requested c hc := by rw [cqId_eq, sqId_eq]; exact kept _ (h.requested c hc)
  owners := h.owners
  ids f g id hf hg := h.ids f g id ((cmdId_eq f).symm.trans hf) ((cmdId_eq g).symm.trans hg)
  stale w f cqId sqId id hreq := by
    rw [cmdId_eq]
    rcases new w f cqId sqId id hreq with hreq | hlive
    · exact (h.stale w f cqId sqId id hreq).imp_right (finished f)
    · exact .inl hlive

/-- The future of a command on its way is not one that has not submitted. -/
theorem Flow.owner_ne (hf : (s.futures f).cmdId? = none) {c : Issued} (hc : c ∈ underway) :
    c.owner ≠ f := by
  rintro rfl
  rw [h.live c hc] at hf
  cases hf

theorem Flow.awaitEntry : (s.awaitEntry f).Flow underway := by
  refine h.mono rfl rfl (fun _ => rfl) (fun _ => id) rfl (fun r hr => ?_) ?_
  · rw [awaitEntry_requests]
    exact mem_append_left _ hr
  · intro w g cqId sqId id hreq
    rw [awaitEntry_requests] at hreq
    rcases mem_append.mp hreq with hreq | hreq
    · exact .inl hreq
    · cases mem_singleton.mp hreq

end

theorem cmdId?_update {st : CompletionFutureState} (hst : st.cmdId? = (s.futures f).cmdId?)
    (g : FutureId) : (update s.futures f st g).cmdId? = (s.futures g).cmdId? := by
  by_cases hg : g = f
  · rw [hg, update_self, hst]
  · rw [update_of_ne hg]

theorem finished_update {st : CompletionFutureState} (hf : s.futures f ≠ .finished) (g : FutureId)
    (hg : s.futures g = .finished) : update s.futures f st g = .finished := by
  have hne : g ≠ f := by
    rintro rfl
    exact hf hg
  rw [update_of_ne hne, hg]

section

variable (h : s.Flow underway)

include h

theorem Flow.register (hf : s.futures f = .registering id) : (s.register f id).Flow underway := by
  refine h.mono rfl rfl (cmdId?_update (by rw [hf]; rfl)) (finished_update (by rw [hf]; nofun)) rfl
    (fun r hr => ?_) ?_
  · rw [register_requests]
    exact mem_append_left _ hr
  · intro w g cqId sqId id' hreq
    rw [register_requests] at hreq
    rcases mem_append.mp hreq with hreq | hreq
    · exact .inl hreq
    · cases mem_singleton.mp hreq
      exact .inr (by rw [hf]; rfl)

/-- A future that has its message is the future of no command on its way. -/
theorem Flow.finish {m : NvmeComp} (hm : s.cells.message f = some m) :
    (s.finish f).Flow underway := by
  have hne : ∀ c ∈ underway, c.owner ≠ f := by
    rintro c hc rfl
    rw [h.empty c hc] at hm
    cases hm
  have hlive : ∀ g id, ((s.finish f).futures g).cmdId? = some id →
      g ≠ f ∧ (s.futures g).cmdId? = some id := by
    intro g id hg
    by_cases hgf : g = f
    · subst hgf
      rw [finish_futures, update_self] at hg
      cases hg
    · rw [finish_futures, update_of_ne hgf] at hg
      exact ⟨hgf, hg⟩
  constructor
  · intro c hc
    rw [finish_futures, update_of_ne (hne c hc)]
    exact h.live c hc
  · intro c hc
    rw [finish_message, update_of_ne (hne c hc)]
    exact h.empty c hc
  · exact h.requested
  · exact h.owners
  · intro g g' id hg hg'
    exact h.ids g g' id (hlive g id hg).2 (hlive g' id hg').2
  · intro w g cqId sqId id hreq
    by_cases hgf : g = f
    · subst hgf
      exact .inr (by rw [finish_futures, update_self])
    · rw [finish_futures, update_of_ne hgf]
      exact h.stale w g cqId sqId id hreq

theorem Flow.submit {init : CmdInit} (hf : s.futures f = .pendingSubmission init)
    (free : ∀ g, (s.futures g).cmdId? ≠ some s.sq.tail) :
    (s.submit f init).Flow (underway ++ [s.issue f init]) := by
  have hnone : (s.futures f).cmdId? = none := by rw [hf]; rfl
  have hself : ((s.submit f init).futures f).cmdId? = some s.sq.tail := by
    rw [submit_futures, update_self]
    rfl
  have hother : ∀ g, g ≠ f → (s.submit f init).futures g = s.futures g :=
    fun g hg => update_of_ne hg _ _
  have hids (g : FutureId) : ((s.submit f init).futures g).cmdId? =
      update (fun g => (s.futures g).cmdId?) f (some s.sq.tail) g := by
    by_cases hg : g = f
    · rw [hg, hself, update_self]
    · rw [hother g hg, update_of_ne hg]
  have hcid : (s.issue f init).cmd.cid = s.sq.tail := init.cid_eq _
  constructor
  · intro c hc
    rcases mem_append.mp hc with hc | hc
    · rw [hother _ (h.owner_ne hnone hc)]
      exact h.live c hc
    · rw [mem_singleton.mp hc, hcid]
      exact hself
  · intro c hc
    rcases mem_append.mp hc with hc | hc
    · rw [submit_message, update_of_ne (h.owner_ne hnone hc)]
      exact h.empty c hc
    · rw [mem_singleton.mp hc, submit_message]
      exact update_self _ _ _
  · intro c hc
    rw [submit_requests]
    rcases mem_append.mp hc with hc | hc
    · exact mem_append_left _ (h.requested c hc)
    · rw [mem_singleton.mp hc, hcid]
      exact mem_append_right _ mem_cons_self
  · rw [map_append, nodup_append]
    refine ⟨h.owners, nodup_singleton _, ?_⟩
    rintro _ ho _ ho' rfl
    obtain ⟨c, hc, howner⟩ := mem_map.mp ho
    exact h.owner_ne hnone hc (howner.trans (mem_singleton.mp ho'))
  · intro g g' id hg hg'
    rw [hids] at hg hg'
    exact once_update h.ids free g g' id hg hg'
  · intro w g cqId sqId id hreq
    rw [submit_requests] at hreq
    rcases mem_append.mp hreq with hreq | hreq
    · have hstale := h.stale w g cqId sqId id hreq
      have hgf : g ≠ f := by
        rintro rfl
        rw [hnone, hf] at hstale
        rcases hstale with hstale | hstale <;> cases hstale
      rwa [hother g hgf]
    · cases mem_singleton.mp hreq
      exact .inl hself

end

end Flow

/-! ### Answering requests -/

/-- The entry that the reactor answers requests for reaches the future of its command,
which waits for it, and no other unfinished future. -/
def Resolves (s : System) : Event → Prop
  | .notify => ∀ p s', s.handling = some p → s.notify = some s' →
      (s.futures p.command.owner).cmdId? = some p.command.cmd.cid ∧
      s.cells.message p.command.owner = none ∧
      s'.cells.message p.command.owner = some p.entry ∧
      ∀ g, g ≠ p.command.owner → s.futures g ≠ .finished →
        s'.cells.message g = s.cells.message g
  | _ => True

section Answer

variable {underway : List Issued} {p : Posted}

section

variable (h : s.Flow (p.command :: underway)) (hcid : p.entry.cid = p.command.cmd.cid)

include h hcid

/-- Another command's future does not have the entry's id. -/
theorem Flow.cid_ne {c : Issued} (hc : c ∈ underway) : c.cmd.cid ≠ p.entry.cid := by
  intro heq
  have howner := h.ids c.owner p.command.owner p.entry.cid
    (heq ▸ h.live c (mem_cons_of_mem _ hc)) (hcid ▸ h.live _ mem_cons_self)
  have hnodup := h.owners
  rw [map_cons, nodup_cons] at hnodup
  exact hnodup.1 (howner ▸ mem_map_of_mem hc)

theorem Flow.message_other {g : FutureId} (hg : g ≠ p.command.owner)
    (hfin : s.futures g ≠ .finished) :
    (tryNotifyFutures s.cqId p.entry s.pendingReqs s.cells).2.message g = s.cells.message g := by
  rcases tryNotifyFutures_message s.cqId p.entry s.pendingReqs s.cells g with
    ⟨⟨w, hreq⟩, -⟩ | ⟨-, hmsg⟩
  · -- the request is that of the command's future, or a leftover of a finished one
    rcases h.stale w g _ _ _ (mem_append_left _ hreq) with hlive | hdone
    · rw [hcid] at hlive
      exact absurd (h.ids g _ _ hlive (h.live _ mem_cons_self)) hg
    · exact absurd hdone hfin
  · exact hmsg

end

theorem Flow.notify (h : s.Flow (p.command :: underway)) (hp : s.handling = some p)
    (hcid : p.entry.cid = p.command.cmd.cid) (hstep : s.notify = some s') : s'.Flow underway := by
  obtain ⟨q, hq, rfl⟩ := Option.map_eq_some_iff.mp hstep
  obtain rfl : p = q := by simpa [hp] using hq
  have hmem : ∀ c ∈ underway, c ∈ p.command :: underway := fun c => mem_cons_of_mem _
  have hnodup := h.owners
  rw [map_cons, nodup_cons] at hnodup
  constructor
  · exact fun c hc => h.live c (hmem c hc)
  · intro c hc
    have howner : c.owner ≠ p.command.owner := fun heq =>
      hnodup.1 (heq ▸ mem_map_of_mem hc)
    have hfin : s.futures c.owner ≠ .finished := by
      intro hfin
      have hlive := h.live c (hmem c hc)
      rw [hfin] at hlive
      cases hlive
    exact (h.message_other hcid howner hfin).trans (h.empty c (hmem c hc))
  · intro c hc
    rcases mem_append.mp (h.requested c (hmem c hc)) with hreq | hreq
    · refine mem_append_left _ ?_
      rw [tryNotifyFutures_kept]
      refine mem_filter.mpr ⟨hreq, ?_⟩
      simp [PendingReq.finishes, h.cid_ne hcid hc]
    · exact mem_append_right _ hreq
  · exact hnodup.2
  · exact h.ids
  · intro w g cqId sqId id hreq
    refine h.stale w g cqId sqId id ?_
    rcases mem_append.mp hreq with hreq | hreq
    · rw [tryNotifyFutures_kept] at hreq
      exact mem_append_left _ (mem_filter.mp hreq).1
    · exact mem_append_right _ hreq

theorem Flow.resolves (h : s.Flow (p.command :: underway)) (hp : s.handling = some p)
    (hcid : p.entry.cid = p.command.cmd.cid) (hsq : p.entry.sqId = s.sqId)
    (hreq : .pendingCompletion p.command.owner p.command.owner s.cqId s.sqId p.command.cmd.cid ∈
      s.pendingReqs) : s.Resolves .notify := by
  intro q s' hq hstep
  obtain rfl : p = q := by simpa [hp] using hq
  obtain ⟨q, hq, rfl⟩ := Option.map_eq_some_iff.mp hstep
  obtain rfl : p = q := by simpa [hp] using hq
  refine ⟨h.live _ mem_cons_self, h.empty _ mem_cons_self, ?_,
    fun g hg hfin => h.message_other hcid hg hfin⟩
  rcases tryNotifyFutures_message s.cqId p.entry s.pendingReqs s.cells p.command.owner with
    ⟨-, hmsg⟩ | ⟨hnone, -⟩
  · exact hmsg
  · rw [hsq, hcid] at hnone
    exact absurd hreq (hnone _)

end Answer

/-! ### The ring between driver and controller -/

/-- The controller has fetched `fetched` commands, and the ring holds the others. -/
structure InRing (s : System) (fetched : Nat) (queued : List Issued) : Prop where
  holds : Holds s.sq.data fetched queued
  tail_eq : s.sq.tail.toNat = (fetched + queued.length) % s.sq.data.length
  doorbell_eq : s.doorbell = s.sq.tail
  fetchHead_eq : s.fetchHead.toNat = fetched % s.sq.data.length
  cid_eq : ∀ t c, queued[t]? = some c → c.cmd.cid.toNat = (fetched + t) % s.sq.data.length

section Ring

variable {fetched : Nat} {queued : List Issued} {f : FutureId} {init : CmdInit}

/-- A step that leaves the submission queue's memory and the two positions alone. -/
theorem InRing.congr (h : s.InRing fetched queued) (data_eq : s'.sq.data = s.sq.data)
    (tail_eq : s'.sq.tail = s.sq.tail) (doorbell_eq : s'.doorbell = s.doorbell)
    (fetchHead_eq : s'.fetchHead = s.fetchHead) : s'.InRing fetched queued where
  holds := by rw [data_eq]; exact h.holds
  tail_eq := by rw [tail_eq, data_eq]; exact h.tail_eq
  doorbell_eq := by rw [doorbell_eq, tail_eq]; exact h.doorbell_eq
  fetchHead_eq := by rw [fetchHead_eq, data_eq]; exact h.fetchHead_eq
  cid_eq := by rw [data_eq]; exact h.cid_eq

theorem InRing.submit (h : s.InRing fetched queued) (room : queued.length < s.sq.data.length) :
    (s.submit f init).InRing fetched (queued ++ [s.issue f init]) := by
  have hlen : (s.submit f init).sq.data.length = s.sq.data.length :=
    submitUnchecked_length _ _
  constructor
  · have hpush := h.holds.push (x := s.issue f init) room
    rw [← h.tail_eq] at hpush
    exact hpush
  · rw [hlen, length_append, ← Nat.add_assoc]
    change s.sq.nextTail.toNat = (fetched + queued.length + 1) % s.sq.data.length
    rw [nextTail_toNat, h.tail_eq, Nat.mod_add_mod]
  · rfl
  · rw [hlen]
    exact h.fetchHead_eq
  · intro t c hc
    rw [hlen]
    rcases getElem?_push hc with ⟨-, hc⟩ | ⟨rfl, rfl⟩
    · exact h.cid_eq t c hc
    · exact (congrArg BitVec.toNat (init.cid_eq s.sq.tail)).trans h.tail_eq

/-- The controller fetches the oldest command of the ring. -/
theorem InRing.fetch (h : s.InRing fetched queued) (hstep : s.fetch = some s') :
    ∃ c rest, queued = c :: rest ∧ s'.InRing (fetched + 1) rest ∧
      s' = { s with
        executing := s.executing ++ [c]
        fetchHead := (s.fetchHead + 1) % BitVec.ofNat 16 s.sq.data.length } := by
  obtain ⟨hne, c, hc, rfl⟩ := fetch_cases hstep
  cases queued with
  | nil =>
    refine absurd (BitVec.eq_of_toNat_eq ?_) hne
    rw [h.fetchHead_eq, h.doorbell_eq, h.tail_eq]
    rfl
  | cons d rest =>
    obtain rfl : d = c := by
      have hd := h.holds.head
      rw [← h.fetchHead_eq, hc] at hd
      exact (Option.some.inj hd).symm
    refine ⟨d, rest, rfl, ⟨h.holds.tail, ?_, h.doorbell_eq, ?_, fun t c hc => ?_⟩, rfl⟩
    · rw [h.tail_eq, length_cons, Nat.add_assoc, Nat.add_comm 1]
    · have hlt : s.fetchHead.toNat < s.sq.data.length := by
        rw [h.fetchHead_eq]
        exact Nat.mod_lt _ (Nat.lt_of_lt_of_le Nat.zero_lt_two s.sq.two_le)
      rw [add_one_umod_toNat s.sq.len_lt hlt, h.fetchHead_eq, Nat.mod_add_mod]
    · rw [Nat.add_assoc, Nat.add_comm 1]
      exact h.cid_eq (t + 1) c hc

end Ring

/-! ### Whole runs -/

/-- A submission takes an id that no unfinished future has. -/
def IdFree (s : System) (e : Event) : Prop :=
  s.Submits e → ∀ g, (s.futures g).cmdId? ≠ some s.sq.tail

/-- The commands that have been submitted and whose entry the reactor has not answered
requests for. -/
def underway (s : System) (queued : List Issued) : List Issued :=
  (s.handling.map Posted.command).toList ++ (queued ++ s.executing ++ s.cq.map Posted.command)

structure Wired (s : System) (fetched : Nat) (queued : List Issued) : Prop where
  ring : s.InRing fetched queued
  flow : s.Flow (s.underway queued)
  /-- The request for the entry being handled is on the reactor's list already. -/
  listed : ∀ p, s.handling = some p →
    .pendingCompletion p.command.owner p.command.owner s.cqId s.sqId p.command.cmd.cid ∈
      s.pendingReqs
  entry_of : ∀ p, p ∈ s.cq ∨ s.handling = some p →
    p.entry.cid = p.command.cmd.cid ∧ p.entry.sqId = s.sqId
  outstanding_sub : ∀ c ∈ s.outstanding, c ∈ queued ++ s.executing

section Wired

variable {fetched : Nat} {queued : List Issued} {f : FutureId} {init : CmdInit}

section

variable (h : s.Wired fetched queued)

include h

/-- A full ring would hold a command with the id that is said to be free. -/
theorem Wired.room (free : ∀ g, (s.futures g).cmdId? ≠ some s.sq.tail) :
    queued.length < s.sq.data.length := by
  refine Nat.lt_of_le_of_ne h.ring.holds.fits fun hfull => ?_
  have htwo := s.sq.two_le
  cases queued with
  | nil =>
    rw [length_nil] at hfull
    omega
  | cons c =>
    have hcid : c.cmd.cid = s.sq.tail := by
      apply BitVec.eq_of_toNat_eq
      rw [h.ring.cid_eq 0 c rfl, h.ring.tail_eq, hfull, Nat.add_mod_right]
      rfl
    refine free c.owner (hcid ▸ h.flow.live c ?_)
    exact mem_append_right _ mem_cons_self

theorem Wired.submit (hf : s.futures f = .pendingSubmission init)
    (free : ∀ g, (s.futures g).cmdId? ≠ some s.sq.tail) :
    (s.submit f init).Wired fetched (queued ++ [s.issue f init]) where
  ring := h.ring.submit (h.room free)
  flow := by
    refine (h.flow.submit hf free).perm ?_
    simp only [underway, append_assoc]
    refine List.Perm.append_left _ (List.Perm.append_left _ ?_)
    rw [← append_assoc]
    exact perm_append_comm
  listed := h.listed
  entry_of := h.entry_of
  outstanding_sub c hc := by
    rcases mem_append.mp hc with hc | hc
    · rcases mem_append.mp (h.outstanding_sub c hc) with hc | hc
      · exact mem_append_left _ (mem_append_left _ hc)
      · exact mem_append_right _ hc
    · exact mem_append_left _ (mem_append_right _ hc)

theorem Wired.poll (hstep : s.poll f = some s') (free : s.IdFree (.poll f)) :
    ∃ fetched queued, s'.Wired fetched queued := by
  rcases poll_cases hstep with
    ⟨init, hf, ⟨-, rfl⟩ | ⟨hfull, rfl⟩⟩ | ⟨id, hf, ⟨m, hm, rfl⟩ | ⟨-, rfl⟩⟩ | ⟨id, hf, rfl⟩
  · exact ⟨fetched, queued, h.ring.congr rfl rfl rfl rfl, h.flow.awaitEntry, h.listed, h.entry_of,
      h.outstanding_sub⟩
  · exact ⟨fetched, _, h.submit hf (free ⟨⟨init, hf⟩, hfull⟩)⟩
  · exact ⟨fetched, queued, h.ring.congr rfl rfl rfl rfl, h.flow.finish hm, h.listed, h.entry_of,
      h.outstanding_sub⟩
  · refine ⟨fetched, queued, h.ring.congr rfl rfl rfl rfl, ?_, h.listed, h.entry_of, h.outstanding_sub⟩
    exact h.flow.mono rfl rfl (cmdId?_update (by rw [hf]; rfl)) (finished_update (by rw [hf]; nofun))
      rfl (fun r hr => hr) fun w g cqId sqId id hreq => .inl hreq
  · exact ⟨fetched, queued, h.ring.congr rfl rfl rfl rfl, h.flow.register hf, h.listed,
      h.entry_of, h.outstanding_sub⟩

end

/-- A step that leaves futures, messages and requests alone. -/
theorem Flow.congr {underway : List Issued} (h : s.Flow underway) (cqId_eq : s'.cqId = s.cqId)
    (sqId_eq : s'.sqId = s.sqId) (futures_eq : s'.futures = s.futures)
    (cells_eq : s'.cells = s.cells) (requests_eq : s'.requests = s.requests) :
    s'.Flow underway := by
  refine h.mono cqId_eq sqId_eq (fun g => by rw [futures_eq]) (fun g hg => by rw [futures_eq, hg])
    (by rw [cells_eq]) (fun r hr => by rw [requests_eq]; exact hr) fun w g cqId sqId id hreq => ?_
  rw [requests_eq] at hreq
  exact .inl hreq

section

variable (h : s.Wired fetched queued)

include h

theorem Wired.fetch (hstep : s.fetch = some s') : ∃ fetched queued, s'.Wired fetched queued := by
  obtain ⟨c, rest, rfl, ring, rfl⟩ := h.ring.fetch hstep
  have hmove : (c :: rest ++ s.executing).Perm (rest ++ (s.executing ++ [c])) := by
    rw [← append_assoc]
    exact perm_append_singleton c (rest ++ s.executing) |>.symm
  refine ⟨fetched + 1, rest, ring, ?_, h.listed, h.entry_of, fun o ho => ?_⟩
  · refine (h.flow.perm ?_).congr rfl rfl rfl rfl rfl
    exact (hmove.append_right _).append_left _
  · exact hmove.mem_iff.mp (h.outstanding_sub o ho)

theorem Wired.post {i : Nat} {commandSpecific : U32} {status : U16}
    (hstep : s.post i commandSpecific status = some s') :
    ∃ fetched queued, s'.Wired fetched queued := by
  obtain ⟨c, hc, rfl⟩ := Option.map_eq_some_iff.mp hstep
  obtain ⟨hi, rfl⟩ := List.getElem?_eq_some_iff.mp hc
  have hperm := getElem_cons_eraseIdx_perm hi
  have hmove : (queued ++ s.executing ++ s.cq.map Posted.command).Perm
      (queued ++ s.executing.eraseIdx i ++ (s.cq.map Posted.command ++ [s.executing[i]])) := by
    rw [append_assoc, append_assoc]
    refine List.Perm.append_left _ ((hperm.symm.append_right _).trans ?_)
    rw [← append_assoc]
    exact (perm_append_singleton _ _).symm
  refine ⟨fetched, queued, h.ring.congr rfl rfl rfl rfl, ?_, h.listed, ?_, fun o ho => ?_⟩
  · refine (h.flow.perm ?_).congr rfl rfl rfl rfl rfl
    simp only [underway, map_append, map_singleton]
    exact hmove.append_left _
  · rintro p (hp | hp)
    · rcases mem_append.mp hp with hp | hp
      · exact h.entry_of p (.inl hp)
      · rw [mem_singleton.mp hp]
        exact ⟨rfl, rfl⟩
    · exact h.entry_of p (.inr hp)
  · obtain ⟨ho, hseq⟩ := mem_filter.mp ho
    rcases mem_append.mp (h.outstanding_sub o ho) with ho | ho
    · exact mem_append_left _ ho
    · refine mem_append_right _ ?_
      rcases mem_cons.mp (hperm.mem_iff.mpr ho) with rfl | ho
      · simp at hseq
      · exact ho

theorem Wired.receive (hstep : s.receive = some s') :
    ∃ fetched queued, s'.Wired fetched queued := by
  obtain ⟨hnone, req, rest, hcons, rfl⟩ := receive_cases hstep
  refine ⟨fetched, queued, h.ring.congr rfl rfl rfl rfl, ?_, ?_, h.entry_of, h.outstanding_sub⟩
  · refine h.flow.congr rfl rfl rfl rfl ?_
    simp [requests, hcons]
  · intro p hp
    rw [hnone] at hp
    cases hp

theorem Wired.take (hstep : s.take = some s') : ∃ fetched queued, s'.Wired fetched queued := by
  obtain ⟨hnone, p, rest, hcons, rfl⟩ := take_cases hstep
  have hmem : p.command ∈ s.underway queued := by
    simp [underway, hcons]
  refine ⟨fetched, queued, h.ring.congr rfl rfl rfl rfl, ?_, ?_, ?_, h.outstanding_sub⟩
  · refine (h.flow.perm ?_).congr rfl rfl rfl rfl (by simp [requests])
    simp only [underway, hnone, hcons, map_cons, Option.map_none, Option.map_some,
      Option.toList_none, Option.toList_some, nil_append, cons_append]
    exact perm_middle
  · intro q hq
    cases hq
    exact h.flow.requested _ hmem
  · rintro q (hq | hq)
    · exact h.entry_of q (.inl (hcons ▸ mem_cons_of_mem _ hq))
    · cases hq
      exact h.entry_of p (.inl (hcons ▸ mem_cons_self))

/-- While an entry is handled, its command is the first of those on their way. -/
theorem Wired.flow_handling {p : Posted} (hp : s.handling = some p) :
    s.Flow (p.command :: (queued ++ s.executing ++ s.cq.map Posted.command)) := by
  have hflow := h.flow
  rw [underway, hp] at hflow
  exact hflow

theorem Wired.notify (hstep : s.notify = some s') : ∃ fetched queued, s'.Wired fetched queued := by
  obtain ⟨p, hp, heq⟩ := Option.map_eq_some_iff.mp hstep
  have hflow := (h.flow_handling hp).notify hp (h.entry_of p (.inr hp)).1 hstep
  subst heq
  exact ⟨fetched, queued, h.ring.congr rfl rfl rfl rfl, hflow, nofun,
    fun q hq => h.entry_of q (.inl (hq.resolve_right nofun)), h.outstanding_sub⟩

theorem Wired.step (hstep : s.step e = some s') (free : s.IdFree e) :
    ∃ fetched queued, s'.Wired fetched queued := by
  cases e with
  | poll => exact h.poll hstep free
  | fetch => exact h.fetch hstep
  | post => exact h.post hstep
  | receive => exact h.receive hstep
  | take => exact h.take hstep
  | notify => exact h.notify hstep

theorem Wired.resolves : s.Resolves e := by
  cases e with
  | notify =>
    intro p s' hp hstep
    obtain ⟨hcid, hsq⟩ := h.entry_of p (.inr hp)
    exact (h.flow_handling hp).resolves hp hcid hsq (h.listed p hp) p s' hp hstep
  | poll | fetch | post | receive | take => trivial

/-- An id that is free is in particular not that of the command of one lap before. -/
theorem Wired.lapDone (laps : s.Laps) (free : s.IdFree e) : s.LapDone e := by
  intro hsub
  refine laps.tail_ne_iff.mp fun c hc heq => ?_
  exact free hsub c.owner (heq ▸ h.flow.live c
    (mem_append_right _ (mem_append_left _ (h.outstanding_sub c hc))))

end

end Wired

section Runs

variable (data : List Issued) (two_le : 2 ≤ data.length) (len_lt : data.length < 2 ^ 16)
  (sqId : SqId) (cqId : CqId) (init : FutureId → CmdInit)

/-- **Completion delivery.** In every run of the futures, the controller and the reactor,
outstanding commands have different ids in all states exactly if each submission finds
the command of one lap before completed. If moreover no submission takes an id that an
unfinished future has, every entry reaches the future of its command and no other. -/
theorem distinct_iff_lapDone_and_delivers {es : List Event} {s : System}
    (h : run step (start (.ofData data two_le len_lt) sqId cqId init) es = some s) :
    (Throughout step (start (.ofData data two_le len_lt) sqId cqId init) Distinct es ↔
        Along step (start (.ofData data two_le len_lt) sqId cqId init) LapDone es) ∧
      (Along step (start (.ofData data two_le len_lt) sqId cqId init) IdFree es →
        Throughout step (start (.ofData data two_le len_lt) sqId cqId init) Distinct es ∧
        Along step (start (.ofData data two_le len_lt) sqId cqId init) Resolves es) := by
  have laps : (start (.ofData data two_le len_lt) sqId cqId init).Laps :=
    ⟨(Nat.zero_mod _).symm, nofun, nofun, nofun⟩
  have spread : (start (.ofData data two_le len_lt) sqId cqId init).Spread := ⟨laps, nodup_nil⟩
  have wired : (start (.ofData data two_le len_lt) sqId cqId init).Wired 0 [] :=
    ⟨⟨.nil, (Nat.zero_mod _).symm, rfl, (Nat.zero_mod _).symm, nofun⟩,
      ⟨nofun, nofun, nofun, nodup_nil, nofun, nofun⟩, nofun, nofun, nofun⟩
  have ids : Throughout step (start (.ofData data two_le len_lt) sqId cqId init) Distinct es ↔
      Along step (start (.ofData data two_le len_lt) sqId cqId init) LapDone es := by
    refine throughout_iff_along spread spread.2 ?_ ?_ h
    · rintro s e s' ⟨laps, distinct⟩ done hstep
      exact ⟨laps.step done hstep, (distinct_step_iff laps distinct hstep).mpr done⟩
    · rintro s e s' ⟨laps, distinct⟩ hstep
      exact distinct_step_iff laps distinct hstep
  refine ⟨ids, fun free => ?_⟩
  have keep : ∀ (s : System) (e : Event) (s' : System),
      (s.Laps ∧ ∃ fetched queued, s.Wired fetched queued) → s.IdFree e →
      s.step e = some s' → s'.Laps ∧ ∃ fetched queued, s'.Wired fetched queued := by
    rintro s e s' ⟨laps, fetched, queued, wired⟩ free hstep
    exact ⟨laps.step (wired.lapDone laps free) hstep, wired.step hstep free⟩
  refine ⟨ids.mpr (along_of_along ⟨laps, 0, [], wired⟩ keep ?_ h free),
    along_of_along ⟨laps, 0, [], wired⟩ keep ?_ h free⟩
  · rintro s e s' ⟨laps, fetched, queued, wired⟩ free -
    exact wired.lapDone laps free
  · rintro s e s' ⟨-, fetched, queued, wired⟩ - -
    exact wired.resolves

end Runs

/-! ### A lap while a command executes -/

/-- Every future submits an otherwise empty command. -/
def emptyCommands (_ : FutureId) : CmdInit :=
  ⟨fun id => { (default : NvmeCmd) with cid := id }, fun _ => rfl⟩

/-- Two commands are submitted and fetched. The second one completes first, and both are answered
for. -/
def twoCommands : List Event :=
  [.poll 0, .poll 1] ++ [.fetch, .fetch, .post 1 0 1, .post 0 0 1, .take, .notify, .take, .notify]

theorem twoCommands_delivered : ∃ s, run step (start .new 1 1 emptyCommands) twoCommands = some s ∧
      Throughout step (start .new 1 1 emptyCommands) Distinct twoCommands ∧
      Along step (start .new 1 1 emptyCommands) Resolves twoCommands := by
  have free : Along step (start .new 1 1 emptyCommands) IdFree twoCommands := by
    refine along_cons.mpr ⟨fun _ _ => nofun, ?_⟩
    rintro _ ⟨⟩
    refine along_cons.mpr ⟨fun _ g => ?_, fun _ _ => ?_⟩
    · -- The first future has the id 0, and the tail is 1.
      by_cases hg : g = 0
      · subst hg
        decide
      · have hold : (submit (start .new 1 1 emptyCommands) 0 (emptyCommands 0)).futures g =
            .pendingSubmission (emptyCommands g) := Function.update_of_ne hg _ _
        exact fun h => nomatch (congrArg CompletionFutureState.cmdId? hold).symm.trans h
    · simp [along_cons, along_nil, IdFree, Submits]
  exact ⟨_, rfl, (distinct_iff_lapDone_and_delivers (replicate 64 default) (by decide)
    (by decide) 1 1 emptyCommands (rfl : run _ (start .new 1 1 emptyCommands) _ = some _)).2 free⟩

/-- 63 commands are submitted and fetched, the last of them completes, and the reactor
learns that the controller has come to slot 63. Two more futures submit. -/
def firstStillExecutes : List Event :=
  (List.range 63).map .poll ++ List.replicate 63 .fetch ++
    [.post 62 0 1, .take, .notify, .poll 63, .poll 64]

/-- The two commands are fetched, and the last one completes. -/
def lastCompletes : List Event := [.fetch, .fetch, .post 63 0 1, .take, .notify]

/-- The first command is still executing when its slot is written again, so two
outstanding commands have the id 0. The completion of the second one then goes to the
future of the first. -/
theorem id_used_twice :
    (∃ s, run step (start .new 1 1 emptyCommands) firstStillExecutes = some s ∧ ¬ s.Distinct) ∧
      ∃ s, run step (start .new 1 1 emptyCommands) (firstStillExecutes ++ lastCompletes) = some s ∧
        (∃ c ∈ s.outstanding, c.owner = 0) ∧ s.cells.message 0 = some ⟨0, 1, 1, 0, 1⟩ := by
  have twice : (run step (start .new 1 1 emptyCommands) firstStillExecutes).map
      (fun s => decide (s.outstanding.map (·.cmd.cid)).Nodup) = some false := by decide +kernel
  have wrong : (run step (start .new 1 1 emptyCommands) (firstStillExecutes ++ lastCompletes)).map
      (fun s => (decide (∃ c ∈ s.outstanding, c.owner = 0), s.cells.message 0)) =
      some (true, some ⟨0, 1, 1, 0, 1⟩) := by decide +kernel
  obtain ⟨s, hs, hdup⟩ := Option.map_eq_some_iff.mp twice
  obtain ⟨t, ht, heq⟩ := Option.map_eq_some_iff.mp wrong
  rw [Prod.mk.injEq] at heq
  exact ⟨⟨s, hs, decide_eq_false_iff_not.mp hdup⟩, t, ht, of_decide_eq_true heq.1, heq.2⟩

end RedoxDrivers.Nvme.System
