import RedoxDrivers.Inputd.Effects

/-!
The notifications of `inputd`.

The loop skips the notifications of a turn unless `has_new_events` is set, skips a handle that was
`notified`, and skips a consumer whose VT is not the active one. `no_lost_wakeup` says that none of
the three flags hides anything: a subscriber that something is queued for in a turn is posted an event
in that turn.
-/

namespace RedoxDrivers.Inputd

open Lib List Option

namespace Handle

def IsSubscribed : Handle → Prop
  | .consumer c => Subscribed c.events
  | .display d => Subscribed d.events
  | _ => False

/-- Something is there to be read. -/
def HasPending : Handle → Prop
  | .consumer c => c.needsHandoff = true ∨ c.pending ≠ []
  | .display d => d.pending ≠ []
  | _ => False

/-- Bytes or events are queued for the handle, or a handoff is flagged. -/
def Gains : Handle → Handle → Prop
  | .consumer c, .consumer c' =>
    (c.taken ++ c.pending).length < (c'.taken ++ c'.pending).length ∨
      (c.needsHandoff = false ∧ c'.needsHandoff = true)
  | .display d, .display d' => (d.taken ++ d.pending).length < (d'.taken ++ d'.pending).length
  | _, _ => False

end Handle

namespace InputScheme

open Handle

/-- The request opens a `handle`, which takes over the VT of a consumer: a handoff is flagged for it,
whether one was flagged before or not. -/
def TakesOver (s : InputScheme) : Request → Handle → Prop
  | .openPath path, .consumer c =>
    (∃ device, parseOpen path = some (.handle device)) ∧ s.isEarlyVt c.vt = true
  | _, _ => False

/-- The posts of a turn from `s` to `s'` are those that the subscribers wait for. -/
structure Notifies (s : InputScheme) (r : Request) (s' : InputScheme) (posted : List Nat) : Prop where
  told : ∀ id old new, s.handles id = some old → s'.handles id = some new → old.IsSubscribed →
    Gains old new ∨ s.TakesOver r old → id ∈ posted
  reason : ∀ id ∈ posted, ∃ h, s'.handles id = some h ∧ h.HasPending

/-- A turn with an active VT returns, and one that returns posts what it has to. -/
def Wakes (decode : List U8 → EventOption) (s : InputScheme) (r : Request) : Prop :=
  (s.activeVt ≠ none → iterate decode s r ≠ none) ∧
    ∀ s' posted, iterate decode s r = some (s', posted) → Notifies s r s' posted

/-! ### A VT stays active -/

section Active

variable {decode : List U8 → EventOption} {s mid : InputScheme} {r : Request}

theorem foldl_press_ne_none {known : Nat → Bool} (es : List EventOption) {k : Keys}
    (h : k.activeVt ≠ none) : (es.foldl (Keys.press known) k).activeVt ≠ none := by
  induction es generalizing k with
  | nil => exact h
  | cons e es ih =>
    refine ih fun hnone => h ?_
    exact (or_eq_none_iff.mp hnone).2

theorem not_breaks_of_active (h : s.activeVt ≠ none) (r : Request) : ¬ s.Breaks decode r := by
  cases r with
  | write =>
    rintro ⟨-, -, hnot | hnone⟩
    · exact hnot fun _ pre _ _ _ _ => foldl_press_ne_none pre h
    · exact foldl_press_ne_none _ h hnone
  | _ => exact fun h => h

theorem Effect.activeVt_ne_none (hwf : s.WF) (h : Effect decode s r mid) (hactive : s.activeVt ≠ none) :
    mid.handoff.activeVt ≠ none := by
  have hmid : mid.activeVt ≠ none := by
    cases h with
    | control id buf =>
      intro hnone
      have hkeys := congrArg Keys.activeVt (keys_afterSwitch s.noted (Endian.ofLe buf))
      rw [show (s.noted.afterSwitch (Endian.ofLe buf)).keys.activeVt = none from hnone] at hkeys
      exact hactive (or_eq_none_iff.mp hkeys.symm).2
    | produce id buf vt handle noise survives active =>
      show (s.noted.afterEvents ((chunks buf).map decode)).activeVt ≠ none
      rw [activeVt_afterEvents, active]
      simp
    | _ => exact hactive
  rcases h.handoff_cases hwf with ⟨-, heq⟩ | ⟨path, device, -, -, -, heq⟩
  · rwa [heq]
  · rw [heq]
    exact hmid

/-- With an active VT, a turn returns. -/
theorem iterate_ne_none (hwf : s.WF) (hactive : s.activeVt ≠ none) (r : Request) :
    iterate decode s r ≠ none := by
  rcases iterate_cases decode hwf r with ⟨hbreaks, -⟩ | ⟨mid, heffect, heq⟩
  · exact absurd hbreaks (not_breaks_of_active hactive r)
  · rw [heq]
    rcases notify_cases mid.handoff with ⟨-, hn⟩ | ⟨-, ⟨hnone, -⟩, -⟩ | ⟨-, -, hn⟩
    · rw [hn]
      simp [Except.toOption]
    · exact absurd hnone (heffect.activeVt_ne_none hwf hactive)
    · rw [hn]
      simp [Except.toOption]

end Active

/-! ### What is queued is told -/

section Told

variable {decode : List U8 → EventOption} {s mid t : InputScheme} {r : Request} {id : Nat}
  {old new : Handle} {activeVt : Option Nat}

theorem not_gains_self (h : Handle) : ¬ Gains h h := by
  cases h <;> simp [Gains]

/-- Nothing is queued between two states. -/
def Quiet (s t : InputScheme) : Prop :=
  ∀ id old new, s.handles id = some old → t.handles id = some new → ¬ Gains old new

theorem quiet_of_handles (h : t.handles = s.handles) : s.Quiet t := by
  intro id old new hold hnew
  obtain rfl : old = new := by
    rw [h, hold] at hnew
    exact some.inj hnew
  exact not_gains_self old

theorem quiet_setHandle (hid : s.handles id = some old) (h : ¬ Gains old new) :
    s.Quiet (s.base.setHandle id new) := by
  intro id' old' new' hold' hnew'
  rcases handles_setHandle_eq_some.mp hnew' with ⟨rfl, rfl⟩ | ⟨-, hsame⟩
  · cases hid.symm.trans hold'
    exact h
  · cases hold'.symm.trans hsame
    exact not_gains_self old'

theorem quiet_opened (hwf : s.WF) (opening : Opening) : s.Quiet (s.opened opening) := by
  intro id old new hold hnew
  rw [handles_opened hwf opening hold] at hnew
  cases hnew
  exact not_gains_self old

/-- A handle that something was queued for is posted an event. -/
theorem posts_of_pushing {f : Display → Display} (hf : Pushing f) {h : Handle}
    (hsub : h.IsSubscribed) (hgains : Gains h (h.onDisplay f)) : Posts activeVt (h.onDisplay f) := by
  cases h with
  | display d =>
    rcases hf d with heq | ⟨queued, hne, heq⟩
    · rw [onDisplay, heq] at hgains
      exact absurd hgains (not_gains_self _)
    · rw [onDisplay, heq]
      exact ⟨by simp [hne], rfl, hsub⟩
  | _ => exact absurd hgains (not_gains_self _)

theorem posts_of_delivered {f : Display → Display} (hf : Pushing f) {h : Handle} {vt : Nat}
    {buf : List U8} {g : Consumer → Consumer}
    (hg : g = fun c => if c.vt = vt then { c with pending := c.pending ++ buf, notified := false } else c)
    (hsub : h.IsSubscribed) (hgains : Gains h ((h.onDisplay f).onConsumer g)) :
    Posts (some vt) ((h.onDisplay f).onConsumer g) := by
  cases h with
  | consumer c =>
    subst hg
    have hgains' : Gains (.consumer c) (.consumer
        (if c.vt = vt then { c with pending := c.pending ++ buf, notified := false } else c)) := hgains
    show Posts (some vt) (.consumer
      (if c.vt = vt then { c with pending := c.pending ++ buf, notified := false } else c))
    by_cases hvt : c.vt = vt
    · rw [if_pos hvt] at hgains' ⊢
      have hbuf : buf ≠ [] := by
        rintro rfl
        simp [Gains] at hgains'
      exact ⟨⟨.inr (by simp [hbuf]), rfl, hsub⟩, .inr (by rw [hvt])⟩
    · rw [if_neg hvt] at hgains'
      exact absurd hgains' (not_gains_self _)
  | display => exact posts_of_pushing hf hsub hgains
  | producer | control => exact absurd hgains (not_gains_self _)

theorem isEarlyVt_opened (hwf : s.WF) (opening : Opening) {vt : Nat} (h : s.isEarlyVt vt = true) :
    (s.opened opening).isEarlyVt vt = true := by
  show (s.vts vt).any (fun device => (s.opened opening).anyHandle (isEarly device)) = true
  unfold isEarlyVt at h
  cases hvt : s.vts vt with
  | none => simp [hvt] at h
  | some device =>
    rw [hvt] at h
    obtain ⟨id, handle, hid, hearly⟩ := (anyHandle_iff hwf.handles).mp h
    exact (anyHandle_iff (hwf.opened opening).handles).mpr
      ⟨id, handle, handles_opened hwf opening hid, hearly⟩

/-- A handoff that is flagged is told. -/
theorem posts_of_early (hwf : { s with maybePerformHandoffTo := none }.WF) {device : List Char}
    {c : Consumer} (hold : s.handles id = some (.consumer c))
    (hnew : (s.takeOver device).handles id = some new) (hsub : Subscribed c.events)
    (hearly : s.isEarlyVt c.vt = true) :
    (s.takeOver device).hasNewEvents = true ∧ Posts activeVt new := by
  have hmap : (s.handles id).map (onConsumer fun c =>
      if s.isEarlyVt c.vt then { c with needsHandoff := true, notified := false } else c) = some new :=
    hnew
  rw [hold] at hmap
  cases hmap
  show _ ∧ Posts activeVt (.consumer
    (if s.isEarlyVt c.vt then { c with needsHandoff := true, notified := false } else c))
  rw [if_pos hearly]
  have hknown : c.vt < s.nextVtId := ((hwf.vts c.vt).mp (isEarlyVt_known hearly)).2
  refine ⟨?_, ⟨.inl rfl, rfl, hsub⟩, .inl rfl⟩
  show (s.hasNewEvents || (List.range s.nextVtId).any s.isEarlyVt) = true
  rw [Bool.or_eq_true]
  exact .inr (any_eq_true.mpr ⟨c.vt, mem_range.mpr hknown, hearly⟩)

/-- What a takeover flags is told. -/
theorem posts_of_takeOver (hwf : { s with maybePerformHandoffTo := none }.WF) {device : List Char}
    (hold : s.handles id = some old) (hnew : (s.takeOver device).handles id = some new)
    (hsub : old.IsSubscribed) (hgains : Gains old new) :
    (s.takeOver device).hasNewEvents = true ∧ Posts activeVt new := by
  cases old with
  | consumer c =>
    by_cases hearly : s.isEarlyVt c.vt = true
    · exact posts_of_early hwf hold hnew hsub hearly
    · have hmap : (s.handles id).map (onConsumer fun c =>
          if s.isEarlyVt c.vt then { c with needsHandoff := true, notified := false } else c) =
            some new := hnew
      rw [hold] at hmap
      cases hmap
      simp only [onConsumer, if_neg hearly] at hgains
      exact absurd hgains (not_gains_self _)
  | _ =>
    have hmap : (s.handles id).map (onConsumer _) = some new := hnew
    rw [hold] at hmap
    cases hmap
    exact absurd hgains (not_gains_self _)

/-- What a request queues is told. -/
theorem Effect.told (hwf : s.WF) (h : Effect decode s r mid) (hold : s.handles id = some old)
    (hnew : mid.handles id = some new) (hsub : old.IsSubscribed) (hgains : Gains old new) :
    mid.hasNewEvents = true ∧ Posts mid.activeVt new := by
  have calm : s.Quiet mid → mid.hasNewEvents = true ∧ Posts mid.activeVt new :=
    fun hquiet => absurd hgains (hquiet id old new hold hnew)
  cases h with
  | openFailed | newVt | futile | idle => exact calm (quiet_of_handles rfl)
  | opened path opening => exact calm (quiet_opened hwf opening)
  | stale _ _ _ handle | readEvents _ _ _ handle | subscribeConsumer _ _ _ handle
  | subscribeDisplay _ _ _ handle => exact calm (quiet_setHandle handle (by simp [Gains]))
  | readBytes id len c handle =>
    exact calm (quiet_setHandle handle (by simp [Gains]))
  | control id' buf =>
    have hsame := sameVts_afterSwitch s.noted (Endian.ofLe buf)
    obtain ⟨f, hf, hhandles⟩ := hsame.handles
    rw [hhandles id, show s.noted.handles id = some old from hold] at hnew
    cases hnew
    exact ⟨hsame.hasNewEvents, posts_of_pushing hf hsub hgains⟩
  | produce id' buf vt handle noise survives active =>
    have hsame := sameVts_afterEvents s.noted ((chunks buf).map decode)
    obtain ⟨f, hf, hhandles⟩ := hsame.handles
    have hmap : ((s.noted.afterEvents ((chunks buf).map decode)).handles id).map (onConsumer fun c =>
        if c.vt = vt then { c with pending := c.pending ++ buf, notified := false } else c) =
          some new := hnew
    rw [hhandles id, show s.noted.handles id = some old from hold] at hmap
    cases hmap
    refine ⟨hsame.hasNewEvents, ?_⟩
    show Posts (s.noted.afterEvents ((chunks buf).map decode)).activeVt _
    rw [activeVt_afterEvents, active]
    exact posts_of_delivered hf rfl hsub hgains

/-- A `handle` is taken over to in the turn that opens it. -/
theorem Effect.not_takesOver (h : Effect decode s r mid) (hmid : mid.maybePerformHandoffTo = none) :
    ¬ s.TakesOver r old := by
  intro htakes
  cases h with
  | openFailed path parse =>
    cases old with
    | consumer =>
      obtain ⟨⟨device, hopens⟩, -⟩ := htakes
      rw [parse] at hopens
      cases hopens
    | _ => exact htakes
  | opened path opening parse =>
    cases old with
    | consumer =>
      obtain ⟨⟨device, hopens⟩, -⟩ := htakes
      cases parse.symm.trans hopens
      cases hmid
    | _ => exact htakes
  | idle r notOpen =>
    cases r with
    | openPath path => exact notOpen path rfl
    | _ => exact htakes
  | _ => exact htakes

/-- What a turn queues, the takeover included, is told. -/
theorem Effect.told_handoff (hwf : s.WF) (h : Effect decode s r mid) (hold : s.handles id = some old)
    (hnew : mid.handoff.handles id = some new) (hsub : old.IsSubscribed)
    (hgains : Gains old new ∨ s.TakesOver r old) :
    mid.handoff.hasNewEvents = true ∧ Posts mid.handoff.activeVt new := by
  rcases h.handoff_cases hwf with ⟨hmid, heq⟩ | ⟨path, device, rfl, -, rfl, heq⟩
  · rw [heq] at hnew ⊢
    exact h.told hwf hold hnew hsub (hgains.resolve_right (h.not_takesOver hmid.handoff))
  · have hold' := handles_opened hwf (.handle device) hold
    rcases hgains with hgains | htakes
    · exact posts_of_takeOver (hwf.opened _) hold' hnew hsub hgains
    · cases old with
      | consumer => exact posts_of_early (hwf.opened _) hold' hnew hsub (isEarlyVt_opened hwf _ htakes.2)
      | _ => exact htakes.elim

end Told

/-! ### The notifications -/

section Notify

variable {decode : List U8 → EventOption} {s s' : InputScheme} {id : Nat} {new : Handle}
  {posted : List Nat}

theorem mem_posts (hwf : s.WF) :
    id ∈ s.posts ↔ ∃ h, s.handles id = some h ∧ Posts s.activeVt h := by
  rw [posts, mem_filter, mem_range]
  constructor
  · rintro ⟨-, hany⟩
    cases hid : s.handles id with
    | none => simp [hid] at hany
    | some h => exact ⟨h, rfl, by simpa [hid] using hany⟩
  · rintro ⟨h, hid, hposts⟩
    exact ⟨hwf.handles id (by simp [hid]), by simp [hid, hposts]⟩

/-- A turn that returns posts what it has to. -/
theorem notifies_of_iterate (hwf : s.WF) {r : Request} (h : iterate decode s r = some (s', posted)) :
    Notifies s r s' posted := by
  rcases iterate_cases decode hwf r with ⟨-, hnone⟩ | ⟨mid, heffect, heq⟩
  · rw [hnone] at h
    cases h
  rw [heq, toOption_eq_some] at h
  rcases notify_cases mid.handoff with ⟨hquiet, hn⟩ | ⟨-, -, hn⟩ | ⟨-, -, hn⟩
  · rw [hn] at h
    cases h
    refine ⟨fun id old new hold hnew hsub hgains => ?_, fun id hid => absurd hid not_mem_nil⟩
    -- `has_new_events` was set by whatever was queued.
    have htold := (heffect.told_handoff hwf hold hnew hsub hgains).1
    rw [hquiet] at htold
    cases htold
  · rw [hn] at h
    cases h
  · rw [hn] at h
    cases h
    have hmid := heffect.wf hwf
    refine ⟨fun id old new hold hnew hsub hgains => ?_, fun id hid => ?_⟩
    · obtain ⟨h, hh, rfl⟩ := map_eq_some_iff.mp hnew
      have hgains' : Gains old h ∨ s.TakesOver r old := by
        refine hgains.imp_left fun hgains => ?_
        split at hgains
        · cases old <;> cases h <;> exact hgains
        · exact hgains
      exact (mem_posts hmid).mpr ⟨h, hh, (heffect.told_handoff hwf hold hh hsub hgains').2⟩
    · obtain ⟨h, hh, hposts⟩ := (mem_posts hmid).mp hid
      refine ⟨_, map_eq_some_iff.mpr ⟨h, hh, rfl⟩, ?_⟩
      rw [if_pos hposts]
      cases h with
      | consumer => exact hposts.1.1
      | display => exact hposts.1
      | producer | control => exact hposts

end Notify

/-- **No wakeup is lost.** In every run a turn with an active VT returns. Each turn posts an event for
every subscriber that bytes or events are queued for or a handoff is flagged for, and for none that
has nothing to read. -/
theorem no_lost_wakeup (decode : List U8 → EventOption) (rs : List Request) :
    Along (InputScheme.step decode) InputScheme.new (Wakes decode) rs := by
  intro pre r post _ s hs
  have hwf : s.WF := wf_of_run hs
  exact ⟨fun hactive => iterate_ne_none hwf hactive r, fun _ _ h => notifies_of_iterate hwf h⟩

/-! ### After the first switch -/

/-- A turn with an active VT returns, and leaves one active. -/
theorem step_of_active {decode : List U8 → EventOption} {s : InputScheme} (hwf : s.WF)
    (hactive : s.activeVt ≠ none) (r : Request) :
    ∃ s', step decode s r = some s' ∧ s'.activeVt ≠ none := by
  obtain ⟨⟨s', posted⟩, hturn⟩ := ne_none_iff_exists'.mp (iterate_ne_none hwf hactive r)
  have hstep : step decode s r = some s' := by
    rw [step, hturn]
    rfl
  refine ⟨s', hstep, ?_⟩
  obtain ⟨mid, heffect, rfl | rfl⟩ := step_cases hwf hstep
  all_goals exact heffect.activeVt_ne_none hwf hactive

/-- **No panic after the first switch.** Once a VT is active, the daemon returns from whatever
requests follow, and a VT that exists is active after them. -/
theorem active_vt_lasts (decode : List U8 → EventOption) (pre rs : List Request) (s : InputScheme)
    (h : run (step decode) new pre = some s) (hactive : s.activeVt ≠ none) :
    ∃ s' vt, run (step decode) new (pre ++ rs) = some s' ∧ s'.activeVt = some vt ∧
      s'.known vt = true := by
  have hrun : ∃ s', run (step decode) new (pre ++ rs) = some s' ∧ s'.activeVt ≠ none := by
    induction rs using List.reverseRecOn with
    | nil => exact ⟨s, by rwa [append_nil], hactive⟩
    | append_singleton rs r ih =>
      obtain ⟨t, ht, hactive⟩ := ih
      obtain ⟨t', hstep, hactive'⟩ := step_of_active (wf_of_run ht) hactive r
      rw [← append_assoc]
      exact ⟨t', run_snoc_eq_some.mpr ⟨t, ht, hstep⟩, hactive'⟩
  obtain ⟨s', hs', hsome⟩ := hrun
  obtain ⟨vt, hvt⟩ := ne_none_iff_exists'.mp hsome
  exact ⟨s', vt, hs', hvt, (wf_of_run hs').active vt hvt⟩

/-- A display makes a VT, and a control handle switches to it. -/
def firstSwitch : List Request :=
  [.openPath "handle_early/fb".toList, .read 0 0, .openPath "control".toList,
    .write 1 [1, 0, 0, 0, 0, 0, 0, 0]]

/-- A producer resizes the displays, a driver takes over the VT and makes another one, and the VT
is switched once more, and then to one that does not exist. -/
def resizedAndTakenOver : List Request :=
  [.openPath "consumer/1".toList, .fevent 2 EVENT_READ, .openPath "producer".toList,
    .write 3 (List.replicate 24 0), .read 2 24, .openPath "handle/virtio".toList, .read 2 24,
    .read 4 0, .write 1 [2, 0, 0, 0, 0, 0, 0, 0], .write 1 [9, 0, 0, 0, 0, 0, 0, 0], .write 1 [],
    .write 3 (List.replicate 24 0)]

theorem active_vt_lasts_taken_over : ∃ s' vt,
    run (step fun _ => .resize 640 480) new (firstSwitch ++ resizedAndTakenOver) = some s' ∧
      s'.activeVt = some vt ∧ s'.known vt = true :=
  active_vt_lasts (fun _ => .resize 640 480) firstSwitch resizedAndTakenOver _ rfl (by decide)

end InputScheme

end RedoxDrivers.Inputd
