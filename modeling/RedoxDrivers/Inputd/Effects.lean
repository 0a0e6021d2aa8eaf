import RedoxDrivers.Inputd.Scheme

/-!
What one turn of the loop of `inputd` does.

`afterEvent` and `afterSwitch` are the loop bodies of `write` without their panics. `call_cases` takes
a request apart: it has one of the effects in `Effect`, with the conditions under which it has it, or it
is a write of a producer that panics (`Breaks`). Everything that holds along the runs of the daemon
is proved by cases on `Effect`.
-/

namespace RedoxDrivers.Inputd

open Lib Function Act Handle List Display

/-- The keys that have to do with switching, and the active VT. -/
structure Keys where
  superKey : Bool
  activeVt : Option Nat
deriving DecidableEq, Repr

/-- The active VT after an event, where `known` says which VTs there are. -/
def Keys.press (known : Nat → Bool) (k : Keys) (e : EventOption) : Keys where
  superKey := superAfter k.superKey e
  activeVt := ((newActive k.superKey e).filter known).or k.activeVt

def EventOption.isResize : EventOption → Bool
  | .resize _ _ => true
  | _ => false

namespace InputScheme

section

variable (s : InputScheme)

def keys : Keys := ⟨s.superKey, s.activeVt⟩

def known (vt : Nat) : Bool := (s.vts vt).isSome

/-! ### Events -/

/-- The active VT and its device. -/
def owner : Option (Nat × List Char) :=
  s.activeVt.bind fun vt => (s.vts vt).map fun device => (vt, device)

def afterSwitch (newVt : Nat) : InputScheme :=
  if s.activeVt = some newVt then s
  else (s.vts newVt).elim s fun device => s.switched s.owner (newVt, device)

def afterResize (width height : U32) : InputScheme :=
  s.owner.elim s fun owner =>
    s.mapHandles (onDisplay (Display.resize owner.1 owner.2 width height))

def withSuper (superKey : Bool) : InputScheme := { s with superKey }

def afterEvent : EventOption → InputScheme
  | .key scancode pressed =>
    let keyed := s.withSuper (superAfter s.superKey (.key scancode pressed))
    (newActive s.superKey (.key scancode pressed)).elim keyed keyed.afterSwitch
  | .resize width height => s.afterResize width height
  | .other => s

def afterEvents (es : List EventOption) : InputScheme := es.foldl afterEvent s

/-- No `Resize` comes, with a display there, before a VT is active. -/
def Survives (es : List EventOption) : Prop :=
  s.anyHandle isDisplay = true → ∀ pre e post, es = pre ++ e :: post → e.isResize = true →
    (pre.foldl (Keys.press s.known) s.keys).activeVt ≠ none

end

/-- The active VT exists, and all handles are below `nextId`. -/
structure WF (s : InputScheme) : Prop where
  handles : ∀ id, s.handles id ≠ none → id < s.nextId
  vts : ∀ vt, s.known vt = true ↔ 1 ≤ vt ∧ vt < s.nextVtId
  active : ∀ vt, s.activeVt = some vt → s.known vt = true
  handoff : s.maybePerformHandoffTo = none
  pos : 1 ≤ s.nextVtId

section Events

variable {s : InputScheme} {e : EventOption} {es : List EventOption} {P : Handle → Bool}

theorem anyHandle_iff (h : ∀ id, s.handles id ≠ none → id < s.nextId) :
    s.anyHandle P = true ↔ ∃ id handle, s.handles id = some handle ∧ P handle = true := by
  rw [anyHandle, any_eq_true]
  constructor
  · rintro ⟨id, -, hid⟩
    cases hhandle : s.handles id with
    | none => simp [hhandle] at hid
    | some handle => exact ⟨id, handle, hhandle, by simpa [hhandle] using hid⟩
  · rintro ⟨id, handle, hhandle, hp⟩
    refine ⟨id, mem_range.mpr (h id (by simp [hhandle])), ?_⟩
    rw [hhandle]
    exact hp

/-- A loop over the displays does nothing if there are none. -/
theorem mapHandles_of_no_display (hwf : ∀ id, s.handles id ≠ none → id < s.nextId)
    (hnone : s.anyHandle isDisplay ≠ true) (f : Display → Display) :
    s.mapHandles (onDisplay f) = s := by
  have hsame : (fun id => (s.handles id).map (onDisplay f)) = s.handles := by
    funext id
    cases hid : s.handles id with
    | none => rfl
    | some handle =>
      cases handle with
      | display => exact absurd ((anyHandle_iff hwf).mpr ⟨id, _, hid, rfl⟩) hnone
      | _ => rfl
  rw [mapHandles, hsame]

theorem leaving_eq_ok (hwf : s.WF) : s.leaving = .ok s.owner := by
  unfold leaving owner
  cases hactive : s.activeVt with
  | none => rfl
  | some vt =>
    obtain ⟨device, hdevice⟩ := Option.isSome_iff_exists.mp (hwf.active vt hactive)
    simp [hdevice]

theorem switchVt_apply (hwf : s.WF) (vt : Nat) : switchVt vt s = (.ok (), s.afterSwitch vt) := by
  rw [switchVt, read_bind, afterSwitch]
  by_cases hsame : s.activeVt = some vt
  · rw [if_pos hsame, if_pos hsame]
    rfl
  · rw [if_neg hsame, if_neg hsame]
    cases s.vts vt with
    | none => rfl
    | some =>
      rw [leaving_eq_ok hwf]
      rfl

theorem resize_apply (hwf : s.WF) (width height : U32) : resize width height s =
      if s.anyHandle isDisplay = true ∧ s.activeVt = none
        then (.error (.panic .unwrapNone), s) else (.ok (), s.afterResize width height) := by
  rw [resize, read_bind]
  cases hactive : s.activeVt with
  | none =>
    by_cases hdisplay : s.anyHandle isDisplay = true
    · rw [if_pos hdisplay, if_pos ⟨hdisplay, rfl⟩]
      rfl
    · rw [if_neg hdisplay, if_neg fun h => hdisplay h.1, afterResize, owner, hactive]
      rfl
  | some vt =>
    obtain ⟨device, hdevice⟩ := Option.isSome_iff_exists.mp (hwf.active vt hactive)
    have hcalm : ¬ (s.anyHandle isDisplay = true ∧ some vt = none) := by simp
    have hresize : s.afterResize width height =
        s.mapHandles (onDisplay (Display.resize vt device width height)) := by
      simp [afterResize, owner, hactive, hdevice]
    rw [if_neg hcalm, hresize]
    by_cases hdisplay : s.anyHandle isDisplay = true
    · rw [if_pos hdisplay]
      show (lift (checked (unwrap (s.vts vt))) >>= fun device => modify
        (mapHandles (onDisplay (Display.resize vt device width height)))) s = _
      rw [hdevice]
      rfl
    · rw [if_neg hdisplay, mapHandles_of_no_display hwf.handles hdisplay]
      rfl

/-- A display is left alone, or has events queued and is to be told. -/
def Pushing (f : Display → Display) : Prop :=
  ∀ d, f d = d ∨ ∃ new, new ≠ [] ∧ f d = { d with pending := d.pending ++ new, notified := false }

theorem pushing_id : Pushing fun d => d := fun _ => .inl rfl

theorem Pushing.device {f : Display → Display} (hf : Pushing f) (d : Display) :
    (f d).device = d.device := by
  rcases hf d with heq | ⟨_, _, heq⟩
  · rw [heq]
  · rw [heq]

theorem Pushing.comp {f g : Display → Display} (hf : Pushing f) (hg : Pushing g) :
    Pushing fun d => g (f d) := by
  intro d
  show g (f d) = d ∨ ∃ new, new ≠ [] ∧
    g (f d) = { d with pending := d.pending ++ new, notified := false }
  rcases hf d with heq | ⟨new, hne, heq⟩
  · rw [heq]
    exact hg d
  · refine .inr ?_
    rcases hg (f d) with heq' | ⟨new', -, heq'⟩
    · exact ⟨new, hne, by rw [heq', heq]⟩
    · exact ⟨new ++ new', by simp [hne], by rw [heq', heq, append_assoc]⟩

theorem pushing_leave (old : Option (Nat × List Char)) : Pushing (leave old) := by
  intro d
  cases old with
  | none => exact .inl rfl
  | some old =>
    by_cases hdevice : old.2 = d.device
    · exact .inr ⟨_, cons_ne_nil _ _, if_pos hdevice⟩
    · exact .inl (if_neg hdevice)

theorem pushing_enter (new : Nat × List Char) : Pushing (enter new) := by
  intro d
  by_cases hdevice : new.2 = d.device
  · exact .inr ⟨_, cons_ne_nil _ _, if_pos hdevice⟩
  · exact .inl (if_neg hdevice)

theorem pushing_switch (old : Option (Nat × List Char)) (new : Nat × List Char) :
    Pushing (switch old new) :=
  (pushing_leave old).comp (pushing_enter new)

theorem pushing_resize (vt : Nat) (device : List Char) (width height : U32) :
    Pushing (Display.resize vt device width height) := by
  intro d
  by_cases hdevice : device = d.device
  · exact .inr ⟨_, cons_ne_nil _ _, if_pos hdevice⟩
  · exact .inl (if_neg hdevice)

/-- Events and switches do not make or move VTs, and only the displays hear of them. -/
structure SameVts (s s' : InputScheme) : Prop where
  vts : s'.vts = s.vts
  nextVtId : s'.nextVtId = s.nextVtId
  nextId : s'.nextId = s.nextId
  handoff : s'.maybePerformHandoffTo = s.maybePerformHandoffTo
  hasNewEvents : s'.hasNewEvents = s.hasNewEvents
  handles : ∃ f, Pushing f ∧ ∀ id, s'.handles id = (s.handles id).map (onDisplay f)

theorem onDisplay_id (h : Option Handle) : h.map (onDisplay fun d => d) = h := by
  cases h with
  | none => rfl
  | some h => cases h <;> rfl

theorem SameVts.refl (s : InputScheme) : SameVts s s :=
  ⟨rfl, rfl, rfl, rfl, rfl, fun d => d, pushing_id, fun _ => (onDisplay_id _).symm⟩

variable {s' : InputScheme}

theorem SameVts.trans {s'' : InputScheme} (h : SameVts s s') (h' : SameVts s' s'') :
    SameVts s s'' := by
  obtain ⟨f, hpush, hf⟩ := h.handles
  obtain ⟨g, hpush', hg⟩ := h'.handles
  refine ⟨h'.vts.trans h.vts, h'.nextVtId.trans h.nextVtId, h'.nextId.trans h.nextId,
    h'.handoff.trans h.handoff, h'.hasNewEvents.trans h.hasNewEvents, fun d => g (f d),
    hpush.comp hpush', fun id => ?_⟩
  rw [hg, hf]
  cases s.handles id with
  | none => rfl
  | some h => cases h <;> rfl

theorem SameVts.known (h : SameVts s s') : s'.known = s.known := by
  funext vt
  show (s'.vts vt).isSome = (s.vts vt).isSome
  rw [h.vts]

section

variable (s)

theorem sameVts_afterSwitch (vt : Nat) : SameVts s (s.afterSwitch vt) := by
  unfold afterSwitch
  split
  · exact .refl s
  · cases s.vts vt with
    | none => exact .refl s
    | some => exact ⟨rfl, rfl, rfl, rfl, rfl, _, pushing_switch _ _, fun _ => rfl⟩

theorem sameVts_afterEvent (e : EventOption) : SameVts s (s.afterEvent e) := by
  cases e with
  | key scancode pressed =>
    have hkeys : ∀ b, SameVts s (s.withSuper b) :=
      fun b => ⟨rfl, rfl, rfl, rfl, rfl, fun d => d, pushing_id, fun _ => (onDisplay_id _).symm⟩
    rw [afterEvent]
    cases newActive s.superKey (.key scancode pressed) with
    | none => exact hkeys _
    | some vt => exact (hkeys _).trans (sameVts_afterSwitch _ vt)
  | resize =>
    rw [afterEvent, afterResize]
    cases s.owner with
    | none => exact .refl s
    | some => exact ⟨rfl, rfl, rfl, rfl, rfl, _, pushing_resize _ _ _ _, fun _ => rfl⟩
  | other => exact .refl s

theorem sameVts_afterEvents (es : List EventOption) :
    SameVts s (s.afterEvents es) := by
  induction es generalizing s with
  | nil => exact .refl s
  | cons e es ih => exact (sameVts_afterEvent s e).trans (ih (s.afterEvent e))

theorem keys_afterSwitch (vt : Nat) : (s.afterSwitch vt).keys =
    ⟨s.superKey, ((some vt).filter s.known).or s.activeVt⟩ := by
  unfold afterSwitch
  by_cases hsame : s.activeVt = some vt
  · rw [if_pos hsame, keys, hsame]
    by_cases hknown : s.known vt = true <;> simp [Option.filter, hknown]
  · rw [if_neg hsame]
    cases hvt : s.vts vt with
    | none => simp [keys, known, Option.filter, hvt]
    | some => simp [keys, known, Option.filter, hvt, switched, mapHandles]

/-- The active VT changes as the keys say. -/
theorem keys_afterEvent (e : EventOption) :
    (s.afterEvent e).keys = s.keys.press s.known e := by
  cases e with
  | key scancode pressed =>
    rw [afterEvent, Keys.press]
    cases hnew : newActive s.superKey (.key scancode pressed) with
    | none => simp [keys, hnew, withSuper]
    | some =>
      rw [Option.elim_some, keys_afterSwitch]
      simp only [keys, hnew]
      rfl
  | resize =>
    rw [afterEvent, afterResize]
    cases s.owner with
    | none | some => rfl
  | other => rfl

theorem keys_afterEvents (es : List EventOption) :
    (s.afterEvents es).keys = es.foldl (Keys.press s.known) s.keys := by
  induction es generalizing s with
  | nil => rfl
  | cons e es ih =>
    rw [afterEvents, foldl_cons, ← afterEvents, ih, keys_afterEvent,
      (sameVts_afterEvent s e).known, foldl_cons]

end

theorem anyHandle_of_sameVts (h : SameVts s s')
    (hP : ∀ f handle, P (onDisplay f handle) = P handle) : s'.anyHandle P = s.anyHandle P := by
  obtain ⟨f, -, hf⟩ := h.handles
  unfold anyHandle
  rw [h.nextId]
  refine congrArg (List.any (List.range s.nextId)) (funext fun id => ?_)
  rw [hf id]
  cases s.handles id with
  | none => rfl
  | some handle => exact hP f handle

/-- What an event does keeps the state well-formed. -/
theorem WF.of_sameVts (hwf : s.WF) (h : SameVts s s')
    (hactive : ∀ vt, s'.activeVt = some vt → s.known vt = true) : s'.WF := by
  obtain ⟨f, -, hf⟩ := h.handles
  refine ⟨fun id hid => ?_, fun vt => ?_, fun vt hvt => ?_, h.handoff.trans hwf.handoff,
    h.nextVtId ▸ hwf.pos⟩
  · rw [h.nextId]
    refine hwf.handles id fun hnone => hid ?_
    rw [hf, hnone]
    rfl
  · rw [h.known, h.nextVtId]
    exact hwf.vts vt
  · rw [h.known]
    exact hactive vt hvt

theorem WF.afterEvent (hwf : s.WF) (e : EventOption) : (s.afterEvent e).WF := by
  refine hwf.of_sameVts (sameVts_afterEvent s e) fun vt hvt => ?_
  have hkeys : (s.afterEvent e).keys.activeVt = some vt := hvt
  rw [keys_afterEvent] at hkeys
  rcases Option.or_eq_some_iff.mp hkeys with hnew | ⟨-, hold⟩
  · exact (Option.filter_eq_some_iff.mp hnew).2
  · exact hwf.active vt hold

theorem WF.afterEvents (hwf : s.WF) (es : List EventOption) : (s.afterEvents es).WF := by
  induction es generalizing s with
  | nil => exact hwf
  | cons e es ih => exact ih (hwf.afterEvent e)

theorem WF.afterSwitch (hwf : s.WF) (vt : Nat) : (s.afterSwitch vt).WF := by
  refine hwf.of_sameVts (sameVts_afterSwitch s vt) fun vt' hvt => ?_
  have hkeys : (s.afterSwitch vt).keys.activeVt = some vt' := hvt
  rw [keys_afterSwitch] at hkeys
  rcases Option.or_eq_some_iff.mp hkeys with hnew | ⟨-, hold⟩
  · exact (Option.filter_eq_some_iff.mp hnew).2
  · exact hwf.active vt' hold

theorem handleEvent_apply (hwf : s.WF) (e : EventOption) : handleEvent e s =
      if s.anyHandle isDisplay = true ∧ e.isResize = true ∧ s.activeVt = none
        then (.error (.panic .unwrapNone), s) else (.ok (), s.afterEvent e) := by
  cases e with
  | resize =>
    rw [handleEvent, resize_apply hwf]
    simp only [EventOption.isResize, true_and]
    rfl
  | key scancode pressed =>
    have hwf' : (s.withSuper (superAfter s.superKey (.key scancode pressed))).WF :=
      ⟨hwf.handles, hwf.vts, hwf.active, hwf.handoff, hwf.pos⟩
    rw [if_neg fun h => absurd h.2.1 (by simp [EventOption.isResize]), afterEvent]
    show switchIf (newActive s.superKey (.key scancode pressed)) (s.withSuper _) = _
    cases newActive s.superKey (.key scancode pressed) with
    | none => rfl
    | some vt => exact switchVt_apply hwf' vt
  | other =>
    rw [if_neg fun h => absurd h.2.1 (by simp [EventOption.isResize])]
    rfl

theorem survives_cons : s.Survives (e :: es) ↔
    ¬ (s.anyHandle isDisplay = true ∧ e.isResize = true ∧ s.activeVt = none) ∧
      (s.anyHandle isDisplay = true → ∀ pre e' post, es = pre ++ e' :: post →
        e'.isResize = true →
        (pre.foldl (Keys.press s.known) (s.keys.press s.known e)).activeVt ≠ none) := by
  constructor
  · intro h
    refine ⟨fun ⟨hd, hr, hn⟩ => h hd [] e es rfl hr hn, fun hd pre e' post heq hr => ?_⟩
    exact h hd (e :: pre) e' post (by rw [heq]; rfl) hr
  · rintro ⟨hfirst, hrest⟩ hd pre e' post heq hr
    cases pre with
    | nil =>
      cases heq
      exact fun hn => hfirst ⟨hd, hr, hn⟩
    | cons x pre =>
      cases heq
      exact hrest hd pre e' post rfl hr

/-- The loop over the events of a write. -/
theorem handleEvents_apply (hwf : s.WF) (es : List EventOption) :
    (s.Survives es ∧ handleEvents es s = (.ok (), s.afterEvents es)) ∨
      (¬ s.Survives es ∧ Panics (handleEvents es s).1) := by
  induction es generalizing s with
  | nil => exact .inl ⟨fun _ pre e post heq => by simp at heq, rfl⟩
  | cons e es ih =>
    have hiff : (s.afterEvent e).Survives es ↔
        (s.anyHandle isDisplay = true → ∀ pre e' post, es = pre ++ e' :: post →
          e'.isResize = true →
          (pre.foldl (Keys.press s.known) (s.keys.press s.known e)).activeVt ≠ none) := by
      rw [Survives, anyHandle_of_sameVts (sameVts_afterEvent s e) fun _ h => by cases h <;> rfl,
        (sameVts_afterEvent s e).known, keys_afterEvent]
    rw [survives_cons, ← hiff, handleEvents, bind_apply, handleEvent_apply hwf]
    by_cases hbad : s.anyHandle isDisplay = true ∧ e.isResize = true ∧ s.activeVt = none
    · rw [if_pos hbad]
      exact .inr ⟨fun h => h.1 hbad, .unwrapNone, rfl⟩
    · rw [if_neg hbad]
      rcases ih (hwf.afterEvent e) with ⟨hsurvives, heq⟩ | ⟨hnot, hpanics⟩
      · exact .inl ⟨⟨hbad, hsurvives⟩, heq⟩
      · exact .inr ⟨fun h => hnot h.2, hpanics⟩

end Events

/-! ### Requests -/

/-- The state that a request starts from. -/
def base (s : InputScheme) : InputScheme := { s with hasNewEvents := false }

def noted (s : InputScheme) : InputScheme := { s with hasNewEvents := true }

def opened (s : InputScheme) (opening : Opening) : InputScheme :=
  { setHandle s.nextId (newHandle s.activeVt opening) s.base with
    nextId := s.nextId + 1
    maybePerformHandoffTo := handoffFor s.maybePerformHandoffTo opening }

/-! ### Handles before and after -/

section Views

variable {s t : InputScheme} {γ : Type} {v : Handle → γ} {id id' : Nat} {old new : Handle}

theorem handles_setHandle_eq_some : (s.base.setHandle id new).handles id' = some old ↔
    id' = id ∧ old = new ∨ id' ≠ id ∧ s.handles id' = some old := by
  show update s.handles id (some new) id' = some old ↔ _
  by_cases hsame : id' = id
  · subst hsame
    simp [eq_comm]
  · simp [hsame]

theorem handles_opened_eq_some {opening : Opening} : (s.opened opening).handles id = some old ↔
    id = s.nextId ∧ old = newHandle s.activeVt opening ∨ id ≠ s.nextId ∧ s.handles id = some old :=
  handles_setHandle_eq_some

/-- A view of the handles that a loop does not change. -/
theorem map_handles_mapHandles {f : Handle → Handle} (h : ∀ handle, v (f handle) = v handle) (id : Nat) :
    ((s.mapHandles f).handles id).map v = (s.handles id).map v := by
  show ((s.handles id).map f).map v = _
  cases s.handles id with
  | none => rfl
  | some handle => exact congrArg some (h handle)

theorem map_handles_setHandle (hid : s.handles id = some old) (h : v new = v old) (id' : Nat) :
    ((s.base.setHandle id new).handles id').map v = (s.handles id').map v := by
  show (update s.handles id (some new) id').map v = _
  by_cases hsame : id' = id
  · subst hsame
    rw [update_self, hid]
    exact congrArg some h
  · rw [update_of_ne hsame]

/-- The marks are not seen by a view that does not look at them. -/
theorem map_handles_marked (h : ∀ handle, v (setNotified handle) = v handle) (id : Nat) :
    (s.marked.handles id).map v = (s.handles id).map v := by
  refine map_handles_mapHandles (fun handle => ?_) id
  split
  · exact h handle
  · rfl

theorem map_handles_sameVts (h : SameVts s t) (hv : ∀ f handle, v (onDisplay f handle) = v handle)
    (id : Nat) : (t.handles id).map v = (s.handles id).map v := by
  obtain ⟨f, -, hf⟩ := h.handles
  rw [hf]
  cases s.handles id with
  | none => rfl
  | some handle => exact congrArg some (hv f handle)

end Views

section Requests

variable (decode : List U8 → EventOption)

/-- The active VT after a producer's write. -/
def activeAfter (s : InputScheme) (buf : List U8) : Option Nat :=
  (((chunks buf).map decode).foldl (Keys.press s.known) s.keys).activeVt

/-- What a request does to the state. -/
inductive Effect (s : InputScheme) : Request → InputScheme → Prop
  | openFailed (path : List Char) (parse : parseOpen path = none) :
      Effect s (.openPath path) { s.base with nextId := s.nextId + 1 }
  | opened (path : List Char) (opening : Opening) (parse : parseOpen path = some opening) :
      Effect s (.openPath path) (s.opened opening)
  | stale (id len : Nat) (c : Consumer) (handle : s.handles id = some (.consumer c))
      (stale : c.needsHandoff = true) :
      Effect s (.read id len) (s.base.setHandle id (.consumer { c with needsHandoff := false }))
  | readBytes (id len : Nat) (c : Consumer) (handle : s.handles id = some (.consumer c))
      (stale : c.needsHandoff = false) :
      Effect s (.read id len) (s.base.setHandle id (.consumer
        { c with pending := c.pending.drop len, taken := c.taken ++ c.pending.take len }))
  | newVt (id : Nat) (d : Display) (handle : s.handles id = some (.display d)) :
      Effect s (.read id 0) (createVt d.device s.base)
  | readEvents (id len : Nat) (d : Display) (handle : s.handles id = some (.display d))
      (ne : len ≠ 0) :
      Effect s (.read id len) (s.base.setHandle id (.display
        { d with
          pending := d.pending.drop (len / VT_EVENT_SIZE)
          taken := d.taken ++ d.pending.take (len / VT_EVENT_SIZE) }))
  | subscribeConsumer (id : Nat) (flags : U64) (c : Consumer)
      (handle : s.handles id = some (.consumer c)) :
      Effect s (.fevent id flags)
        (s.base.setHandle id (.consumer { c with events := flags, notified := false }))
  | subscribeDisplay (id : Nat) (flags : U64) (d : Display)
      (handle : s.handles id = some (.display d)) :
      Effect s (.fevent id flags)
        (s.base.setHandle id (.display { d with events := flags, notified := false }))
  | control (id : Nat) (buf : List U8) (handle : s.handles id = some .control)
      (length : buf.length = VT_ACTIVATE_SIZE) :
      Effect s (.write id buf) (s.noted.afterSwitch (Endian.ofLe buf))
  | produce (id : Nat) (buf : List U8) (vt : Nat) (handle : s.handles id = some .producer)
      (noise : ¬ IsNoise buf) (survives : s.Survives ((chunks buf).map decode))
      (active : s.activeAfter decode buf = some vt) :
      Effect s (.write id buf) ((s.noted.afterEvents ((chunks buf).map decode)).delivered vt buf)
  | futile (id : Nat) (buf : List U8)
      (control : s.handles id = some .control → buf.length ≠ VT_ACTIVATE_SIZE)
      (producer : s.handles id = some .producer → IsNoise buf) : Effect s (.write id buf) s.noted
  | idle (r : Request) (notOpen : ∀ path, r ≠ .openPath path)
      (notWrite : ∀ id buf, r ≠ .write id buf)
      (notNew : ∀ id d, r = .read id 0 → s.handles id ≠ some (.display d)) : Effect s r s.base

/-- A write of a producer that panics: a `Resize` comes before a VT is active, or no VT is
active when its events have been looked at. -/
def Breaks (s : InputScheme) : Request → Prop
  | .write id buf => s.handles id = some .producer ∧ ¬ IsNoise buf ∧
      (¬ s.Survives ((chunks buf).map decode) ∨ s.activeAfter decode buf = none)
  | _ => False

end Requests

section Calls

variable {decode : List U8 → EventOption} {s : InputScheme}

/-- The call returns with an effect, or breaks. -/
def Ends (decode : List U8 → EventOption) (s : InputScheme) (r : Request)
    (result : Except Stop Reply × InputScheme) : Prop :=
  (¬ Panics result.1 ∧ Effect decode s r result.2) ∨ (Panics result.1 ∧ s.Breaks decode r)

theorem ends_openPath (path : List Char) :
    Ends decode s (.openPath path) (openPath path s.base) := by
  refine .inl ?_
  rw [openPath, read_bind, modify_bind]
  cases hparse : parseOpen path with
  | none => exact ⟨not_panics_errno _, .openFailed path hparse⟩
  | some opening => exact ⟨not_panics_ok _, .opened path opening hparse⟩

theorem handleOf_elim {β : Type} {motive : Except Stop β × InputScheme → Prop} {id : Nat}
    {f : Handle → Act InputScheme β} (some : ∀ handle, s.handles id = some handle → motive (f handle s))
    (none : s.handles id = none → motive (.error (.errno .einval), s)) :
    motive ((handleOf id >>= f) s) := by
  show motive ((lift (okOr (s.handles id) .einval) >>= f) s)
  cases hid : s.handles id with
  | none => exact none hid
  | some handle => exact some handle hid

theorem ends_fpath (id len : Nat) : Ends decode s (.fpath id len) (fpath id len s.base) := by
  have quiet : Effect decode s (.fpath id len) s.base := .idle _ (by simp) (by simp) (by simp)
  refine handleOf_elim (fun handle _ => ?_) fun _ => .inl ⟨not_panics_errno _, quiet⟩
  cases handle with
  | consumer c =>
    show Ends _ _ _ ((lift (okOr (s.vts c.vt) .einval) >>= _ : Act InputScheme Reply) s.base)
    cases s.vts c.vt with
    | none => exact .inl ⟨not_panics_errno _, quiet⟩
    | some => exact .inl ⟨not_panics_ok _, quiet⟩
  | _ => exact .inl ⟨not_panics_errno _, quiet⟩

theorem ends_read (id len : Nat) : Ends decode s (.read id len) (read id len s.base) := by
  have quiet : (∀ d, s.handles id = some (.display d) → len ≠ 0) →
      Effect decode s (.read id len) s.base := by
    intro hlen
    refine .idle _ (by simp) (by simp) fun id' d heq hd => ?_
    cases heq
    exact hlen d hd rfl
  refine handleOf_elim (fun handle hid => ?_)
    fun hid => .inl ⟨not_panics_errno _, quiet (by simp [show s.handles id = none from hid])⟩
  have hid : s.handles id = some handle := hid
  cases handle with
  | consumer c =>
    show Ends _ _ _ (readConsumer id len c s.base)
    unfold readConsumer
    by_cases hstale : c.needsHandoff = true
    · rw [if_pos hstale]
      exact .inl ⟨not_panics_errno _, .stale id len c hid hstale⟩
    · rw [if_neg hstale]
      exact .inl ⟨not_panics_ok _, .readBytes id len c hid (by simpa using hstale)⟩
  | display d =>
    show Ends _ _ _ (readDisplay id len d s.base)
    unfold readDisplay
    by_cases hlen : len = 0
    · subst hlen
      exact .inl ⟨not_panics_ok _, .newVt id d hid⟩
    · rw [if_neg hlen]
      split
      · exact .inl ⟨not_panics_ok _, .readEvents id len d hid hlen⟩
      · exact .inl ⟨not_panics_errno _, quiet fun _ _ => hlen⟩
  | producer | control => exact .inl ⟨not_panics_errno _, quiet (by simp [hid])⟩

theorem ends_fevent (id : Nat) (flags : U64) :
    Ends decode s (.fevent id flags) (fevent id flags s.base) := by
  have quiet : Effect decode s (.fevent id flags) s.base := .idle _ (by simp) (by simp) (by simp)
  refine handleOf_elim (fun handle hid => ?_) fun _ => .inl ⟨not_panics_errno _, quiet⟩
  cases handle with
  | consumer c => exact .inl ⟨not_panics_ok _, .subscribeConsumer id flags c hid⟩
  | display d => exact .inl ⟨not_panics_ok _, .subscribeDisplay id flags d hid⟩
  | _ => exact .inl ⟨not_panics_errno _, quiet⟩

theorem WF.noted (hwf : s.WF) : s.noted.WF := ⟨hwf.handles, hwf.vts, hwf.active, hwf.handoff, hwf.pos⟩

theorem activeVt_afterEvents (s : InputScheme) (buf : List U8) :
    (s.noted.afterEvents ((chunks buf).map decode)).activeVt = s.activeAfter decode buf :=
  congrArg Keys.activeVt (keys_afterEvents s.noted _)

theorem ends_writeProducer (hwf : s.WF) (id : Nat) (buf : List U8)
    (hid : s.handles id = some .producer) :
    Ends decode s (.write id buf) (writeProducer decode id buf s.noted) := by
  unfold writeProducer
  by_cases hnoise : IsNoise buf
  · rw [if_pos hnoise]
    exact .inl ⟨not_panics_ok _, .futile id buf (by simp [hid]) fun _ => hnoise⟩
  rw [if_neg hnoise, bind_apply]
  rcases handleEvents_apply hwf.noted ((chunks buf).map decode) with
    ⟨hsurvives, heq⟩ | ⟨hnot, hpanics⟩
  · rw [heq]
    obtain ⟨f, -, hf⟩ := (sameVts_afterEvents s.noted ((chunks buf).map decode)).handles
    have hproducer : (s.noted.afterEvents ((chunks buf).map decode)).handles id = some .producer := by
      rw [hf id]
      show (s.handles id).map _ = _
      rw [hid]
      rfl
    refine handleOf_elim (fun handle hhandle => ?_) fun hnone => by simp [hproducer] at hnone
    obtain rfl : producer = handle := by simpa [hproducer] using hhandle
    show Ends _ _ _ ((lift (checked (unwrap
      (s.noted.afterEvents ((chunks buf).map decode)).activeVt)) >>= _ : Act InputScheme Reply) _)
    rw [activeVt_afterEvents]
    cases hactive : s.activeAfter decode buf with
    | none => exact .inr ⟨⟨.unwrapNone, rfl⟩, hid, hnoise, .inr hactive⟩
    | some vt =>
      exact .inl ⟨not_panics_ok _, .produce id buf vt hid hnoise hsurvives hactive⟩
  · refine .inr ⟨?_, hid, hnoise, .inl hnot⟩
    obtain ⟨fault, hfault⟩ := hpanics
    revert hfault
    rcases handleEvents ((chunks buf).map decode) s.noted with ⟨result, mid⟩
    rintro rfl
    exact ⟨fault, rfl⟩

theorem ends_write (hwf : s.WF) (id : Nat) (buf : List U8) :
    Ends decode s (.write id buf) (write decode id buf s.base) := by
  refine handleOf_elim (fun handle hid => ?_) fun hid => ?_
  · have hid : s.handles id = some handle := hid
    cases handle with
    | consumer | display =>
      exact .inl ⟨not_panics_errno _, .futile id buf (by simp [hid]) (by simp [hid])⟩
    | producer => exact ends_writeProducer hwf id buf hid
    | control =>
      show Ends _ _ _ (writeControl buf s.noted)
      unfold writeControl
      by_cases hlen : buf.length = VT_ACTIVATE_SIZE
      · rw [if_neg (not_not.mpr hlen), bind_ok (switchVt_apply hwf.noted _)]
        exact .inl ⟨not_panics_ok _, .control id buf hid hlen⟩
      · rw [if_pos hlen]
        exact .inl ⟨not_panics_errno _, .futile id buf (fun _ => hlen) (by simp [hid])⟩
  · have hid : s.handles id = none := hid
    exact .inl ⟨not_panics_errno _, .futile id buf (by simp [hid]) (by simp [hid])⟩

/-- **What a request does.** -/
theorem call_cases (decode : List U8 → EventOption) (hwf : s.WF) (r : Request) :
    Ends decode s r (call decode r s.base) := by
  cases r with
  | openPath path => exact ends_openPath path
  | fpath id len => exact ends_fpath id len
  | read id len => exact ends_read id len
  | write id buf => exact ends_write hwf id buf
  | fevent id flags => exact ends_fevent id flags
  | close | sendFd | cancellation =>
    exact .inl ⟨not_panics_ok _, .idle _ (by simp) (by simp) (by simp)⟩

end Calls

/-! ### A turn of the loop -/

section Turns

variable {decode : List U8 → EventOption} {s mid s' : InputScheme} {r : Request} {posted : List Nat}

@[simp] theorem handoff_of_none (h : s.maybePerformHandoffTo = none) : s.handoff = s := by
  rw [handoff, h]

theorem Effect.not_breaks (h : Effect decode s r mid) : ¬ s.Breaks decode r := by
  cases h with
  | control id buf handle => exact fun hbreaks => by simp [Breaks, handle] at hbreaks
  | produce id buf vt handle noise survives active =>
    rintro ⟨-, -, hnot | hnone⟩
    · exact hnot survives
    · simp [active] at hnone
  | futile id buf control producer => exact fun ⟨handle, noise, _⟩ => noise (producer handle)
  | idle r notOpen notWrite =>
    cases r with
    | write id buf => exact absurd rfl (notWrite id buf)
    | _ => exact fun h => h
  | _ => exact fun h => h

/-- **A turn of the loop** panics in the write of a producer, or has an effect, followed by the
takeover and the notifications. -/
theorem iterate_cases (decode : List U8 → EventOption) (hwf : s.WF) (r : Request) :
    (s.Breaks decode r ∧ iterate decode s r = none) ∨
      ∃ mid, Effect decode s r mid ∧ iterate decode s r = (notify mid.handoff).toOption := by
  have hends := call_cases decode hwf r
  show _ ∧ finish (call decode r s.base) = none ∨
    ∃ mid, Effect decode s r mid ∧ finish (call decode r s.base) = _
  revert hends
  rcases call decode r s.base with ⟨result, mid⟩
  rintro (⟨hok, heffect⟩ | ⟨⟨fault, hfault⟩, hbreaks⟩)
  · refine .inr ⟨mid, heffect, ?_⟩
    unfold finish
    split
    · rename_i heq
      cases heq
      exact absurd ⟨_, rfl⟩ hok
    · rename_i heq
      cases heq
      rfl
  · refine .inl ⟨hbreaks, ?_⟩
    obtain rfl : result = .error (.panic fault) := hfault
    rfl

/-- There are no notifications, they panic, or they are made. -/
theorem notify_cases (s : InputScheme) : (s.hasNewEvents = false ∧ notify s = .ok (s, [])) ∨
      (s.hasNewEvents = true ∧ (s.activeVt = none ∧ s.anyHandle isWaiting = true) ∧
        notify s = .error .unwrapNone) ∨
      (s.hasNewEvents = true ∧ ¬ (s.activeVt = none ∧ s.anyHandle isWaiting = true) ∧
        notify s = .ok (s.marked, s.posts)) := by
  unfold notify
  cases hnew : s.hasNewEvents with
  | false => exact .inl ⟨rfl, if_pos rfl⟩
  | true =>
    by_cases hblind : s.activeVt = none ∧ s.anyHandle isWaiting = true
    · exact .inr (.inl ⟨rfl, hblind, by rw [if_neg (by simp), if_pos hblind]⟩)
    · exact .inr (.inr ⟨rfl, hblind, by rw [if_neg (by simp), if_neg hblind]⟩)

/-- The state after a turn is the one after the takeover, up to the marks. -/
theorem step_cases (hwf : s.WF) (h : step decode s r = some s') :
    ∃ mid, Effect decode s r mid ∧ (s' = mid.handoff ∨ s' = mid.handoff.marked) := by
  obtain ⟨⟨s'', posted⟩, hiterate, rfl⟩ := Option.map_eq_some_iff.mp h
  rcases iterate_cases decode hwf r with ⟨-, hnone⟩ | ⟨mid, heffect, heq⟩
  · rw [hnone] at hiterate
    cases hiterate
  · refine ⟨mid, heffect, ?_⟩
    rw [heq, toOption_eq_some] at hiterate
    rcases notify_cases mid.handoff with ⟨-, hn⟩ | ⟨-, -, hn⟩ | ⟨-, -, hn⟩
    · rw [hn] at hiterate
      cases hiterate
      exact .inl rfl
    · rw [hn] at hiterate
      cases hiterate
    · rw [hn] at hiterate
      cases hiterate
      exact .inr rfl

/-! ### Well-formed states -/

theorem isEarlyVt_known {vt : Nat} (h : s.isEarlyVt vt = true) : s.known vt = true := by
  unfold isEarlyVt at h
  unfold known
  cases hvt : s.vts vt with
  | none => simp [hvt] at h
  | some => rfl

theorem known_takeOver (s : InputScheme) (device : List Char) : (s.takeOver device).known = s.known := by
  funext vt
  show (if s.isEarlyVt vt then some device else s.vts vt).isSome = s.known vt
  by_cases hearly : s.isEarlyVt vt = true
  · rw [if_pos hearly, isEarlyVt_known hearly]
    rfl
  · rw [if_neg hearly]
    rfl

theorem handles_mapHandles_ne_none {f : Handle → Handle} {id : Nat}
    (h : (s.mapHandles f).handles id ≠ none) : s.handles id ≠ none := by
  intro hnone
  refine h ?_
  show (s.handles id).map f = none
  rw [hnone]
  rfl

theorem WF.takeOver {device : List Char} (hwf : { s with maybePerformHandoffTo := none }.WF) :
    (s.takeOver device).WF where
  handles id hid := hwf.handles id (handles_mapHandles_ne_none hid)
  vts vt := by
    rw [known_takeOver]
    exact hwf.vts vt
  active vt hvt := by
    rw [known_takeOver]
    exact hwf.active vt hvt
  handoff := rfl
  pos := hwf.pos

section

variable (hwf : s.WF)

include hwf

theorem WF.marked : s.marked.WF :=
  ⟨fun id hid => hwf.handles id (handles_mapHandles_ne_none hid), hwf.vts, hwf.active, hwf.handoff, hwf.pos⟩

theorem WF.delivered (vt : Nat) (buf : List U8) : (s.delivered vt buf).WF :=
  ⟨fun id hid => hwf.handles id (handles_mapHandles_ne_none hid), hwf.vts, hwf.active, hwf.handoff, hwf.pos⟩

/-- A new handle has a new id. -/
theorem handles_opened (opening : Opening) {id : Nat} {old : Handle}
    (hold : s.handles id = some old) : (s.opened opening).handles id = some old := by
  have hne : id ≠ s.nextId := Nat.ne_of_lt (hwf.handles id (by simp [hold]))
  exact handles_opened_eq_some.mpr (.inr ⟨hne, hold⟩)

theorem WF.opened (opening : Opening) :
    { s.opened opening with maybePerformHandoffTo := none }.WF := by
  refine ⟨fun id hid => ?_, hwf.vts, hwf.active, rfl, hwf.pos⟩
  show id < s.nextId + 1
  obtain ⟨handle, hhandle⟩ := Option.ne_none_iff_exists'.mp hid
  rcases handles_opened_eq_some.mp hhandle with ⟨hnew, -⟩ | ⟨-, hold⟩
  · omega
  · exact Nat.lt_succ_of_lt (hwf.handles id (by simp [hold]))

theorem WF.createVt (device : List Char) : (createVt device s.base).WF := by
  have hknown : ∀ vt, (InputScheme.createVt device s.base).known vt = true ↔
      vt = s.nextVtId ∨ s.known vt = true := by
    intro vt
    show (update s.vts s.nextVtId (some device) vt).isSome = true ↔ _
    by_cases hnew : vt = s.nextVtId
    · subst hnew
      simp
    · simp [hnew, known]
  have hpos := hwf.pos
  refine ⟨hwf.handles, fun vt => ?_, fun vt hvt => (hknown vt).mpr (.inr (hwf.active vt hvt)),
    hwf.handoff, Nat.le_succ_of_le hpos⟩
  rw [hknown, hwf.vts]
  show _ ↔ 1 ≤ vt ∧ vt < s.nextVtId + 1
  omega

theorem WF.base : s.base.WF := ⟨hwf.handles, hwf.vts, hwf.active, hwf.handoff, hwf.pos⟩

/-- Only an `open` of `handle` leaves a takeover to be made. -/
theorem Effect.handoff_cases (h : Effect decode s r mid) :
    (mid.WF ∧ mid.handoff = mid) ∨ ∃ path device, r = .openPath path ∧
      parseOpen path = some (.handle device) ∧ mid = s.opened (.handle device) ∧
      mid.handoff = mid.takeOver device := by
  have direct : ∀ {t : InputScheme}, t.WF → t.WF ∧ t.handoff = t :=
    fun h => ⟨h, handoff_of_none h.handoff⟩
  cases h with
  | openFailed =>
    exact .inl (direct ⟨fun id hid => Nat.lt_succ_of_lt (hwf.handles id hid), hwf.vts, hwf.active,
      hwf.handoff, hwf.pos⟩)
  | opened path opening parse =>
    have hopened := hwf.opened opening
    cases opening with
    | handle device => exact .inr ⟨path, device, rfl, parse, rfl, rfl⟩
    | _ => exact .inl (direct ⟨hopened.handles, hopened.vts, hopened.active, hwf.handoff, hopened.pos⟩)
  | stale _ _ _ handle | readBytes _ _ _ handle | readEvents _ _ _ handle
  | subscribeConsumer _ _ _ handle | subscribeDisplay _ _ _ handle =>
    refine .inl (direct ⟨fun id hid => ?_, hwf.vts, hwf.active, hwf.handoff, hwf.pos⟩)
    obtain ⟨_, hnew⟩ := Option.ne_none_iff_exists'.mp hid
    rcases handles_setHandle_eq_some.mp hnew with ⟨rfl, -⟩ | ⟨-, hold⟩
    · exact hwf.handles id (by simp [handle])
    · exact hwf.handles id (by simp [hold])
  | newVt id d => exact .inl (direct (hwf.createVt d.device))
  | control => exact .inl (direct (hwf.noted.afterSwitch _))
  | produce id buf vt =>
    exact .inl (direct ((hwf.noted.afterEvents _).delivered vt buf))
  | futile => exact .inl (direct hwf.noted)
  | idle => exact .inl (direct hwf.base)

theorem Effect.wf (h : Effect decode s r mid) : mid.handoff.WF := by
  rcases h.handoff_cases hwf with ⟨hmid, heq⟩ | ⟨path, device, -, -, rfl, heq⟩
  · rwa [heq]
  · exact (hwf.opened _).takeOver

theorem WF.step (h : step decode s r = some s') : s'.WF := by
  obtain ⟨mid, heffect, rfl | rfl⟩ := step_cases hwf h
  · exact heffect.wf hwf
  · exact (heffect.wf hwf).marked

end

theorem wf_new : new.WF where
  handles _ h := absurd rfl h
  vts vt := by
    show (none : Option (List Char)).isSome = true ↔ 1 ≤ vt ∧ vt < 1
    simp
    omega
  active _ h := nomatch h
  handoff := rfl
  pos := Nat.le_refl 1

theorem wf_of_run {es : List Request} (h : run (step decode) new es = some s) :
    s.WF :=
  invariant_of_run wf_new (fun _ _ _ hwf hstep => hwf.step hstep) h

/-! ### The counters -/

/-- The counters are `AtomicUsize`s and wrap around. -/
def wrapped (s : InputScheme) : InputScheme :=
  { s with nextId := s.nextId % 2 ^ 64, nextVtId := s.nextVtId % 2 ^ 64 }

theorem Effect.counters {mid : InputScheme} (h : Effect decode s r mid) :
    mid.nextId ≤ s.nextId + 1 ∧ mid.nextVtId ≤ s.nextVtId + 1 := by
  have same : ∀ t, SameVts s.noted t →
      t.nextId ≤ s.nextId + 1 ∧ t.nextVtId ≤ s.nextVtId + 1 :=
    fun _ hsame => ⟨hsame.nextId.trans_le (Nat.le_succ _), hsame.nextVtId.trans_le (Nat.le_succ _)⟩
  cases h with
  | control id buf => exact same _ (sameVts_afterSwitch s.noted (Endian.ofLe buf))
  | produce id buf =>
    exact same (s.noted.afterEvents _) (sameVts_afterEvents s.noted ((chunks buf).map decode))
  | openFailed | opened => exact ⟨Nat.le_refl _, Nat.le_succ _⟩
  | newVt => exact ⟨Nat.le_succ _, Nat.le_refl _⟩
  | _ => exact ⟨Nat.le_succ _, Nat.le_succ _⟩

/-- A turn counts each of them up once at most. -/
theorem step_counters (hwf : s.WF) (h : step decode s r = some s') :
    s'.nextId ≤ s.nextId + 1 ∧ s'.nextVtId ≤ s.nextVtId + 1 := by
  obtain ⟨mid, heffect, hcases⟩ := step_cases hwf h
  have hmid := heffect.counters
  have hsame : mid.handoff.nextId = mid.nextId ∧ mid.handoff.nextVtId = mid.nextVtId := by
    unfold handoff
    split <;> exact ⟨rfl, rfl⟩
  rw [← hsame.1, ← hsame.2] at hmid
  rcases hcases with rfl | rfl
  all_goals exact hmid

theorem counters_of_run {rs : List Request} (h : run (step decode) new rs = some s) :
    s.nextId ≤ rs.length ∧ s.nextVtId ≤ rs.length + 1 := by
  refine run_induction (motive := fun rs s => s.nextId ≤ rs.length ∧ s.nextVtId ≤ rs.length + 1)
    ⟨Nat.le_refl 0, Nat.le_refl 1⟩ (fun rs s r s' hs hle hstep => ?_) h
  have hcount := step_counters (wf_of_run hs) hstep
  rw [length_append, length_singleton]
  omega

/-- Fewer than `2 ^ 64 - 1` requests do not bring a counter to its end. -/
theorem run_wrapped {rs : List Request} (few : rs.length + 1 < 2 ^ 64) :
    run (fun s r => (step decode s r).map wrapped) new rs = run (step decode) new rs := by
  induction rs using List.reverseRecOn with
  | nil => rfl
  | append_singleton rs r ih =>
    rw [length_append, length_singleton] at few
    rw [run_append, run_append, ih (by omega)]
    refine Option.bind_congr fun s hs => ?_
    have hlast : ∀ s', step decode s r = some s' → wrapped s' = s' := by
      intro s' hstep
      have hcount := counters_of_run (run_snoc_eq_some.mpr ⟨s, hs, hstep⟩)
      rw [length_append, length_singleton] at hcount
      rw [wrapped, Nat.mod_eq_of_lt (by omega), Nat.mod_eq_of_lt (by omega)]
    simp only [run_cons]
    cases hstep : step decode s r with
    | none => rfl
    | some s' =>
      rw [Option.map_some, hlast s' hstep]
      rfl

end Turns

end InputScheme

end RedoxDrivers.Inputd
