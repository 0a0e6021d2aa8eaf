import RedoxDrivers.Inputd.Effects

/-!
What the graphics drivers are told about the active VT.

A driver reads its display handle and takes a VT to be shown from its `Activate` to its `Deactivate`.
`Streams` says that this works: no `Activate` comes while a VT is shown, a `Deactivate` is for the VT
that is, and at any time the VT that the driver takes to be shown is the active one, if it is on the
driver's device, and none otherwise.

Switches keep this. `open` does not: a new `handle` starts with an `Activate` of the active VT
whichever device that is on, the takeover after it moves the active VT without a `Deactivate` for the
device that had it, and a new `handle_early` is not told of a VT that is already shown on its device.
-/

namespace RedoxDrivers.Inputd

open Lib Option Handle

/-- The VT that a driver takes to be shown after an event. -/
def VtEvent.apply (shown : Option Nat) (e : VtEvent) : Option (Option Nat) :=
  match e.kind with
  | .activate => if shown = none then some (some e.vt) else none
  | .deactivate => if shown = some e.vt then some none else none
  | .resize => some shown

/-- The VT that is taken to be shown after a stream of events, unless they contradict each other. -/
def replay (stream : List VtEvent) : Option (Option Nat) := stream.foldlM VtEvent.apply none

/-- All events that were queued to a display. -/
def Display.stream (d : Display) : List VtEvent := d.taken ++ d.pending

/-- The stream and the device of a display. -/
def Handle.view : Handle → Option (List VtEvent × List Char)
  | .display d => some (d.stream, d.device)
  | _ => none

namespace Display

variable {d : Display}

/-- The VT of an owner, if it is on the device. -/
def ownedBy (device : List Char) (owner : Option (Nat × List Char)) : Option Nat :=
  (owner.filter fun owner => owner.2 = device).map Prod.fst

theorem replay_push (d : Display) (new : List VtEvent) :
    replay { d with pending := d.pending ++ new, notified := false }.stream =
      (replay d.stream).bind fun shown => new.foldlM VtEvent.apply shown := by
  show replay (d.taken ++ (d.pending ++ new)) = _
  rw [← List.append_assoc]
  exact List.foldlM_append

/-- After the VT is left, none is shown. -/
theorem replay_leave {owner : Option (Nat × List Char)}
    (h : replay d.stream = some (ownedBy d.device owner)) :
    replay (d.leave owner).stream = some none := by
  cases owner with
  | none => exact h
  | some owner =>
    show replay (if owner.2 = d.device then
      { d with pending := d.pending ++ [⟨.deactivate, owner.1, 0, 0, 0⟩], notified := false }
      else d).stream = some none
    by_cases hdevice : owner.2 = d.device
    · have hshown : replay d.stream = some (some owner.1) := by
        rw [h]
        simp [ownedBy, Option.filter, hdevice]
      rw [if_pos hdevice, replay_push, hshown]
      simp [VtEvent.apply]
    · rw [if_neg hdevice, h]
      simp [ownedBy, Option.filter, hdevice]

theorem replay_enter (vt : Nat) (device : List Char) (h : replay d.stream = some none) :
    replay (d.enter (vt, device)).stream = some (ownedBy d.device (some (vt, device))) := by
  unfold enter
  by_cases hdevice : device = d.device
  · rw [if_pos hdevice, replay_push, h]
    simp [VtEvent.apply, ownedBy, Option.filter, hdevice]
  · rw [if_neg hdevice, h]
    simp [ownedBy, Option.filter, hdevice]

theorem replay_resize (vt : Nat) (device : List Char) (width height : U32) :
    replay (d.resize vt device width height).stream = replay d.stream := by
  unfold resize
  split
  · rw [replay_push]
    cases replay d.stream with
    | none | some => rfl
  · rfl

end Display

open Display

namespace InputScheme

/-- The active VT, if it is shown on the device. -/
def shownOn (s : InputScheme) (device : List Char) : Option Nat :=
  s.activeVt.filter fun vt => s.vts vt = some device

/-- Every driver knows what is shown on its device. -/
def Streams (s : InputScheme) : Prop :=
  ∀ id d, s.handles id = some (.display d) → replay d.stream = some (s.shownOn d.device)

/-- A new display is told what is shown on its device, and takes it from no other: an early display is
opened while the active VT is not on its device, any other while it is or no VT is active. -/
def Welcomes (s : InputScheme) : Opening → Prop
  | .handleEarly device => ∀ vt, s.activeVt = some vt → s.vts vt ≠ some device
  | .handle device => ∀ vt, s.activeVt = some vt → s.vts vt = some device
  | _ => True

def OpensWell (s : InputScheme) : Request → Prop
  | .openPath path => ∀ opening, parseOpen path = some opening → s.Welcomes opening
  | _ => True

instance (s : InputScheme) : ∀ opening, Decidable (s.Welcomes opening)
  | .handleEarly device => inferInstanceAs (Decidable (∀ vt ∈ s.activeVt, s.vts vt ≠ some device))
  | .handle device => inferInstanceAs (Decidable (∀ vt ∈ s.activeVt, s.vts vt = some device))
  | .producer | .consumer _ | .control => isTrue trivial

instance (s : InputScheme) : ∀ r, Decidable (s.OpensWell r)
  | .openPath path => inferInstanceAs (Decidable (∀ opening ∈ parseOpen path, s.Welcomes opening))
  | .fpath .. | .read .. | .write .. | .fevent .. | .close _ | .sendFd | .cancellation => isTrue trivial

section Views

variable {s t : InputScheme} {id : Nat} {old new : Handle}

theorem shownOn_eq (s : InputScheme) (device : List Char) :
    s.shownOn device = ownedBy device s.owner := by
  unfold shownOn ownedBy owner
  cases s.activeVt with
  | none => rfl
  | some vt =>
    cases hvt : s.vts vt with
    | none => simp [Option.filter, hvt]
    | some device' => by_cases hdevice : device' = device <;> simp [Option.filter, hvt, hdevice]

theorem streams_iff_view : s.Streams ↔ ∀ id stream device,
    (s.handles id).map view = some (some (stream, device)) →
      replay stream = some (s.shownOn device) := by
  constructor
  · intro h id stream device hview
    obtain ⟨handle, hid, hhandle⟩ := map_eq_some_iff.mp hview
    cases handle with
    | display d =>
      cases hhandle
      exact h id d hid
    | _ => cases hhandle
  · intro h id d hid
    exact h id d.stream d.device (by rw [hid]; rfl)

/-- `Streams` is about the streams, their devices and what is shown on them. -/
theorem streams_congr (hshown : ∀ device, t.shownOn device = s.shownOn device)
    (hview : ∀ id, (t.handles id).map view = (s.handles id).map view) :
    t.Streams ↔ s.Streams := by
  rw [streams_iff_view, streams_iff_view]
  exact forall_congr' fun id => by simp only [hshown, hview]

theorem Streams.congr (hs : s.Streams) (hshown : ∀ device, t.shownOn device = s.shownOn device)
    (hview : ∀ id, (t.handles id).map view = (s.handles id).map view) : t.Streams :=
  (streams_congr hshown hview).mpr hs

theorem Streams.setHandle (hs : s.Streams) (hid : s.handles id = some old)
    (hview : new.view = old.view) : (s.base.setHandle id new).Streams :=
  hs.congr (fun _ => rfl) (map_handles_setHandle hid hview)

theorem streams_marked : s.marked.Streams ↔ s.Streams :=
  streams_congr (fun _ => rfl) (map_handles_marked fun handle => by cases handle <;> rfl)

theorem view_onConsumer (f : Consumer → Consumer) (handle : Handle) :
    (handle.onConsumer f).view = handle.view := by
  cases handle <;> rfl

end Views

/-! ### Switches -/

section Switches

variable {s : InputScheme}

/-- A loop over the displays, with what each of them shows after it. -/
theorem streams_onDisplay {f : Display → Display} (activeVt : Option Nat)
    (h : ∀ d, replay d.stream = some (s.shownOn d.device) →
      replay (f d).stream = some ({ s with activeVt }.shownOn (f d).device))
    (hs : s.Streams) : { s.mapHandles (onDisplay f) with activeVt }.Streams := by
  intro id d' hd'
  obtain ⟨handle, hid, hhandle⟩ := map_eq_some_iff.mp hd'
  cases handle with
  | display d =>
    cases hhandle
    exact h d (hs id d hid)
  | _ => cases hhandle

section

variable (hs : s.Streams)

include hs

theorem Streams.afterSwitch (vt : Nat) : (s.afterSwitch vt).Streams := by
  unfold InputScheme.afterSwitch
  split
  · exact hs
  · cases hvt : s.vts vt with
    | none => exact hs
    | some device =>
      refine streams_onDisplay (some vt) (fun d hd => ?_) hs
      rw [shownOn_eq] at hd
      have hafter : { s with activeVt := some vt }.owner = some (vt, device) := by
        simp [owner, hvt]
      have hentered := replay_enter vt device (replay_leave hd)
      rw [(pushing_leave _).device] at hentered
      rw [(pushing_switch _ _).device, shownOn_eq, hafter]
      exact hentered

theorem Streams.afterResize (width height : U32) : (s.afterResize width height).Streams := by
  unfold InputScheme.afterResize
  cases s.owner with
  | none => exact hs
  | some =>
    refine streams_onDisplay s.activeVt (fun d hd => ?_) hs
    rw [replay_resize, (pushing_resize _ _ _ _).device]
    exact hd

theorem Streams.afterEvent (e : EventOption) : (s.afterEvent e).Streams := by
  cases e with
  | key scancode pressed =>
    have hkeyed : (s.withSuper (superAfter s.superKey (.key scancode pressed))).Streams := hs
    rw [InputScheme.afterEvent]
    cases newActive s.superKey (.key scancode pressed) with
    | none => exact hkeyed
    | some vt => exact hkeyed.afterSwitch vt
  | resize width height => exact hs.afterResize width height
  | other => exact hs

theorem Streams.afterEvents (es : List EventOption) : (s.afterEvents es).Streams := by
  induction es generalizing s with
  | nil => exact hs
  | cons e es ih => exact ih (hs.afterEvent e)

theorem Streams.createVt (hwf : s.WF) (device : List Char) : (createVt device s.base).Streams := by
  refine hs.congr (fun device' => ?_) fun _ => rfl
  -- The new VT is not the active one.
  show s.activeVt.filter (fun vt => Function.update s.vts s.nextVtId (some device) vt = some device') =
    s.activeVt.filter (fun vt => s.vts vt = some device')
  cases hactive : s.activeVt with
  | none => rfl
  | some vt =>
    have hlt := ((hwf.vts vt).mp (hwf.active vt hactive)).2
    simp [Option.filter, Function.update_of_ne (Nat.ne_of_lt hlt)]

end

end Switches

/-! ### Opens -/

section Opens

variable {s : InputScheme} {device device' : List Char}

/-- The stream of a new display is all that an `open` adds. -/
theorem streams_opened (hs : s.Streams) (opening : Opening) :
    (s.opened opening).Streams ↔ ∀ stream device,
      (newHandle s.activeVt opening).view = some (stream, device) →
        replay stream = some (s.shownOn device) := by
  rw [streams_iff_view]
  constructor
  · intro h stream device hview
    refine h s.nextId stream device ?_
    rw [handles_opened_eq_some.mpr (.inl ⟨rfl, rfl⟩), map_some, hview]
  · intro h id stream device hview
    obtain ⟨handle, hhandle, hview⟩ := map_eq_some_iff.mp hview
    rcases handles_opened_eq_some.mp hhandle with ⟨-, rfl⟩ | ⟨-, hold⟩
    · exact h stream device hview
    · exact streams_iff_view.mp hs id stream device (by rw [hold, map_some, hview])

theorem shownOn_takeOver_of_welcomes (h : s.Welcomes (.handle device)) (device' : List Char) :
    (s.takeOver device).shownOn device' = s.shownOn device' := by
  show s.activeVt.filter (fun vt =>
    (if s.isEarlyVt vt then some device else s.vts vt) = some device') = _
  unfold shownOn
  cases hactive : s.activeVt with
  | none => rfl
  | some vt => simp [Option.filter, h vt hactive]

/-- The handle of an early device is an old one. -/
theorem early_handle (h : (s.opened (.handle device)).anyHandle (isEarly device') = true) :
    ∃ id d, s.handles id = some (.display d) ∧ d.device = device' := by
  obtain ⟨id, -, hany⟩ := List.any_eq_true.mp h
  cases hid : (s.opened (.handle device)).handles id with
  | none => simp [hid] at hany
  | some handle =>
    have hearly : isEarly device' handle = true := by simpa [hid] using hany
    rcases handles_opened_eq_some.mp hid with ⟨-, rfl⟩ | ⟨-, hold⟩
    · cases hearly
    · cases handle with
      | display d =>
        refine ⟨id, d, hold, ?_⟩
        simpa [isEarly] using (Bool.and_eq_true_iff.mp hearly).2
      | _ => cases hearly

theorem shownOn_of_active {vt : Nat} (hactive : s.activeVt = some vt)
    (hvt : s.vts vt = some device') (device : List Char) :
    s.shownOn device = if device' = device then some vt else none := by
  simp [shownOn, hactive, Option.filter, hvt]

/-- After a takeover all is well exactly if the active VT was on the device that takes over. -/
theorem streams_takeOver (hwf : s.WF) (hs : s.Streams) :
    ((s.opened (.handle device)).takeOver device).Streams ↔ s.Welcomes (.handle device) := by
  constructor
  · intro h vt hactive
    obtain ⟨owner, howner⟩ := isSome_iff_exists.mp (hwf.active vt hactive)
    by_contra hne
    have hforeign : owner ≠ device := fun heq => hne (by rw [howner, heq])
    by_cases hearly : (s.opened (.handle device)).isEarlyVt vt = true
    · -- The early device is not told that its VT is gone.
      have hany : (s.opened (.handle device)).anyHandle (isEarly owner) = true := by
        simpa [isEarlyVt, show (s.opened (.handle device)).vts vt = some owner from howner] using hearly
      obtain ⟨id, d, hid, hdevice⟩ := early_handle hany
      have hbefore := hs id d hid
      have hid' : ((s.opened (.handle device)).takeOver device).handles id = some (.display d) := by
        show ((s.opened (.handle device)).handles id).map _ = _
        rw [handles_opened hwf _ hid]
        rfl
      have hafter := h id d hid'
      have hmoved : ((s.opened (.handle device)).takeOver device).vts vt = some device :=
        if_pos hearly
      rw [shownOn_of_active (s := (s.opened (.handle device)).takeOver device) hactive hmoved,
        if_neg (by rw [hdevice]; exact hforeign.symm)] at hafter
      rw [hafter, shownOn_of_active hactive howner, if_pos hdevice.symm] at hbefore
      cases hbefore
    · -- The new display is told of a VT of another device.
      have hnew : ((s.opened (.handle device)).takeOver device).handles s.nextId =
          some (newHandle s.activeVt (.handle device)) := by
        show ((s.opened (.handle device)).handles s.nextId).map _ = _
        rw [handles_opened_eq_some.mpr (.inl ⟨rfl, rfl⟩)]
        rfl
      have hafter := h s.nextId _ hnew
      have hstays : ((s.opened (.handle device)).takeOver device).vts vt = some owner :=
        (if_neg hearly).trans howner
      rw [shownOn_of_active (s := (s.opened (.handle device)).takeOver device) hactive hstays] at hafter
      rw [stream, hactive] at hafter
      rw [if_neg hforeign] at hafter
      cases hafter
  · intro h
    refine (streams_congr (shownOn_takeOver_of_welcomes (s := s.opened (.handle device)) h)
      (map_handles_mapHandles (view_onConsumer _))).mpr ?_
    rw [streams_opened hs]
    intro stream device' hview
    cases hview
    show replay ([] ++ _) = _
    cases hactive : s.activeVt with
    | none =>
      rw [shownOn, hactive]
      rfl
    | some vt =>
      rw [shownOn_of_active hactive (h vt hactive), if_pos rfl]
      rfl

end Opens

/-! ### Runs -/

section Runs

variable {decode : List U8 → EventOption} {s mid s' : InputScheme} {r : Request}

/-- Only an `open` can confuse a driver. -/
theorem Effect.streams (hwf : s.WF) (hs : s.Streams) (h : Effect decode s r mid) :
    mid.handoff.Streams ↔ s.OpensWell r := by
  have keeps : ∀ {t : InputScheme}, t.Streams → (t.Streams ↔ True) := iff_true_intro
  rcases h.handoff_cases hwf with ⟨-, heq⟩ | ⟨path, device, rfl, hparse, rfl, heq⟩
  · rw [heq]
    cases h with
    | openFailed path parse => exact ⟨fun _ opening hopening => by simp [parse] at hopening, fun _ => hs⟩
    | opened path opening parse =>
      have hiff : s.OpensWell (.openPath path) ↔ s.Welcomes opening := by simp [OpensWell, parse]
      rw [hiff]
      cases opening with
      | handleEarly device =>
        -- An early display starts with nothing shown.
        have hnone : s.Welcomes (.handleEarly device) ↔ s.shownOn device = none := by
          simp [Welcomes, shownOn, filter_eq_none_iff]
        rw [streams_opened hs, hnone]
        constructor
        · intro h
          exact (some.inj (h [] device rfl)).symm
        · rintro h _ _ hview
          cases hview
          rw [h]
          rfl
      | handle device => cases show none = some device from congrArg maybePerformHandoffTo heq
      | _ =>
        rw [streams_opened hs]
        exact ⟨fun _ => trivial, fun _ _ _ hview => nomatch hview⟩
    | stale _ _ _ handle | readBytes _ _ _ handle | subscribeConsumer _ _ _ handle
    | subscribeDisplay _ _ _ handle => exact keeps (hs.setHandle handle rfl)
    | newVt id d => exact keeps (hs.createVt hwf d.device)
    | readEvents id len d handle => exact keeps (hs.setHandle handle (by simp [view, stream]))
    | control => exact keeps (Streams.afterSwitch (s := s.noted) hs _)
    | produce id buf =>
      have hevents := Streams.afterEvents (s := s.noted) hs ((chunks buf).map decode)
      exact keeps (hevents.congr (fun _ => rfl) (map_handles_mapHandles (view_onConsumer _)))
    | futile => exact keeps hs
    | idle r notOpen =>
      cases r with
      | openPath path => exact absurd rfl (notOpen path)
      | _ => exact keeps hs
  · rw [heq, streams_takeOver hwf hs]
    simp [OpensWell, hparse]

theorem streams_step (hwf : s.WF) (hs : s.Streams) (h : step decode s r = some s') :
    s'.Streams ↔ s.OpensWell r := by
  obtain ⟨mid, heffect, rfl | rfl⟩ := step_cases hwf h
  · exact heffect.streams hwf hs
  · rw [streams_marked]
    exact heffect.streams hwf hs

theorem streams_new : new.Streams := fun _ _ h => nomatch h

/-- The state of a daemon that has told its drivers everything. -/
structure Told (s : InputScheme) : Prop where
  wf : s.WF
  streams : s.Streams

/-- **What the drivers are told.** In every run, all drivers know at all times what is shown on their
device exactly if every early display was opened while the active VT was not on its device, and every
other display while it was or while no VT was active. -/
theorem streams_throughout_iff {decode : List U8 → EventOption} {rs : List Request} {s : InputScheme}
    (h : run (step decode) new rs = some s) :
    Throughout (step decode) new Streams rs ↔
      Along (step decode) new OpensWell rs := by
  have init : Told new := ⟨wf_new, streams_new⟩
  refine throughout_iff_along init init.streams (fun s r s' told hwell hstep => ?_)
    (fun s r s' told hstep => streams_step told.wf told.streams hstep) h
  exact ⟨told.wf.step hstep, (streams_step told.wf told.streams hstep).mpr hwell⟩

/-- A driver makes a VT, and it is activated. -/
def oneVt : List Request :=
  [.openPath "handle/virtio".toList, .read 0 0, .openPath "control".toList,
    .write 1 [1, 0, 0, 0, 0, 0, 0, 0]]

theorem oneVt_streams : Throughout (step fun _ => .other) new Streams oneVt :=
  (streams_throughout_iff (s := _) rfl).mpr (by decide)

/-- An early display whose VT is taken over is not told. -/
theorem takeover_not_told : ∃ s, run (step fun _ => .other) new
    [.openPath "handle_early/vesa".toList, .read 0 0, .openPath "control".toList,
      .write 1 [1, 0, 0, 0, 0, 0, 0, 0], .openPath "handle/virtio".toList] = some s ∧ ¬ s.Streams := by
  refine ⟨_, rfl, fun h => ?_⟩
  have hearly := h 0 _ rfl
  revert hearly
  decide

end Runs

end InputScheme

end RedoxDrivers.Inputd
