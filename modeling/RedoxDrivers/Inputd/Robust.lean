import RedoxDrivers.Inputd.Effects

/-!
Which requests `inputd` survives, and what it keeps.

`active_vt` is unwrapped in three places: for a `Resize`, for the bytes of a producer, and in the
notifications, for a consumer that is waiting. Before the first switch it is `None`. `returns_iff` says
which turns return.

`close` does nothing, so the handle of a closed file stays, with all that is queued to it.
-/

namespace RedoxDrivers.Inputd

open Lib List Option

/-- The handle that a request is for. -/
def Request.target : Request → Option Nat
  | .fpath id _ => some id
  | .read id _ => some id
  | .write id _ => some id
  | .fevent id _ => some id
  | _ => none

namespace InputScheme

section Conditions

variable (decode : List U8 → EventOption) (s : InputScheme)

/-- There is no handle to queue anything to, and requests for it fail. -/
def Gone (id : Nat) : Prop :=
  s.handles id = none ∧
    ∀ r, r.target = some id → ∃ code, (call decode r s.base).1 = .error (.errno code)

/-- Every turn returns, and a handle that was closed is gone from then on. -/
structure Robust (rs : List Request) : Prop where
  returns : Along (step decode) new (fun s r => iterate decode s r ≠ none) rs
  closed : ∀ pre id post, rs = pre ++ .close id :: post →
    ∀ s, run (step decode) new pre = some s → s.handles id ≠ none →
    ∀ more, more <+: post → ∀ s', run (step decode) new (pre ++ .close id :: more) = some s' →
      s'.Gone decode id

/-- A write that switches to a VT, with no VT active before. -/
def Activates (id : Nat) (buf : List U8) : Prop :=
  (s.handles id = some .producer ∧ ¬ IsNoise buf) ∨
    (s.handles id = some .control ∧ buf.length = VT_ACTIVATE_SIZE ∧ s.known (Endian.ofLe buf) = true)

/-- A consumer that the notifications stop at after a takeover. -/
def isAlarmed : Handle → Bool
  | .consumer c => if s.isEarlyVt c.vt then Subscribed c.events else Waiting c
  | _ => false

/-- No request that needs an active VT comes before there is one: no events of a producer that do not
switch to one first, and nothing that makes the loop look at a consumer that is waiting, or will be
after the takeover. -/
def Calm : Request → Prop
  | .write id buf => ¬ s.Breaks decode (.write id buf) ∧
      (s.activeVt = none → s.anyHandle isWaiting = true → s.Activates id buf)
  | .openPath path => ∀ device, parseOpen path = some (.handle device) → s.activeVt = none →
      (∃ vt, s.isEarlyVt vt = true) → s.anyHandle s.isAlarmed = false
  | _ => True

/-- A request of a client that keeps its files open. -/
def Safe (r : Request) : Prop :=
  s.Calm decode r ∧ ∀ id, r = .close id → s.handles id = none

end Conditions

section Turns

variable {decode : List U8 → EventOption} {s mid t : InputScheme} {r : Request}

/-- The notifications panic. -/
def Blind (s : InputScheme) : Prop :=
  s.hasNewEvents = true ∧ s.activeVt = none ∧ s.anyHandle isWaiting = true

theorem notify_ne_none_iff (s : InputScheme) : (notify s).toOption ≠ none ↔ ¬ s.Blind := by
  rcases notify_cases s with ⟨hquiet, hn⟩ | ⟨hnew, hblind, hn⟩ | ⟨hnew, hblind, hn⟩
  · simp [hn, Blind, hquiet, Except.toOption]
  · simp [hn, Blind, hnew, hblind, Except.toOption]
  · rw [hn]
    exact ⟨fun _ h => hblind h.2, fun _ => by simp [Except.toOption]⟩

/-! ### Takeovers -/

/-- A new display is not an early one. -/
theorem anyHandle_opened {P : Handle → Bool} (hwf : s.WF) (device : List Char)
    (hP : ∀ d, d.isEarlyfb = false → P (.display d) = false) :
    (s.opened (.handle device)).anyHandle P = s.anyHandle P := by
  have hbelow := (hwf.opened (.handle device)).handles
  rw [Bool.eq_iff_iff, anyHandle_iff (s := s.opened (.handle device)) hbelow, anyHandle_iff hwf.handles]
  constructor
  · rintro ⟨id, handle, hid, hp⟩
    rcases handles_opened_eq_some.mp hid with ⟨-, rfl⟩ | ⟨-, hold⟩
    · exact absurd hp (by rw [newHandle, hP _ rfl]; decide)
    · exact ⟨id, handle, hold, hp⟩
  · rintro ⟨id, handle, hid, hp⟩
    exact ⟨id, handle, handles_opened hwf _ hid, hp⟩

theorem isWaiting_takeOver (s : InputScheme) (device : List Char) :
    (s.takeOver device).anyHandle isWaiting = s.anyHandle s.isAlarmed := by
  refine congrArg (List.any (List.range s.nextId)) (funext fun id => ?_)
  show ((s.handles id).map _).any isWaiting = _
  cases s.handles id with
  | none => rfl
  | some handle =>
    cases handle with
    | consumer c =>
      simp only [map_some, any_some, Handle.onConsumer, isAlarmed]
      by_cases hearly : s.isEarlyVt c.vt = true
      · simp [hearly, isWaiting, Waiting]
      · simp [hearly, isWaiting]
    | _ => rfl

theorem hasNewEvents_takeOver (hwf : { s with maybePerformHandoffTo := none }.WF)
    (hquiet : s.hasNewEvents = false) (device : List Char) :
    (s.takeOver device).hasNewEvents = true ↔ ∃ vt, s.isEarlyVt vt = true := by
  show (s.hasNewEvents || (List.range s.nextVtId).any s.isEarlyVt) = true ↔ _
  rw [hquiet, Bool.false_or, List.any_eq_true]
  constructor
  · rintro ⟨vt, -, hearly⟩
    exact ⟨vt, hearly⟩
  · rintro ⟨vt, hearly⟩
    exact ⟨vt, List.mem_range.mpr ((hwf.vts vt).mp (isEarlyVt_known hearly)).2, hearly⟩

theorem blind_takeOver (hwf : s.WF) (device : List Char) :
    ((s.opened (.handle device)).takeOver device).Blind ↔
      s.activeVt = none ∧ (∃ vt, s.isEarlyVt vt = true) ∧ s.anyHandle s.isAlarmed = true := by
  have hearly : (s.opened (.handle device)).isEarlyVt = s.isEarlyVt := by
    funext vt
    refine congrArg (Option.any · (s.vts vt)) (funext fun device' => ?_)
    exact anyHandle_opened hwf device fun d hd => by simp [Handle.isEarly, hd]
  have halarmed : (s.opened (.handle device)).isAlarmed = s.isAlarmed := by
    funext handle
    cases handle with
    | consumer => simp only [isAlarmed, hearly]
    | _ => rfl
  rw [Blind, hasNewEvents_takeOver (hwf.opened _) rfl, isWaiting_takeOver, hearly, halarmed,
    anyHandle_opened hwf device fun d _ => rfl]
  exact and_left_comm

/-! ### Writes -/

theorem blind_afterSwitch (s : InputScheme) (vt : Nat) : (s.noted.afterSwitch vt).Blind ↔
      s.activeVt = none ∧ s.anyHandle isWaiting = true ∧ s.known vt = false := by
  have hsame := sameVts_afterSwitch s.noted vt
  have hactive : (s.noted.afterSwitch vt).activeVt = ((some vt).filter s.known).or s.activeVt :=
    congrArg Keys.activeVt (keys_afterSwitch s.noted vt)
  rw [Blind, hsame.hasNewEvents, hactive, anyHandle_of_sameVts hsame fun _ h => by cases h <;> rfl]
  show true = true ∧ _ ∧ s.anyHandle isWaiting = true ↔ _
  cases hknown : s.known vt with
  | true | false => simp [Option.filter, hknown]

/-! ### Turns that return -/

theorem Effect.blind_iff (hwf : s.WF) (h : Effect decode s r mid) :
    ¬ mid.handoff.Blind ↔ s.Calm decode r := by
  have returns : ∀ {t : InputScheme}, t.hasNewEvents = false → (¬ t.Blind ↔ True) :=
    fun hquiet => iff_true_intro fun ⟨hnew, _⟩ => by simp [hquiet] at hnew
  have hbreaks := h.not_breaks
  rcases h.handoff_cases hwf with ⟨-, heq⟩ | ⟨path, device, rfl, hparse, rfl, heq⟩
  · rw [heq]
    cases h with
    | openFailed path parse =>
      exact (returns rfl).trans (iff_of_true trivial fun device hdevice => by simp [parse] at hdevice)
    | opened path opening parse =>
      cases opening with
      | handle device => cases show none = some device from congrArg maybePerformHandoffTo heq
      | _ =>
        exact (returns rfl).trans
          (iff_of_true trivial fun device hdevice => by simp [parse] at hdevice)
    | control id buf handle length =>
      rw [blind_afterSwitch, Calm, and_iff_right hbreaks]
      simp [Activates, handle, length]
    | produce id buf vt handle noise survives active =>
      refine iff_of_true ?_ ⟨hbreaks, fun _ _ => .inl ⟨handle, noise⟩⟩
      rintro ⟨-, hnone, -⟩
      have hsome : (s.noted.afterEvents ((chunks buf).map decode)).activeVt = some vt :=
        (activeVt_afterEvents s buf).trans active
      exact absurd (hsome.symm.trans hnone) (by simp)
    | futile id buf control producer =>
      have hidle : ¬ s.Activates id buf := by
        rintro (⟨handle, noise⟩ | ⟨handle, length, -⟩)
        · exact noise (producer handle)
        · exact control handle length
      rw [Calm, and_iff_right hbreaks]
      refine ⟨fun hcalm hnone hwaiting => absurd ⟨rfl, hnone, hwaiting⟩ hcalm, ?_⟩
      rintro hcalm ⟨-, hnone, hwaiting⟩
      exact hidle (hcalm hnone hwaiting)
    | idle r notOpen notWrite =>
      cases r with
      | openPath path => exact absurd rfl (notOpen path)
      | write id buf => exact absurd rfl (notWrite id buf)
      | _ => exact returns rfl
    | _ => exact returns rfl
  · rw [heq, blind_takeOver hwf, Calm]
    simp [hparse]

/-- **Which turns return.** -/
theorem returns_iff (decode : List U8 → EventOption) (hwf : s.WF) (r : Request) :
    iterate decode s r ≠ none ↔ s.Calm decode r := by
  rcases iterate_cases decode hwf r with ⟨hbreaks, hnone⟩ | ⟨mid, heffect, heq⟩
  · refine iff_of_false (fun h => h hnone) fun hcalm => ?_
    cases r with
    | write => exact hcalm.1 hbreaks
    | _ => exact hbreaks
  · rw [heq, notify_ne_none_iff, heffect.blind_iff hwf]

/-- A closed handle is still there. -/
theorem handles_close {id : Nat} (hwf : s.WF) (h : step decode s (.close id) = some t) :
    t.handles = s.handles := by
  obtain ⟨⟨t', posted⟩, hiterate, rfl⟩ := map_eq_some_iff.mp h
  have hquiet : iterate decode s (.close id) = (notify s.base.handoff).toOption := rfl
  rw [handoff_of_none hwf.base.handoff] at hquiet
  have hnotify : (notify s.base).toOption = some (s.base, []) := rfl
  rw [hquiet, hnotify] at hiterate
  cases hiterate
  rfl

end Turns

/-- **What `inputd` survives and keeps.** The daemon returns from all requests and frees what is closed
exactly if every request that needs an active VT comes when there is one, and no handle is
closed. -/
theorem survives_and_frees_iff (decode : List U8 → EventOption) (rs : List Request) :
    Robust decode rs ↔ Along (step decode) new (Safe decode) rs := by
  constructor
  · rintro ⟨returns, closed⟩ pre r post hrs s hs
    have hwf : s.WF := wf_of_run hs
    refine ⟨(returns_iff decode hwf r).mp (returns pre r post hrs s hs), ?_⟩
    rintro id rfl
    by_contra hopen
    obtain ⟨t, ht⟩ : ∃ t, step decode s (.close id) = some t := by
      obtain ⟨⟨t, posted⟩, ht⟩ := ne_none_iff_exists'.mp (returns pre _ post hrs s hs)
      exact ⟨t, by rw [step, ht]; rfl⟩
    have hgone := closed pre id post hrs s hs hopen [] nil_prefix t
      (run_snoc_eq_some.mpr ⟨s, hs, ht⟩)
    rw [Gone, handles_close hwf ht] at hgone
    exact hopen hgone.1
  · intro along
    refine ⟨fun pre r post hrs s hs => ?_, fun pre id post hrs s hs hopen => ?_⟩
    · exact (returns_iff decode (wf_of_run hs) r).mpr (along pre r post hrs s hs).1
    · exact absurd ((along pre _ post hrs s hs).2 id rfl) hopen

/-- A key before the first switch makes the daemon panic, and a closed handle is not freed. -/
theorem early_key_panics_close_leaks :
    ¬ Robust (fun _ => .other) [.openPath "producer".toList, .write 0 (List.replicate 24 0)] ∧
      ¬ Robust (fun _ => .other) [.openPath "producer".toList, .close 0] := by
  constructor
  · rintro ⟨returns, -⟩
    exact returns [.openPath "producer".toList] (.write 0 (List.replicate 24 0)) [] rfl _ rfl rfl
  · rintro ⟨-, closed⟩
    have hgone := closed [.openPath "producer".toList] 0 [] rfl _ rfl (by decide) [] nil_prefix _ rfl
    exact absurd hgone.1 (by decide)

end InputScheme

end RedoxDrivers.Inputd
