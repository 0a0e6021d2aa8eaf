import Mathlib.Data.List.Basic
import Mathlib.Data.List.Infix

/-!
Runs of a partial step function.

A system is a step function `σ → ε → Option σ`: the parties' moves are the
events `ε`, and `none` says that the event is not enabled in that state. A run is
a list of events, so a statement about every run is a statement about every
interleaving of the parties.

Three views of a run are used by the systems built on this module:

* `run_induction`: a property of the events so far and the state they lead to,
  proved from one step;
* `Throughout`: a property of every state a run passes through;
* `Along`: a property of every step of a run, in the state before it.

`throughout_iff_along`, `along_iff_along` and `along_congr` turn a condition that is exact for
one step from a good state into one that is exact for whole runs: the property
holds all along a run exactly when every step of it meets the condition.
-/

namespace RedoxDrivers.Lib

open List Option

variable {σ ε : Type*} {step : σ → ε → Option σ} {start : σ}

/-- The state after the events `es`, or `none` if one of them is not enabled
when its turn comes. -/
def run (step : σ → ε → Option σ) (start : σ) (es : List ε) : Option σ := es.foldlM step start

@[simp] theorem run_nil : run step start [] = some start := rfl

theorem run_cons (e : ε) (es : List ε) :
    run step start (e :: es) = (step start e).bind (run step · es) := rfl

theorem run_append (es es' : List ε) :
    run step start (es ++ es') = (run step start es).bind (run step · es') :=
  foldlM_append

theorem run_snoc_eq_some {es : List ε} {e : ε} {s' : σ} : run step start (es ++ [e]) = some s' ↔
      ∃ s, run step start es = some s ∧ step s e = some s' := by
  simp [run, foldlM_append, bind_eq_some_iff]

/-- Induction over a run, last step first. -/
theorem run_induction {motive : List ε → σ → Prop} (nil : motive [] start)
    (snoc : ∀ es s e s', run step start es = some s → motive es s → step s e = some s' →
      motive (es ++ [e]) s')
    {es : List ε} {s : σ} (h : run step start es = some s) : motive es s := by
  induction es using List.reverseRecOn generalizing s with
  | nil =>
    obtain rfl : start = s := by simpa using h
    exact nil
  | append_singleton es e ih =>
    obtain ⟨mid, hmid, hstep⟩ := run_snoc_eq_some.mp h
    exact snoc es mid e s hmid (ih hmid) hstep

/-- `P` holds of every step of `es`, at the state the step is taken from. -/
def Along (step : σ → ε → Option σ) (start : σ) (P : σ → ε → Prop) (es : List ε) : Prop :=
  ∀ pre e post, es = pre ++ e :: post → ∀ s, run step start pre = some s → P s e

/-- `P` holds of every state the run `es` passes through, first and last included. -/
def Throughout (step : σ → ε → Option σ) (start : σ) (P : σ → Prop) (es : List ε) : Prop :=
  ∀ pre, pre <+: es → ∀ s, run step start pre = some s → P s

section Views

variable {P Q : σ → ε → Prop} {R : σ → Prop} {es : List ε} {e : ε}

theorem along_nil : Along step start P [] := by
  intro pre e post h
  simp at h

theorem Along.imp (hpq : ∀ s e, P s e → Q s e) (h : Along step start P es) :
    Along step start Q es :=
  fun pre e post hes s hs => hpq s e (h pre e post hes s hs)

theorem along_snoc : Along step start P (es ++ [e]) ↔
    Along step start P es ∧ ∀ s, run step start es = some s → P s e := by
  constructor
  · intro h
    refine ⟨fun pre x post hes s hs => ?_, fun s hs => h es e [] rfl s hs⟩
    exact h pre x (post ++ [e]) (by simp [hes]) s hs
  · rintro ⟨hall, hlast⟩ pre x post hes s hs
    rcases eq_nil_or_concat post with rfl | ⟨post', y, rfl⟩
    · obtain ⟨rfl, hx⟩ := append_inj' hes rfl
      cases hx
      exact hlast s hs
    · rw [concat_eq_append, ← cons_append, ← append_assoc] at hes
      exact hall pre x post' (append_inj' hes rfl).1 s hs

theorem along_cons : Along step start P (e :: es) ↔
    P start e ∧ ∀ s, step start e = some s → Along step s P es := by
  constructor
  · intro h
    refine ⟨h [] e es rfl start rfl, fun s hs pre x post hes t ht => ?_⟩
    refine h (e :: pre) x post (by rw [hes]; rfl) t ?_
    rw [run_cons, hs]
    exact ht
  · rintro ⟨hfirst, hrest⟩ pre x post hes t ht
    cases pre with
    | nil =>
      cases hes
      cases ht
      exact hfirst
    | cons y pre =>
      cases hes
      obtain ⟨s, hs, ht⟩ := bind_eq_some_iff.mp ht
      exact hrest s hs pre x post rfl t ht

theorem along_append {es' : List ε} : Along step start P (es ++ es') ↔
    Along step start P es ∧ ∀ s, run step start es = some s → Along step s P es' := by
  induction es generalizing start with
  | nil => simp [along_nil]
  | cons e es ih =>
    simp only [cons_append, along_cons, ih, run_cons, bind_eq_some_iff]
    grind

/-- The same event over and over. -/
theorem along_replicate {n : Nat} {I : Nat → σ → Prop} (init : I 0 start)
    (next : ∀ k < n, ∀ s, I k s → P s e ∧ ∃ s', step s e = some s' ∧ I (k + 1) s') :
    Along step start P (replicate n e) ∧ ∃ s, run step start (replicate n e) = some s ∧ I n s := by
  induction n with
  | zero => exact ⟨along_nil, start, rfl, init⟩
  | succ n ih =>
    obtain ⟨along, s, hrun, hs⟩ := ih fun k hk => next k (Nat.lt_succ_of_lt hk)
    obtain ⟨hP, s', hstep, hs'⟩ := next n (Nat.lt_succ_self n) s hs
    rw [replicate_succ']
    refine ⟨along_snoc.mpr ⟨along, fun t ht => ?_⟩, s', run_snoc_eq_some.mpr ⟨s, hrun, hstep⟩, hs'⟩
    cases hrun.symm.trans ht
    exact hP

theorem run_replicate {n : Nat} {I : Nat → σ → Prop} (init : I 0 start)
    (next : ∀ k < n, ∀ s, I k s → ∃ s', step s e = some s' ∧ I (k + 1) s') :
    ∃ s, run step start (replicate n e) = some s ∧ I n s :=
  (along_replicate (P := fun _ _ => True) init fun k hk s h => ⟨trivial, next k hk s h⟩).2

/-- A decidable condition can be checked along a given run. -/
instance Along.decidable [∀ s e, Decidable (P s e)] : ∀ start es, Decidable (Along step start P es)
  | _, [] => isTrue along_nil
  | start, e :: es =>
    match h : step start e with
    | none => decidable_of_iff (P start e) (along_cons.trans (by simp [h])).symm
    | some s =>
      have : Decidable (Along step s P es) := Along.decidable s es
      decidable_of_iff (P start e ∧ Along step s P es)
        (along_cons.trans (by simp [h])).symm

theorem throughout_nil : Throughout step start R [] ↔ R start := by
  constructor
  · intro h
    exact h [] prefix_rfl start rfl
  · intro h pre hpre s hs
    obtain rfl := prefix_nil.mp hpre
    obtain rfl : start = s := by simpa using hs
    exact h

theorem throughout_snoc : Throughout step start R (es ++ [e]) ↔
    Throughout step start R es ∧ ∀ s, run step start (es ++ [e]) = some s → R s := by
  constructor
  · intro h
    exact ⟨fun pre hpre => h pre (hpre.trans (prefix_append _ _)),
      fun s hs => h _ prefix_rfl s hs⟩
  · rintro ⟨hall, hlast⟩ pre hpre s hs
    rcases prefix_concat_iff.mp hpre with rfl | hpre
    · exact hlast s hs
    · exact hall pre hpre s hs

/-- The steps of a run that stays in `R` are taken in `R`. -/
theorem along_of_throughout (h : Throughout step start R es) :
    Along step start (fun s _ => R s) es :=
  fun pre e post hes s hs => h pre ⟨e :: post, hes.symm⟩ s hs

theorem along_earlier {pre : List ε} (hpre : pre <+: es) (along : Along step start P es) :
    Along step start P pre := by
  obtain ⟨post, rfl⟩ := hpre
  intro before e after hes s hs
  exact along before e (after ++ post) (by simp [hes]) s hs

section Invariant

variable {I : σ → Prop} (init : I start)
  (keep : ∀ s e s', I s → P s e → step s e = some s' → I s')

include init keep

/-- An invariant that the steps meeting `P` keep holds at the end of every run
all of whose steps meet it. -/
theorem invariant_of_along {s : σ} (h : run step start es = some s) (along : Along step start P es) : I s := by
  revert along
  refine run_induction (motive := fun es s => Along step start P es → I s) (fun _ => init) ?_ h
  intro es s e s' hs ih hstep along
  obtain ⟨hes, he⟩ := along_snoc.mp along
  exact keep s e s' (ih hes) (he s hs) hstep

/-- An invariant that the steps meeting `P` keep holds in every state of a run all of whose
steps meet it. -/
theorem throughout_of_along (along : Along step start P es) : Throughout step start I es :=
  fun _ hpre _ hs => invariant_of_along init keep hs (along_earlier hpre along)

/-- If the steps that meet `P` keep an invariant and meet `Q` in its states, then a run
all of whose steps meet `P` meets `Q` all along. -/
theorem along_of_along (each : ∀ s e s', I s → P s e → step s e = some s' → Q s e)
    {s : σ} (h : run step start es = some s) (along : Along step start P es) :
    Along step start Q es := by
  revert along
  refine run_induction
    (motive := fun es _ => Along step start P es → Along step start Q es) (fun _ => along_nil) ?_ h
  intro es s e s' hs ih hstep along
  obtain ⟨hes, he⟩ := along_snoc.mp along
  have inv : I s := invariant_of_along init keep hs hes
  refine along_snoc.mpr ⟨ih hes, fun t ht => ?_⟩
  obtain rfl : s = t := by simpa [hs] using ht
  exact each s e s' inv (he s hs) hstep

/-- **Exact condition on steps.** As `throughout_iff_along`, for a property `Q` of
the steps themselves. -/
theorem along_iff_along (exact : ∀ s e s', I s → step s e = some s' → (Q s e ↔ P s e))
    {s : σ} (h : run step start es = some s) : Along step start Q es ↔ Along step start P es := by
  refine run_induction
    (motive := fun es _ => Along step start Q es ↔ Along step start P es) ?_ ?_ h
  · exact ⟨fun _ => along_nil, fun _ => along_nil⟩
  · intro es s e s' hs ih hstep
    rw [along_snoc, along_snoc, ih]
    refine and_congr_right fun along => ?_
    have step := exact s e s' (invariant_of_along init keep hs along) hstep
    constructor
    · intro hQ t ht
      obtain rfl : s = t := by simpa [hs] using ht
      exact step.mp (hQ s hs)
    · intro hP t ht
      obtain rfl : s = t := by simpa [hs] using ht
      exact step.mpr (hP s hs)

/-- As `along_iff_along`, for a condition that is exact whether or not the step is enabled:
then the last step of `es` need not be. -/
theorem along_congr (exact : ∀ s e, I s → (Q s e ↔ P s e)) :
    Along step start Q es ↔ Along step start P es := by
  induction es generalizing start with
  | nil => exact ⟨fun _ => along_nil, fun _ => along_nil⟩
  | cons e es ih =>
    rw [along_cons, along_cons, exact start e init]
    refine and_congr_right fun hP => forall₂_congr fun s hs => ?_
    exact ih (keep start e s init hP hs)

end Invariant

/-- An invariant that every step keeps holds at the end of every run. -/
theorem invariant_of_run {I : σ → Prop} (init : I start)
    (keep : ∀ s e s', I s → step s e = some s' → I s')
    {s : σ} (h : run step start es = some s) : I s :=
  invariant_of_along (P := fun _ _ => True) init (fun s e s' hs _ => keep s e s' hs) h
    fun _ _ _ _ _ _ => trivial

/-- **Exact condition on states.** If, from a state of the invariant, a step leads
to a state of `R` exactly when it meets `P`, and the steps that meet `P` keep the
invariant, then a run stays in `R` exactly when all its steps meet `P`. -/
theorem throughout_iff_along {I : σ → Prop} (init : I start) (initR : R start)
    (keep : ∀ s e s', I s → P s e → step s e = some s' → I s')
    (exact : ∀ s e s', I s → step s e = some s' → (R s' ↔ P s e))
    {s : σ} (h : run step start es = some s) :
    Throughout step start R es ↔ Along step start P es := by
  refine run_induction
    (motive := fun es _ => Throughout step start R es ↔ Along step start P es) ?_ ?_ h
  · exact ⟨fun _ => along_nil, fun _ => throughout_nil.mpr initR⟩
  · intro es s e s' hs ih hstep
    have hsnoc : run step start (es ++ [e]) = some s' := run_snoc_eq_some.mpr ⟨s, hs, hstep⟩
    rw [throughout_snoc, along_snoc, ih]
    refine and_congr_right fun along => ?_
    have inv : I s := invariant_of_along init keep hs along
    constructor
    · intro hR t ht
      obtain rfl : s = t := by simpa [hs] using ht
      exact (exact s e s' inv hstep).mp (hR s' hsnoc)
    · intro hP t ht
      obtain rfl : s' = t := by simpa [hsnoc] using ht
      exact (exact s e s' inv hstep).mpr (hP s hs)

end Views

end RedoxDrivers.Lib
