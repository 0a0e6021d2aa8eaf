import Mathlib.Data.Fintype.EquivFin
import Mathlib.Data.List.Basic
import Mathlib.Logic.Function.Iterate
import Mathlib.Logic.Relation
import Mathlib.Order.RelClasses

/-!
A worklist that remembers nothing.

The first item is taken from a queue and what it leads to (`next`) is put at its end, whether or not
it was there before. So the queue goes through the items `level` by level: those that are `k` edges
away from the start, each once for every way there (`iterate_worklist_upTo`). The work ends exactly if
there is an empty level (`worklist_ends_iff`), which for finitely many items means that no cycle can
be reached (`exists_level_nil_iff`).
-/

namespace RedoxDrivers.Lib

open List Nat

variable {α : Type} (next : α → List α)

/-- One turn, on the items that are done and those that are to be done. -/
def worklist : List α × List α → List α × List α
  | (done, []) => (done, [])
  | (done, x :: todo) => (done ++ [x], todo ++ next x)

/-- The items that are `k` edges away, once for each way there. -/
def level (start : List α) : Nat → List α
  | 0 => start
  | k + 1 => (level start k).flatMap next

/-- The items of the first `k` levels. -/
def upTo (start : List α) (k : Nat) : List α := (List.range k).flatMap (level next start)

variable {next} {start done todo xs : List α} {a b x : α} {k n : Nat}

/-! ### Levels -/

theorem upTo_succ : upTo next start (k + 1) = upTo next start k ++ level next start k := by
  simp [upTo, range_succ]

theorem upTo_initial {j : Nat} (h : j ≤ k) : upTo next start j <+: upTo next start k := by
  induction k, h using le_induction with
  | base => exact prefix_rfl
  | succ k _ ih =>
    rw [upTo_succ]
    exact ih.trans (prefix_append _ _)

theorem level_add (j : Nat) : level next start (k + j) = level next (level next start k) j := by
  induction j with
  | zero => rfl
  | succ j ih => rw [← Nat.add_assoc, level, ih, level]

/-- A level is made of the levels of the single items. -/
theorem mem_level_iff : x ∈ level next start k ↔ ∃ a ∈ start, x ∈ level next [a] k := by
  induction k generalizing x with
  | zero => simp [level]
  | succ k ih =>
    simp only [level, mem_flatMap, ih]
    constructor
    · rintro ⟨y, ⟨a, ha, hy⟩, hx⟩
      exact ⟨a, ha, y, hy, hx⟩
    · rintro ⟨a, ha, y, hy, hx⟩
      exact ⟨y, ⟨a, ha, hy⟩, hx⟩

theorem level_nil_of_le {j : Nat} (h : level next start k = []) (hle : k ≤ j) :
    level next start j = [] := by
  obtain ⟨i, rfl⟩ := Nat.exists_eq_add_of_le hle
  rw [level_add, h]
  induction i with
  | zero => rfl
  | succ i ih => rw [level, ih (le_add_right k i), flatMap_nil]

/-- After an empty level there is nothing more. -/
theorem upTo_eq_of_nil {j : Nat} (h : level next start k = []) (hle : k ≤ j) :
    upTo next start j = upTo next start k := by
  induction j, hle using le_induction with
  | base => rfl
  | succ j hle ih => rw [upTo_succ, ih, level_nil_of_le h hle, append_nil]

/-! ### Reachability -/

/-- There is an edge. -/
def Edge (next : α → List α) (a b : α) : Prop := b ∈ next a

theorem reach_of_mem_level (h : x ∈ level next [a] k) : Relation.ReflTransGen (Edge next) a x := by
  induction k generalizing x with
  | zero => rw [mem_singleton.mp h]
  | succ k ih =>
    obtain ⟨y, hy, hx⟩ := mem_flatMap.mp h
    exact (ih hy).tail hx

theorem exists_level_of_reach (h : Relation.ReflTransGen (Edge next) a x) :
    ∃ k, x ∈ level next [a] k := by
  induction h with
  | refl => exact ⟨0, mem_singleton_self a⟩
  | tail _ hedge ih =>
    obtain ⟨k, hk⟩ := ih
    exact ⟨k + 1, mem_flatMap.mpr ⟨_, hk, hedge⟩⟩

theorem reach_iff_mem_upTo (h : level next [a] k = []) :
    Relation.ReflTransGen (Edge next) a x ↔ x ∈ upTo next [a] k := by
  constructor
  · intro hreach
    obtain ⟨j, hj⟩ := exists_level_of_reach hreach
    have hlt : j < k := by
      by_contra hle
      rw [level_nil_of_le h (not_lt.mp hle)] at hj
      cases hj
    exact mem_flatMap.mpr ⟨j, mem_range.mpr hlt, hj⟩
  · intro hmem
    obtain ⟨j, -, hj⟩ := mem_flatMap.mp hmem
    exact reach_of_mem_level hj

/-- A cycle goes through every level that is far enough away. -/
theorem mem_level_of_cycle (h : Relation.TransGen (Edge next) b b) (n : Nat) :
    ∃ k, n ≤ k ∧ b ∈ level next [b] k := by
  obtain ⟨c, hedge, hreach⟩ := Relation.TransGen.head'_iff.mp h
  obtain ⟨m, hm⟩ := exists_level_of_reach hreach
  have hfirst : c ∈ level next [b] 1 := mem_flatMap.mpr ⟨b, mem_singleton_self b, hedge⟩
  have honce : b ∈ level next [b] (1 + m) := by
    rw [level_add]
    exact mem_level_iff.mpr ⟨c, hfirst, hm⟩
  induction n with
  | zero => exact ⟨0, le_refl 0, mem_singleton_self b⟩
  | succ n ih =>
    obtain ⟨k, hle, hk⟩ := ih
    refine ⟨k + (1 + m), by omega, ?_⟩
    rw [level_add]
    exact mem_level_iff.mpr ⟨b, hk, honce⟩

/-- Levels of finitely many items that all end, end together. -/
theorem level_nil_of_forall (h : ∀ x ∈ xs, ∃ k, level next [x] k = []) : ∃ k, level next xs k = [] := by
  induction xs with
  | nil => exact ⟨0, rfl⟩
  | cons x xs ih =>
    obtain ⟨i, hi⟩ := h x mem_cons_self
    obtain ⟨j, hj⟩ := ih fun y hy => h y (mem_cons_of_mem _ hy)
    refine ⟨i + j, eq_nil_iff_forall_not_mem.mpr fun y hmem => ?_⟩
    obtain ⟨a, ha, hy⟩ := mem_level_iff.mp hmem
    rcases mem_cons.mp ha with rfl | ha
    · rw [level_nil_of_le hi (le_add_right i j)] at hy
      cases hy
    · have hy := mem_level_iff.mpr ⟨a, ha, hy⟩
      rw [level_nil_of_le hj (le_add_left j i)] at hy
      cases hy

/-- Of finitely many items, a level is empty exactly if no cycle can be reached. -/
theorem exists_level_nil_iff [Finite α] : (∃ k, level next [a] k = []) ↔
    ∀ b, Relation.ReflTransGen (Edge next) a b → ¬ Relation.TransGen (Edge next) b b := by
  constructor
  · rintro ⟨k, hk⟩ b hreach hcycle
    obtain ⟨j, hj⟩ := exists_level_of_reach hreach
    obtain ⟨i, hle, hi⟩ := mem_level_of_cycle hcycle k
    have hmem : b ∈ level next [a] (j + i) := by
      rw [level_add]
      exact mem_level_iff.mpr ⟨b, hj, hi⟩
    rw [level_nil_of_le hk (by omega)] at hmem
    cases hmem
  · intro hacyclic
    -- Going on along the edges is well-founded on what can be reached.
    let onward : α → α → Prop := fun c b =>
      Relation.TransGen (Edge next) b c ∧ Relation.ReflTransGen (Edge next) a b
    have htrans : IsTrans α onward := ⟨fun _ _ _ hcd hbc => ⟨hbc.1.trans hcd.1, hbc.2⟩⟩
    have hirrefl : Std.Irrefl onward := ⟨fun b h => hacyclic b h.2 h.1⟩
    have hwf : WellFounded onward := Finite.wellFounded_of_trans_of_irrefl onward
    have hends : ∀ b, Relation.ReflTransGen (Edge next) a b → ∃ k, level next [b] k = [] := by
      intro b
      induction b using hwf.induction with
      | h b ih =>
        intro hreach
        obtain ⟨k, hk⟩ := level_nil_of_forall fun c (hc : c ∈ next b) =>
          ih c ⟨Relation.TransGen.single hc, hreach⟩ (hreach.tail hc)
        refine ⟨1 + k, ?_⟩
        rw [level_add]
        simpa [level] using hk
    exact hends a Relation.ReflTransGen.refl

/-! ### The queue -/

/-- The items of the queue are taken one after the other. -/
theorem iterate_worklist (xs done todo : List α) :
    (worklist next)^[xs.length] (done, xs ++ todo) = (done ++ xs, todo ++ xs.flatMap next) := by
  induction xs generalizing done todo with
  | nil => simp
  | cons x xs ih =>
    rw [length_cons, Function.iterate_succ_apply]
    show (worklist next)^[xs.length] (done ++ [x], (xs ++ todo) ++ next x) = _
    rw [append_assoc xs, ih]
    simp

/-- After as many turns as the first levels have items, these are done and the next level is to be
done. -/
theorem iterate_worklist_upTo (start : List α) (k : Nat) :
    (worklist next)^[(upTo next start k).length] ([], start) = (upTo next start k, level next start k) := by
  induction k with
  | zero => rfl
  | succ k ih =>
    rw [upTo_succ, length_append, Nat.add_comm, Function.iterate_add_apply, ih]
    simpa [level] using iterate_worklist (level next start k) (upTo next start k) []

theorem iterate_worklist_done (done : List α) (n : Nat) :
    (worklist next)^[n] (done, []) = (done, []) := by
  induction n with
  | zero => rfl
  | succ n ih =>
    rw [Function.iterate_succ_apply]
    exact ih

theorem le_length_upTo (h : ∀ j, level next start j ≠ []) : k ≤ (upTo next start k).length := by
  induction k with
  | zero => exact zero_le _
  | succ k ih =>
    have hpos := length_pos_iff.mpr (h k)
    rw [upTo_succ, length_append]
    omega

/-- When the queue is empty, a level was empty and all levels before it are done. -/
theorem upTo_of_iterate_worklist (h : (worklist next)^[n] ([], start) = (done, [])) :
    ∃ k, level next start k = [] ∧ done = upTo next start k := by
  have hlater : ∀ m, n ≤ m → (worklist next)^[m] ([], start) = (done, []) := by
    intro m hle
    obtain ⟨i, rfl⟩ := Nat.exists_eq_add_of_le hle
    rw [Nat.add_comm, Function.iterate_add_apply, h, iterate_worklist_done]
  have hnil : ∃ k, level next start k = [] := by
    by_contra hne
    have hpos : ∀ j, level next start j ≠ [] := fun j hj => hne ⟨j, hj⟩
    have heq := hlater _ (le_length_upTo hpos)
    rw [iterate_worklist_upTo] at heq
    exact hpos n (congrArg Prod.snd heq)
  obtain ⟨k, hk⟩ := hnil
  refine ⟨k, hk, ?_⟩
  -- Compare with a later turn at which the first levels are done.
  have hturns : (worklist next)^[(upTo next start k).length] ([], start) = (upTo next start k, []) := by
    rw [iterate_worklist_upTo, hk]
  have hboth := hlater _ (Nat.le_max_left n (upTo next start k).length)
  obtain ⟨i, hi⟩ := Nat.exists_eq_add_of_le (Nat.le_max_right n (upTo next start k).length)
  rw [hi, Nat.add_comm, Function.iterate_add_apply, hturns, iterate_worklist_done] at hboth
  exact (congrArg Prod.fst hboth).symm

theorem worklist_ends_iff : (∃ n done, (worklist next)^[n] ([], start) = (done, [])) ↔
    ∃ k, level next start k = [] := by
  constructor
  · rintro ⟨n, done, h⟩
    obtain ⟨k, hk, -⟩ := upTo_of_iterate_worklist h
    exact ⟨k, hk⟩
  · rintro ⟨k, hk⟩
    refine ⟨(upTo next start k).length, upTo next start k, ?_⟩
    rw [iterate_worklist_upTo, hk]

end RedoxDrivers.Lib
