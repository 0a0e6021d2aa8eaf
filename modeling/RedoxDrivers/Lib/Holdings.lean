import Mathlib.Data.Finset.Basic
import Mathlib.Logic.Function.Basic

/-!
Resources that are taken from a pool and held by the entries of a table.

An entry holds one resource. The holdings are covered if every resource that an entry holds is
taken and no two entries hold the same, and the table accounts for the resources if also none is
taken that no entry holds. Taking a fresh resource for a new entry keeps the account, and so does
giving back the one of an entry that is removed. A resource that is taken for no entry, or not
given back, only leaves the holdings covered.
-/

namespace RedoxDrivers.Lib

open Function

variable {ι ρ : Type*} [DecidableEq ι] [DecidableEq ρ] {table : ι → Option ρ} {taken : Finset ρ}
  {i : ι} {r : ρ}

omit [DecidableEq ρ] in
/-- A resource that no entry holds can be given to any entry, and no two hold the same. -/
theorem once_update (once : ∀ i j r, table i = some r → table j = some r → i = j)
    (fresh : ∀ j, table j ≠ some r) (j k : ι) (r' : ρ) (hj : update table i (some r) j = some r')
    (hk : update table i (some r) k = some r') : j = k := by
  rcases eq_or_ne j i with rfl | hji <;> rcases eq_or_ne k j with rfl | hkj
  · rfl
  · rw [update_self] at hj
    rw [update_of_ne hkj] at hk
    cases hj
    exact absurd hk (fresh k)
  · rfl
  · rcases eq_or_ne k i with rfl | hki
    · rw [update_self] at hk
      rw [update_of_ne hji] at hj
      cases hk
      exact absurd hj (fresh j)
    · rw [update_of_ne hji] at hj
      rw [update_of_ne hki] at hk
      exact once j k r' hj hk

structure Covered (table : ι → Option ρ) (taken : Finset ρ) : Prop where
  mem : ∀ i r, table i = some r → r ∈ taken
  once : ∀ i j r, table i = some r → table j = some r → i = j

structure Accounts (table : ι → Option ρ) (taken : Finset ρ) : Prop extends Covered table taken where
  held : ∀ r ∈ taken, ∃ i, table i = some r

omit [DecidableEq ι] [DecidableEq ρ] in
theorem Accounts.empty : Accounts (fun _ : ι => (none : Option ρ)) ∅ := ⟨⟨nofun, nofun⟩, by simp⟩

omit [DecidableEq ρ] in
theorem update_none_eq_some {j : ι} :
    update table i none j = some r ↔ j ≠ i ∧ table j = some r := by
  rcases eq_or_ne j i with rfl | hne
  · simp
  · simp [hne]

omit [DecidableEq ι] in
theorem Covered.leak (h : Covered table taken) : Covered table (insert r taken) :=
  ⟨fun i r' hr' => Finset.mem_insert_of_mem (h.mem i r' hr'), h.once⟩

section Taking

variable (fresh : r ∉ taken)

include fresh

omit [DecidableEq ι] in
theorem Covered.not_accounts_leak (h : Covered table taken) :
    ¬ Accounts table (insert r taken) := by
  intro accounts
  obtain ⟨i, hi⟩ := accounts.held r (Finset.mem_insert_self r taken)
  exact fresh (h.mem i r hi)

theorem Covered.take (h : Covered table taken) : Covered (update table i (some r)) (insert r taken) := by
  refine ⟨fun j r' hj => ?_, once_update h.once fun j hj => fresh (h.mem j r hj)⟩
  rcases eq_or_ne j i with rfl | hne
  · rw [update_self] at hj
    exact Finset.mem_insert.mpr (.inl (Option.some.inj hj).symm)
  · rw [update_of_ne hne] at hj
    exact Finset.mem_insert_of_mem (h.mem j r' hj)

theorem Accounts.take (h : Accounts table taken) (free : table i = none) :
    Accounts (update table i (some r)) (insert r taken) := by
  refine ⟨h.toCovered.take fresh, fun r' hr' => ?_⟩
  rcases Finset.mem_insert.mp hr' with rfl | hr'
  · exact ⟨i, update_self i _ _⟩
  · obtain ⟨j, hj⟩ := h.held r' hr'
    refine ⟨j, ?_⟩
    rw [update_of_ne, hj]
    rintro rfl
    cases free.symm.trans hj

end Taking

section Giving

variable (holds : table i = some r)

omit [DecidableEq ρ] in
theorem Covered.drop (h : Covered table taken) : Covered (update table i none) taken :=
  ⟨fun j r' hj => h.mem j r' (update_none_eq_some.mp hj).2,
    fun j k r' hj hk => h.once j k r' (update_none_eq_some.mp hj).2 (update_none_eq_some.mp hk).2⟩

include holds

theorem Covered.giveBack (h : Covered table taken) : Covered (update table i none) (taken.erase r) := by
  refine ⟨fun j r' hj => Finset.mem_erase.mpr ⟨?_, h.drop.mem j r' hj⟩, h.drop.once⟩
  rintro rfl
  obtain ⟨hne, hj⟩ := update_none_eq_some.mp hj
  exact hne (h.once j i r' hj holds)

theorem Accounts.giveBack (h : Accounts table taken) :
    Accounts (update table i none) (taken.erase r) := by
  refine ⟨h.toCovered.giveBack holds, fun r' hr' => ?_⟩
  obtain ⟨hne, hr'⟩ := Finset.mem_erase.mp hr'
  obtain ⟨j, hj⟩ := h.held r' hr'
  refine ⟨j, update_none_eq_some.mpr ⟨?_, hj⟩⟩
  rintro rfl
  exact hne (Option.some.inj (hj.symm.trans holds))

omit [DecidableEq ρ] in
theorem Covered.not_accounts_drop (h : Covered table taken) :
    ¬ Accounts (update table i none) taken := by
  intro accounts
  obtain ⟨j, hj⟩ := accounts.held r (h.mem i r holds)
  obtain ⟨hne, hj⟩ := update_none_eq_some.mp hj
  exact hne (h.once j i r hj holds)

end Giving

end RedoxDrivers.Lib
