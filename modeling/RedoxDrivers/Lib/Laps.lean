import Mathlib.Data.List.Infix
import Mathlib.Data.List.Perm.Subperm
import Mathlib.Data.Nat.ModEq
import Mathlib.Tactic.Common

/-!
Positions in a cyclic buffer of `m` slots.

The `k`-th item goes to slot `k % m` in lap `k / m`. `succ_lap` says how slot and
lap move from one item to the next, and `slot_ne` that items less than a lap
apart do not meet. A `segment` is the slots of consecutive items; `mem_segment_iff`
tells its slots from the others by its first and last one. `Holds` says that a buffer
keeps a run of consecutive items, up to a whole lap of them.
-/

namespace RedoxDrivers.Lib

open List Nat

variable {m j k : Nat}

/-- What comes next is the item after those that came before. -/
theorem snoc_prefix {α : Type*} {xs ys : List α} {y : α} (h : xs <+: ys)
    (hy : ys[xs.length]? = some y) : xs ++ [y] <+: ys := by
  obtain ⟨hlt, rfl⟩ := List.getElem?_eq_some_iff.mp hy
  exact concat_get_prefix h hlt

/-- The next item takes the next slot of the lap, or the first one of the next lap. -/
theorem succ_lap (hm : 0 < m) (k : Nat) :
    (k % m + 1 < m ∧ (k + 1) % m = k % m + 1 ∧ (k + 1) / m = k / m) ∨
      (k % m + 1 = m ∧ (k + 1) % m = 0 ∧ (k + 1) / m = k / m + 1) := by
  have hk := div_add_mod k m
  have hlt := mod_lt k hm
  rcases Nat.lt_or_eq_of_le hlt with hnext | hlast
  · left
    have hsum : k + 1 = m * (k / m) + (k % m + 1) := by omega
    refine ⟨hnext, ?_, ?_⟩
    · rw [hsum, mul_add_mod, mod_eq_of_lt hnext]
    · rw [hsum, mul_add_div hm, div_eq_of_lt hnext, add_zero]
  · right
    have hsum : k + 1 = m * (k / m + 1) := by
      rw [mul_add_one]
      omega
    refine ⟨hlast, ?_, ?_⟩
    · rw [hsum, mul_mod_right]
    · rw [hsum, Nat.mul_div_cancel_left _ hm]

/-- Items less than a lap apart are in different slots. -/
theorem slot_ne (hlt : j < k) (hnear : k < j + m) : j % m ≠ k % m := by
  intro heq
  have hdvd : m ∣ k - j := (modEq_iff_dvd' hlt.le).mp heq
  have := le_of_dvd (by omega) hdvd
  omega

section

variable (hle : j ≤ k) (hnear : k < j + m)

include hle hnear

theorem slot_eq_iff : j % m = k % m ↔ j = k := by
  refine ⟨fun heq => ?_, fun h => h ▸ rfl⟩
  rcases lt_or_eq_of_le hle with hlt | rfl
  · exact absurd heq (slot_ne hlt hnear)
  · rfl

/-- A whole lap of items is there exactly when the next slot is the first item's. -/
theorem succ_slot_eq_iff : (k + 1) % m = j % m ↔ k + 1 = j + m := by
  constructor
  · intro heq
    rcases lt_or_ge (k + 1) (j + m) with hlt | hge
    · exact absurd heq.symm (slot_ne (by omega) hlt)
    · omega
  · intro h
    rw [h, add_mod_right]

/-- The number of items between two slots that are less than a lap apart. -/
theorem slot_distance : (k % m + m - j % m) % m = k - j := by
  have hlt := mod_lt j (show 0 < m by omega)
  obtain ⟨d, rfl⟩ := Nat.exists_eq_add_of_le hle
  rw [Nat.add_sub_cancel_left, Nat.add_mod, Nat.mod_eq_of_lt (show d < m by omega)]
  rcases lt_or_ge (j % m + d) m with hfits | hwraps
  · rw [mod_eq_of_lt hfits, show j % m + d + m - j % m = d + m by omega, add_mod_right,
      mod_eq_of_lt (by omega)]
  · rw [mod_eq_sub_mod hwraps, mod_eq_of_lt (show j % m + d - m < m by omega),
      show j % m + d - m + m - j % m = d by omega, mod_eq_of_lt (by omega)]

/-! ### Segments -/

end

/-- The slots of the `len` items from the `k`-th on. -/
def segment (m k len : Nat) : List Nat := (List.range len).map fun t => (k + t) % m

theorem segment_add (m k a b : Nat) :
    segment m k (a + b) = segment m k a ++ segment m (k + a) b := by
  simp [segment, range_add, Function.comp_def, add_assoc]

theorem segment_one (m k : Nat) : segment m k 1 = [k % m] := rfl

variable {len : Nat}

/-- Only the first item's slot counts. -/
theorem segment_congr (h : j % m = k % m) : segment m j len = segment m k len := by
  refine map_congr_left fun t _ => ?_
  rw [add_mod, h, ← add_mod]

theorem lt_of_mem_segment (hm : 0 < m) (h : j ∈ segment m k len) : j < m := by
  obtain ⟨t, -, rfl⟩ := mem_map.mp h
  exact mod_lt _ hm

/-- A segment that does not overtake itself fits in one lap. -/
theorem length_le_of_nodup_segment (hm : 0 < m) (h : (segment m k len).Nodup) : len ≤ m := by
  have hsub : segment m k len ⊆ range m := fun j hj =>
    mem_range.mpr (lt_of_mem_segment hm hj)
  simpa [segment] using (subperm_of_subset h hsub).length_le

theorem head?_segment (m k len : Nat) : (segment m k (len + 1)).head? = some (k % m) := by
  rw [add_comm, segment_add]
  rfl

theorem getLast?_segment (m k len : Nat) :
    (segment m k (len + 1)).getLast? = some ((k + len) % m) := by
  simp [segment, range_succ]

/-- A slot is in a segment exactly if it lies between the first and the last slot, or, when
the segment wraps around, outside of what lies between them. -/
theorem mem_segment_iff (hk : k < m) (hlen : len < m) (hj : j < m) : j ∈ segment m k (len + 1) ↔
      if k ≤ (k + len) % m then k ≤ j ∧ j ≤ (k + len) % m else k ≤ j ∨ j ≤ (k + len) % m := by
  have hmem : j ∈ segment m k (len + 1) ↔ ∃ t ≤ len, (k + t) % m = j := by
    simp only [segment, mem_map, mem_range, Nat.lt_succ_iff]
  have hmod : ∀ t ≤ len, (k + t) % m = if k + t < m then k + t else k + t - m := by
    intro t ht
    by_cases hlt : k + t < m
    · rw [if_pos hlt, Nat.mod_eq_of_lt hlt]
    · rw [if_neg hlt, Nat.mod_eq_sub_mod (by omega), Nat.mod_eq_of_lt (by omega)]
  rw [hmem, hmod len le_rfl]
  constructor
  · rintro ⟨t, ht, rfl⟩
    rw [hmod t ht]
    split <;> split <;> split <;> omega
  · intro h
    -- The item in slot `j` is in the lap of the first one, or in the next one.
    by_cases hfirst : k ≤ j
    · refine ⟨j - k, ?_, ?_⟩
      · split at h <;> split at h <;> omega
      · rw [Nat.add_sub_cancel' hfirst, Nat.mod_eq_of_lt hj]
    · have ht : j + m - k ≤ len := by
        split at h <;> split at h <;> omega
      refine ⟨j + m - k, ht, ?_⟩
      rw [hmod _ ht, if_neg (by omega)]
      omega

/-! ### Contents -/

section Contents

variable {α : Type*} {buf items : List α} {x : α}

/-- The buffer keeps `items`, from the `k`-th item on, each in its slot. -/
structure Holds (buf : List α) (k : Nat) (items : List α) : Prop where
  fits : items.length ≤ buf.length
  slots : ∀ t x, items[t]? = some x → buf[(k + t) % buf.length]? = some x

theorem Holds.nil : Holds buf k [] := ⟨zero_le _, nofun⟩

/-- The next item goes to the slot behind the last one. -/
theorem Holds.push (h : Holds buf k items) (room : items.length < buf.length) :
    Holds (buf.set ((k + items.length) % buf.length) x) k (items ++ [x]) := by
  have hpos : 0 < buf.length := by omega
  have hlen : (items ++ [x]).length ≤ buf.length := by
    rw [length_append]
    exact room
  refine ⟨by rwa [length_set], fun t y hy => ?_⟩
  rw [length_set]
  rcases lt_or_ge t items.length with hlt | hge
  · rw [getElem?_append_left hlt] at hy
    have hne : (k + t) % buf.length ≠ (k + items.length) % buf.length :=
      slot_ne (by omega) (by omega)
    rw [getElem?_set_ne hne.symm]
    exact h.slots t y hy
  · obtain ⟨ht, -⟩ := List.getElem?_eq_some_iff.mp hy
    obtain rfl : t = items.length := by
      rw [length_append, length_singleton] at ht
      omega
    rw [getElem?_concat_length] at hy
    rw [getElem?_set_self (mod_lt _ hpos), hy]

theorem Holds.head (h : Holds buf k (x :: items)) : buf[k % buf.length]? = some x := h.slots 0 x rfl

theorem Holds.tail (h : Holds buf k (x :: items)) : Holds buf (k + 1) items := by
  refine ⟨le_of_succ_le h.fits, fun t y hy => ?_⟩
  rw [add_assoc, add_comm 1]
  exact h.slots (t + 1) y hy

end Contents

end RedoxDrivers.Lib
