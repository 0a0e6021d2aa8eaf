import Mathlib.Data.List.Basic
import Mathlib.Data.List.Nodup
import Mathlib.Data.List.Perm.Basic

/-!
A list of owners, each holding a share of some items.

The items in use are `owners.flatMap share`. When they are pairwise distinct an
item determines its owner (`eq_of_mem_share`), and replacing an owner by one that
holds nothing releases exactly its share (`flatMap_release`). Replacing it by one
with the same share, or of the same kind, changes nothing in the sum
(`flatMap_replace`, `countP_replace`).
-/

namespace RedoxDrivers.Lib

open List

variable {α β : Type*} {share : α → List β} {owners : List α} {i j : Nat} {a b : α}

/-- In a list without duplicates an item has one owner. -/
theorem eq_of_mem_share (nodup : (owners.flatMap share).Nodup) (ha : owners[i]? = some a)
    (hb : owners[j]? = some b) {x : β} (hxa : x ∈ share a) (hxb : x ∈ share b) : i = j := by
  obtain ⟨-, apart⟩ := nodup_flatMap.mp nodup
  rw [pairwise_iff_getElem] at apart
  obtain ⟨hi, rfl⟩ := List.getElem?_eq_some_iff.mp ha
  obtain ⟨hj, rfl⟩ := List.getElem?_eq_some_iff.mp hb
  rcases Nat.lt_trichotomy i j with hlt | heq | hgt
  · exact absurd hxb (apart i j hi hj hlt hxa)
  · exact heq
  · exact absurd hxa (apart j i hj hi hgt hxb)

/-- An owner replaced by one with the same share. -/
theorem flatMap_replace (share : α → List β) (ha : owners[i]? = some a) (same : share b = share a) :
    (owners.set i b).flatMap share = owners.flatMap share := by
  induction owners generalizing i with
  | nil => simp at ha
  | cons o owners ih =>
    cases i with
    | zero =>
      obtain rfl : o = a := by simpa using ha
      simp [same]
    | succ i =>
      have := ih (i := i) (by simpa using ha)
      simp [this]

/-- An owner replaced by one that holds nothing: its share is released. -/
theorem flatMap_release (share : α → List β) (ha : owners[i]? = some a) (empty : share b = []) :
    (share a ++ (owners.set i b).flatMap share).Perm (owners.flatMap share) := by
  induction owners generalizing i with
  | nil => simp at ha
  | cons o owners ih =>
    cases i with
    | zero =>
      obtain rfl : o = a := by simpa using ha
      simp [empty]
    | succ i =>
      have hrest := ih (i := i) (by simpa using ha)
      simp only [set_cons_succ, flatMap_cons]
      rw [← append_assoc]
      refine (perm_append_comm.append_right _).trans ?_
      rw [append_assoc]
      exact hrest.append_left _

/-- An owner replaced by one of the same kind. -/
theorem countP_replace (kind : α → Bool) (ha : owners[i]? = some a) (same : kind b = kind a) :
    (owners.set i b).countP kind = owners.countP kind := by
  obtain ⟨hi, rfl⟩ := List.getElem?_eq_some_iff.mp ha
  rw [countP_set hi, same]
  cases hkind : kind owners[i] with
  | false => simp
  | true =>
    have hpos : 0 < owners.countP kind :=
      countP_pos_iff.mpr ⟨owners[i], getElem_mem hi, hkind⟩
    simp only [if_true]
    omega

end RedoxDrivers.Lib
