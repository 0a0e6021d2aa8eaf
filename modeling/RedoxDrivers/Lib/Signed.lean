import Mathlib.Algebra.Group.Int.Defs
import RedoxDrivers.Lib.Rust

/-!
Signed integers of 32 bits.

An `i32` is a bit vector that is read with `toInt`. Sums and differences that leave the range are
overflows, with the same two outcomes as for unsigned integers. A computation that succeeds in a
`debug` build has not overflowed anywhere, so it gives the same in a `release` build.
-/

namespace RedoxDrivers.Lib

abbrev I32 := BitVec 32

/-- The numbers an `i32` can hold. -/
def InI32 (n : Int) : Prop := -2147483648 ≤ n ∧ n ≤ 2147483647

instance (n : Int) : Decidable (InI32 n) := inferInstanceAs (Decidable (_ ∧ _))

/-- `a + b`. -/
def Profile.addI32 (p : Profile) (a b : I32) : Except Fault I32 :=
  if p = .debug ∧ ¬ InI32 (a.toInt + b.toInt) then .error .overflow else .ok (a + b)

/-- `a - b`. -/
def Profile.subI32 (p : Profile) (a b : I32) : Except Fault I32 :=
  if p = .debug ∧ ¬ InI32 (a.toInt - b.toInt) then .error .overflow else .ok (a - b)

/-- `cmp::min(a, b)`. -/
def minI32 (a b : I32) : I32 := if a.toInt ≤ b.toInt then a else b

/-- `n.try_into().unwrap()`, from a `usize`. -/
def i32OfUsize (n : Nat) : Except Fault I32 :=
  if n < 2147483648 then .ok (BitVec.ofNat 32 n) else .error .unwrapNone

section Signed

variable {p : Profile} {a b c : I32}

theorem inI32_toInt (a : I32) : InI32 a.toInt := by
  have hle := a.le_toInt
  have hlt := a.toInt_lt
  exact ⟨by simpa using hle, by omega⟩

@[simp] theorem toInt_minI32 (a b : I32) : (minI32 a b).toInt = min a.toInt b.toInt := by
  unfold minI32
  split
  · rename_i h
    rw [Int.min_eq_left h]
  · rename_i h
    rw [Int.min_eq_right (by omega)]

theorem Profile.addI32_of_inI32 (h : InI32 (a.toInt + b.toInt)) (p : Profile) :
    p.addI32 a b = .ok (a + b) :=
  if_neg fun hover => hover.2 h

theorem Profile.subI32_of_inI32 (h : InI32 (a.toInt - b.toInt)) (p : Profile) :
    p.subI32 a b = .ok (a - b) :=
  if_neg fun hover => hover.2 h

theorem toInt_add_of_inI32 (h : InI32 (a.toInt + b.toInt)) : (a + b).toInt = a.toInt + b.toInt := by
  obtain ⟨hle, hge⟩ := h
  rw [BitVec.toInt_add, Int.bmod_eq_of_le (by omega) (by omega)]

theorem toInt_sub_of_inI32 (h : InI32 (a.toInt - b.toInt)) : (a - b).toInt = a.toInt - b.toInt := by
  obtain ⟨hle, hge⟩ := h
  rw [BitVec.toInt_sub, Int.bmod_eq_of_le (by omega) (by omega)]

theorem Profile.inI32_of_addI32 (h : Profile.debug.addI32 a b = .ok c) :
    InI32 (a.toInt + b.toInt) := by
  unfold Profile.addI32 at h
  split at h
  · cases h
  · rename_i hover
    exact not_not.mp fun hrange => hover ⟨rfl, hrange⟩

theorem Profile.inI32_of_subI32 (h : Profile.debug.subI32 a b = .ok c) :
    InI32 (a.toInt - b.toInt) := by
  unfold Profile.subI32 at h
  split at h
  · cases h
  · rename_i hover
    exact not_not.mp fun hrange => hover ⟨rfl, hrange⟩

theorem i32OfUsize_eq_ok {n : Nat} :
    i32OfUsize n = .ok a ↔ n < 2147483648 ∧ BitVec.ofNat 32 n = a := by
  unfold i32OfUsize
  split
  all_goals
    rename_i h
    simp [h]

theorem toInt_of_i32OfUsize {n : Nat} (h : i32OfUsize n = .ok a) : a.toInt = n := by
  obtain ⟨hlt, rfl⟩ := i32OfUsize_eq_ok.mp h
  rw [BitVec.toInt_ofNat', Int.bmod_eq_of_le (by omega) (by omega)]

end Signed

end RedoxDrivers.Lib
