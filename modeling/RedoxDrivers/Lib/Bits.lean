import Mathlib.Data.Nat.Bitwise
import RedoxDrivers.Lib.Rust

/-!
Fields in machine words.

`setBits` puts a field into a word and leaves the rest. `getLsbD_setBits` says what each bit is then, and
the facts about whole fields follow from it. The two `and_…` lemmas are the usual tests with a mask: for a
multiple of a power of two, and for a number below one.
-/

namespace RedoxDrivers.Lib

open Nat BitVec

section Fields

variable {w n n' lo lo' : Nat} {x : BitVec w} {v : BitVec n}

/-- The word with the bits from `lo` on replaced by `v`. -/
def setBits (lo : Nat) (v : BitVec n) (x : BitVec w) : BitVec w :=
  (x &&& ~~~((BitVec.allOnes n).setWidth w <<< lo)) ||| (v.setWidth w <<< lo)

theorem getLsbD_setBits {i : Nat} (hi : i < w) : (setBits lo v x).getLsbD i =
    if lo ≤ i ∧ i < lo + n then v.getLsbD (i - lo) else x.getLsbD i := by
  by_cases hlo : lo ≤ i
  · by_cases hn : i < lo + n
    · have hin : i - lo < n := by omega
      simp [setBits, hi, hlo, hn, hin, not_lt.mpr hlo]
    · have hin : ¬ i - lo < n := by omega
      simp [setBits, hi, hn, hin, not_lt.mpr hlo, getLsbD_of_ge v (i - lo) (by omega)]
  · simp [setBits, hi, hlo, Nat.lt_of_not_le hlo]

theorem getElem_setBits {i : Nat} (hi : i < w) : (setBits lo v x)[i] =
    if lo ≤ i ∧ i < lo + n then v.getLsbD (i - lo) else x[i] := by
  rw [← getLsbD_eq_getElem hi, ← getLsbD_eq_getElem hi, getLsbD_setBits hi]

end Fields

section Masks

variable {w k : Nat}

theorem and_low_eq_iff (x : BitVec w) (hk : k ≤ w) :
    x &&& BitVec.ofNat w (2 ^ k - 1) = x ↔ x.toNat < 2 ^ k := by
  have hlt : 2 ^ k - 1 < 2 ^ w := by
    have hpow := Nat.pow_le_pow_right (n := 2) (by omega) hk
    have hpos := Nat.two_pow_pos k
    omega
  rw [← toNat_inj, toNat_and, toNat_ofNat_of_lt hlt,
    and_two_pow_sub_one_eq_mod]
  constructor
  · intro h
    rw [← h]
    exact Nat.mod_lt _ (Nat.two_pow_pos k)
  · exact mod_eq_of_lt

theorem and_high_eq_iff (x : BitVec w) :
    x &&& (BitVec.allOnes w <<< k) = x ↔ x.toNat % 2 ^ k = 0 := by
  constructor
  · intro h
    apply eq_of_testBit_eq
    intro i
    rw [testBit_mod_two_pow, zero_testBit]
    by_cases hik : i < k
    · have hbit := congrArg (BitVec.getLsbD · i) h
      simp [hik] at hbit
      simp [hik, testBit_toNat, hbit]
    · simp [hik]
  · intro h
    apply eq_of_getLsbD_eq
    intro i hi
    by_cases hik : i < k
    · have hbit := congrArg (Nat.testBit · i) h
      simp [testBit_mod_two_pow, hik, testBit_toNat] at hbit
      simp [hik, hbit]
    · simp [hi, hik]

end Masks

end RedoxDrivers.Lib
