import Mathlib.Data.List.DropRight
import RedoxDrivers.Lib.Rust

/-!
Rust strings, as far as path parsing needs them.

A `&str` is the list of its characters. Rust indexes it by bytes of its UTF-8 encoding, and a
slice that would cut a character in two panics; `splitAtByte` is that operation. Numbers are
read as `str::parse` reads unsigned integers (`parse`) and written as `{}` writes them
(`decimal`). What a numeral means is said apart from the reader, by `IsNumeral` and `value`.
-/

namespace RedoxDrivers.Lib.Text

open List Option Nat

/-! ### Bytes and slices -/

/-- `s.len()`: the bytes of a text in UTF-8. -/
def len : List Char → Nat
  | [] => 0
  | c :: s => c.utf8Size + len s

/-- `String::into_bytes`. -/
def intoBytes (s : List Char) : List U8 := (s.flatMap String.utf8EncodeChar).map UInt8.toBitVec

/-- The text cut at byte `n`, if a character starts or the text ends there. -/
def splitAtByte : Nat → List Char → Option (List Char × List Char)
  | 0, s => some ([], s)
  | _ + 1, [] => none
  | n + 1, c :: s =>
    if c.utf8Size ≤ n + 1 then
      (splitAtByte (n + 1 - c.utf8Size) s).map fun (a, b) => (c :: a, b)
    else none

section

variable (s : List Char) (n : Nat)

/-- `&s[..n]`. -/
def sliceTo : Except Fault (List Char) :=
  match splitAtByte n s with
  | some (a, _) => .ok a
  | none => .error .outOfBounds

/-- `&s[n..]`. -/
def sliceFrom : Except Fault (List Char) :=
  match splitAtByte n s with
  | some (_, b) => .ok b
  | none => .error .outOfBounds

/-- `s.is_char_boundary(n)`. -/
def IsBoundary : Prop := (splitAtByte n s).isSome = true

instance : Decidable (IsBoundary s n) :=
  inferInstanceAs (Decidable (_ = true))

/-- Every character takes one byte. -/
def IsAscii : Prop := ∀ c ∈ s, c.utf8Size = 1

end

section Slices

variable {s a b : List Char} {n : Nat}

theorem splitAtByte_eq_some (h : splitAtByte n s = some (a, b)) : s = a ++ b ∧ len a = n := by
  induction s generalizing n a with
  | nil =>
    cases n with
    | zero =>
      cases h
      exact ⟨rfl, rfl⟩
    | succ => cases h
  | cons c s ih =>
    cases n with
    | zero =>
      cases h
      exact ⟨rfl, rfl⟩
    | succ n =>
      rw [splitAtByte] at h
      split at h
      · rename_i hle
        obtain ⟨⟨a', b'⟩, hsplit, heq⟩ := map_eq_some_iff.mp h
        cases heq
        obtain ⟨rfl, hlen⟩ := ih hsplit
        refine ⟨rfl, ?_⟩
        rw [len, hlen]
        omega
      · cases h

theorem len_of_isAscii (h : IsAscii s) : len s = s.length := by
  induction s with
  | nil => rfl
  | cons c s ih =>
    rw [len, h c (by simp), ih fun d hd => h d (by simp [hd]), length_cons, add_comm]

theorem len_append (a b : List Char) : len (a ++ b) = len a + len b := by
  induction a with
  | nil => simp [len]
  | cons c a ih =>
    rw [cons_append, len, len, ih]
    omega

theorem len_pos (h : s ≠ []) : 0 < len s := by
  cases s with
  | nil => exact absurd rfl h
  | cons c s =>
    have := c.utf8Size_pos
    rw [len]
    omega

/-- An ASCII text in front is cut off at its length in characters. -/
theorem splitAtByte_of_isAscii (h : IsAscii a) : splitAtByte a.length (a ++ b) = some (a, b) := by
  induction a with
  | nil => simp [splitAtByte]
  | cons c a ih =>
    have hc : c.utf8Size = 1 := h c (by simp)
    rw [length_cons, cons_append, splitAtByte, if_pos (by omega), hc,
      Nat.add_sub_cancel, ih fun d hd => h d (by simp [hd])]
    rfl

theorem sliceTo_eq_ok : sliceTo s n = .ok a ↔ ∃ b, splitAtByte n s = some (a, b) := by
  unfold sliceTo
  rcases splitAtByte n s with _ | ⟨a', b'⟩
  · simp
  · simp [eq_comm]

theorem sliceFrom_eq_ok : sliceFrom s n = .ok b ↔ ∃ a, splitAtByte n s = some (a, b) := by
  unfold sliceFrom
  rcases splitAtByte n s with _ | ⟨a', b'⟩
  · simp
  · simp [eq_comm]

theorem isBoundary_iff : IsBoundary s n ↔ ∃ a b, splitAtByte n s = some (a, b) := by
  unfold IsBoundary
  rcases splitAtByte n s with _ | ⟨a', b'⟩
  · simp
  · simp

end Slices

/-! ### Searching and trimming -/

/-- `s.trim_matches(c)`. -/
def trimMatches (c : Char) (s : List Char) : List Char := (s.dropWhile (· == c)).rdropWhile (· == c)

/-- `s.chars().position(|x| x == c)`. -/
def position (c : Char) (s : List Char) : Option Nat := s.findIdx? (· == c)

/-- `s.split(c)`: the first piece, and those behind it. -/
def split (c : Char) : List Char → List Char × List (List Char)
  | [] => ([], [])
  | x :: s =>
    match split c s with
    | (first, rest) => if x = c then ([], first :: rest) else (x :: first, rest)

variable {c : Char} {s : List Char}

theorem trimMatches_of_not_mem (h : c ∉ s) : trimMatches c s = s := by
  have hne : ∀ x ∈ s, (x == c) = false := by
    intro x hx
    rw [beq_eq_false_iff_ne]
    rintro rfl
    exact h hx
  have hleft : s.dropWhile (· == c) = s := by
    cases s with
    | nil => rfl
    | cons x => rw [dropWhile_cons_of_neg (by simp [hne x (by simp)])]
  rw [trimMatches, hleft]
  cases s using reverseRecOn with
  | nil => rfl
  | append_singleton s x => exact rdropWhile_concat_neg _ _ _ (by simp [hne x (by simp)])

theorem position_eq_none : position c s = none ↔ c ∉ s := by
  unfold position
  rw [findIdx?_eq_none_iff]
  constructor
  · intro h hmem
    simpa using h c hmem
  · intro h x hx
    rw [beq_eq_false_iff_ne]
    rintro rfl
    exact h hx

/-- The first `c` of a text, with what stands before and after it. -/
theorem position_eq_some {n : Nat} : position c s = some n ↔
      ∃ pre post, s = pre ++ c :: post ∧ c ∉ pre ∧ pre.length = n := by
  unfold position
  induction s generalizing n with
  | nil => simp
  | cons x s ih =>
    rw [findIdx?_cons]
    by_cases hx : x = c
    · subst hx
      rw [if_pos (by simp)]
      constructor
      · intro h
        cases h
        exact ⟨[], s, rfl, by simp, rfl⟩
      · rintro ⟨pre, post, heq, hpre, rfl⟩
        cases pre with
        | nil => rfl
        | cons =>
          cases heq
          exact absurd (by simp) hpre
    · rw [if_neg (by simpa using hx), map_eq_some_iff]
      constructor
      · rintro ⟨m, hm, rfl⟩
        obtain ⟨pre, post, rfl, hpre, rfl⟩ := ih.mp hm
        exact ⟨x :: pre, post, rfl, by simp [hpre, Ne.symm hx], rfl⟩
      · rintro ⟨pre, post, heq, hpre, rfl⟩
        cases pre with
        | nil =>
          cases heq
          exact absurd rfl hx
        | cons y pre =>
          cases heq
          exact ⟨pre.length, ih.mpr ⟨pre, post, rfl, fun h => hpre (by simp [h]), rfl⟩, rfl⟩

/-! ### Numerals -/

/-- One decimal digit or more, and nothing else. -/
def IsNumeral (s : List Char) : Prop := s ≠ [] ∧ ∀ c ∈ s, c.isDigit = true

instance (s : List Char) : Decidable (IsNumeral s) := inferInstanceAs (Decidable (_ ∧ _))

/-- The number a numeral stands for. -/
def value (s : List Char) : Nat := Nat.ofDigitChars 10 s 0

/-- `{}` of an unsigned integer. -/
def decimal (n : Nat) : List Char := Nat.toDigits 10 n

/-- The digits of an unsigned integer below `bound`, with a check at each. -/
def parseDigits (bound : Nat) : List Char → Nat → Option Nat
  | [], acc => some acc
  | c :: s, acc =>
    if c.isDigit then
      let acc := 10 * acc + (c.toNat - '0'.toNat)
      if acc < bound then parseDigits bound s acc else none
    else none

/-- `s.parse::<uN>().ok()`, for integers below `bound`. A plus sign is allowed in front. -/
def parse (bound : Nat) : List Char → Option Nat
  | [] => none
  | ['+'] => none
  | '+' :: s => parseDigits bound s 0
  | s => parseDigits bound s 0

section Numerals

variable {s : List Char} {bound n acc : Nat}

theorem isNumeral_decimal (n : Nat) : IsNumeral (decimal n) :=
  ⟨toDigits_ne_nil, fun _ h => isDigit_of_mem_toDigits (by decide) (by decide) h⟩

theorem value_decimal (n : Nat) : value (decimal n) = n := ofDigitChars_ten_toDigits

/-- The value never falls while digits are read. -/
theorem le_ofDigitChars (s : List Char) (acc : Nat) : acc ≤ Nat.ofDigitChars 10 s acc := by
  induction s generalizing acc with
  | nil => exact le_refl acc
  | cons c s ih =>
    rw [ofDigitChars_cons]
    exact le_trans (by omega) (ih _)

/-- Each digit makes the number ten times as large, at most. -/
theorem ofDigitChars_lt (h : ∀ c ∈ s, c.isDigit = true) (acc : Nat) :
    Nat.ofDigitChars 10 s acc < (acc + 1) * 10 ^ s.length := by
  induction s generalizing acc with
  | nil => simp
  | cons c s ih =>
    have hdigit : c.toNat - '0'.toNat < 10 := by
      have hc := h c (by simp)
      rw [Char.isDigit, Bool.and_eq_true, decide_eq_true_eq, decide_eq_true_eq] at hc
      have hle : c.toNat ≤ 57 := UInt32.le_iff_toNat_le.mp hc.2
      have hzero : '0'.toNat = 48 := rfl
      omega
    have hstep := ih (fun x hx => h x (by simp [hx])) (10 * acc + (c.toNat - '0'.toNat))
    rw [ofDigitChars_cons, length_cons, pow_succ']
    calc Nat.ofDigitChars 10 s (10 * acc + (c.toNat - '0'.toNat))
        < (10 * acc + (c.toNat - '0'.toNat) + 1) * 10 ^ s.length := hstep
      _ ≤ (10 * (acc + 1)) * 10 ^ s.length := mul_le_mul_right _ (by omega)
      _ = (acc + 1) * (10 * 10 ^ s.length) := by rw [mul_comm 10, mul_assoc]

theorem IsNumeral.value_lt (h : IsNumeral s) : value s < 10 ^ s.length := by
  have hlt := ofDigitChars_lt h.2 0
  rwa [zero_add, one_mul] at hlt

theorem parseDigits_eq_some (hacc : acc < bound) : parseDigits bound s acc = some n ↔
    (∀ c ∈ s, c.isDigit = true) ∧ Nat.ofDigitChars 10 s acc = n ∧ n < bound := by
  induction s generalizing acc with
  | nil =>
    rw [parseDigits, ofDigitChars_nil, some_inj]
    constructor
    · rintro rfl
      exact ⟨nofun, rfl, hacc⟩
    · rintro ⟨-, rfl, -⟩
      rfl
  | cons c s ih =>
    rw [parseDigits, ofDigitChars_cons, forall_mem_cons]
    split
    · rename_i hc
      dsimp only
      split
      · rename_i hlt
        rw [ih hlt]
        simp [hc]
      · -- The number is too large already, and reading on does not make it smaller.
        rename_i hge
        have := le_ofDigitChars s (10 * acc + (c.toNat - '0'.toNat))
        constructor
        · intro h
          cases h
        · rintro ⟨-, rfl, hn⟩
          exact absurd (lt_of_le_of_lt this hn) hge
    · rename_i hc
      constructor
      · intro h
        cases h
      · rintro ⟨⟨hdigit, -⟩, -⟩
        exact absurd hdigit hc

theorem not_isDigit_plus : ¬ '+'.isDigit = true := by decide

/-- The reader takes the numerals of numbers below the bound, with or without a plus sign. -/
theorem parse_eq_some (hbound : 0 < bound) : parse bound s = some n ↔
    ∃ ds, (s = ds ∨ s = '+' :: ds) ∧ IsNumeral ds ∧ value ds = n ∧ n < bound := by
  unfold parse
  split
  · constructor
    · intro h
      cases h
    · rintro ⟨ds, rfl | h, hds, -⟩
      · exact absurd rfl hds.1
      · cases h
  · constructor
    · intro h
      cases h
    · rintro ⟨ds, rfl | h, hds, -⟩
      · exact absurd (hds.2 '+' (by simp)) not_isDigit_plus
      · cases h
        exact absurd rfl hds.1
  · rename_i ds hne
    rw [parseDigits_eq_some hbound]
    constructor
    · rintro ⟨hdigits, hvalue, hlt⟩
      refine ⟨ds, .inr rfl, ⟨?_, hdigits⟩, hvalue, hlt⟩
      rintro rfl
      exact hne rfl
    · rintro ⟨ds', rfl | h, hds, hvalue, hlt⟩
      · exact absurd (hds.2 '+' (by simp)) not_isDigit_plus
      · cases h
        exact ⟨hds.2, hvalue, hlt⟩
  · rename_i hnil hone hplus
    rw [parseDigits_eq_some hbound]
    constructor
    · rintro ⟨hdigits, hvalue, hlt⟩
      exact ⟨s, .inl rfl, ⟨hnil, hdigits⟩, hvalue, hlt⟩
    · rintro ⟨ds, rfl | rfl, hds, hvalue, hlt⟩
      · exact ⟨hds.2, hvalue, hlt⟩
      · exact absurd rfl (hplus ds)

theorem parseDigits_zero (c : Char) (s : List Char) (acc : Nat) :
    parseDigits 0 (c :: s) acc = none := by
  rw [parseDigits]
  split
  · exact if_neg (not_lt_zero _)
  · rfl

/-- There is a number below the bound if one is read. -/
theorem pos_of_parse (h : parse bound s = some n) : 0 < bound := by
  rw [Nat.pos_iff_ne_zero]
  rintro rfl
  unfold parse at h
  split at h
  · cases h
  · cases h
  · rename_i ds hne
    cases ds with
    | nil => exact hne rfl
    | cons =>
      rw [parseDigits_zero] at h
      cases h
  · rename_i hnil _ _
    cases s with
    | nil => exact hnil rfl
    | cons =>
      rw [parseDigits_zero] at h
      cases h

/-- Only the ten digits can stand in a numeral. -/
theorem IsNumeral.not_mem {c : Char} (h : IsNumeral s) (hc : ¬ c.isDigit = true) : c ∉ s :=
  fun hmem => hc (h.2 c hmem)

theorem utf8Size_of_isDigit {c : Char} (h : c.isDigit = true) : c.utf8Size = 1 := by
  have hle : c.val ≤ 57 := by
    rw [Char.isDigit, Bool.and_eq_true, decide_eq_true_eq, decide_eq_true_eq] at h
    exact h.2
  rw [Char.utf8Size]
  exact if_pos (UInt32.le_trans hle (by decide))

end Numerals

/-! ### Lines -/

/-- `s.lines()`, for a text whose last line is ended. -/
def lines : List Char → List (List Char)
  | [] => []
  | c :: s =>
    if c = '\n' then [] :: lines s
    else
      match lines s with
      | [] => [[c]]
      | l :: ls => (c :: l) :: ls

theorem lines_append {l s : List Char} (h : '\n' ∉ l) : lines (l ++ '\n' :: s) = l :: lines s := by
  induction l with
  | nil => simp [lines]
  | cons c l ih =>
    have hc : c ≠ '\n' := by
      rintro rfl
      exact h (by simp)
    rw [cons_append, lines, if_neg hc, ih fun hl => h (by simp [hl])]

/-- Texts written one a line are read back by `lines`. -/
theorem lines_flatMap {ls : List (List Char)} (h : ∀ l ∈ ls, '\n' ∉ l) :
    lines (ls.flatMap fun l => l ++ ['\n']) = ls := by
  induction ls with
  | nil => rfl
  | cons l ls ih =>
    rw [flatMap_cons, append_assoc, singleton_append, lines_append (h l (by simp)),
      ih fun x hx => h x (by simp [hx])]

end RedoxDrivers.Lib.Text
