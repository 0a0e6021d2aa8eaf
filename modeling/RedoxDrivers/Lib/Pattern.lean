import Mathlib.Data.List.DropRight
import Mathlib.Data.List.Infix
import RedoxDrivers.Lib.Rust

/-!
Regular expressions of the simplest kind, and what they capture.

A pattern is a sequence of pieces: a fixed text, a run of digits, or one of a few texts. The last two are
capturing groups. It has to reach the end of the text (`$`), and to begin at its start if it is anchored
(`^`). `Finds` says which texts it is found in, and with which captures.

An engine is whatever captures something exactly if there is something to be found (`Engine`). Which of
several ways it prefers is left open: if there is only one way to read a text then it does not matter
(`captures_eq_some`), and `append_run_inj` is the usual reason why there is only one: a run of digits
behind a character that is none.
-/

namespace RedoxDrivers.Lib

open List

inductive Piece where
  | text (t : List Char)
  | digits (lo hi : Nat)
  | oneOf (alts : List (List Char))
deriving DecidableEq, Repr

structure Regex where
  anchored : Bool
  pieces : List Piece
deriving DecidableEq, Repr

section Matching

variable (digit : Char → Bool)

/-- `ds` is what a piece for digits can match. -/
structure Run (lo hi : Nat) (ds : List Char) : Prop where
  lo_le : lo ≤ ds.length
  le_hi : ds.length ≤ hi
  digits : ∀ c ∈ ds, digit c = true

/-- The text is what the pieces say, with these captures. -/
def Reads : List Piece → List Char → List (List Char) → Prop
  | [], s, caps => s = [] ∧ caps = []
  | .text t :: ps, s, caps => ∃ rest, s = t ++ rest ∧ Reads ps rest caps
  | .digits lo hi :: ps, s, caps =>
    ∃ ds rest caps', Run digit lo hi ds ∧ s = ds ++ rest ∧ caps = ds :: caps' ∧ Reads ps rest caps'
  | .oneOf alts :: ps, s, caps =>
    ∃ t rest caps', t ∈ alts ∧ s = t ++ rest ∧ caps = t :: caps' ∧ Reads ps rest caps'

/-- The pattern is found in the text, behind `pre`. -/
def Regex.Finds (r : Regex) (s : List Char) (caps : List (List Char)) : Prop :=
  ∃ pre t, s = pre ++ t ∧ (r.anchored = true → pre = []) ∧ Reads digit r.pieces t caps

/-- A regex engine. `finds` and `complete` are what is taken for granted of it. -/
structure Engine where
  captures : Regex → List Char → Option (List (List Char))
  finds : ∀ {r s caps}, captures r s = some caps → r.Finds digit s caps
  complete : ∀ {r s caps}, r.Finds digit s caps → (captures r s).isSome

def Engine.isMatch {digit : Char → Bool} (engine : Engine digit) (r : Regex) (s : List Char) : Bool :=
  (engine.captures r s).isSome

open Classical in
instance : Nonempty (Engine digit) :=
  ⟨{ captures r s := if h : ∃ caps, r.Finds digit s caps then some h.choose else none
     finds := fun {r s caps} h => by
      split at h
      · rename_i hfinds
        exact Option.some.inj h ▸ hfinds.choose_spec
      · cases h
     complete := fun h => by rw [dif_pos ⟨_, h⟩]; rfl }⟩

end Matching

section Facts

variable {digit : Char → Bool} {engine : Engine digit} {s : List Char} {caps : List (List Char)} {r : Regex}

/-- If there is one way to find the pattern then it is the one that is captured. -/
theorem Engine.captures_eq_some (h : r.Finds digit s caps)
    (unique : ∀ caps', r.Finds digit s caps' → caps' = caps) : engine.captures r s = some caps := by
  obtain ⟨caps', hcaps'⟩ := Option.isSome_iff_exists.mp (engine.complete h)
  rw [hcaps', unique caps' (engine.finds hcaps')]

theorem Engine.isMatch_of_captures (h : engine.captures r s = some caps) : engine.isMatch r s = true := by
  rw [isMatch, h]
  rfl

theorem Engine.isMatch_eq_true_iff : engine.isMatch r s = true ↔ ∃ caps, r.Finds digit s caps := by
  constructor
  · intro h
    obtain ⟨caps, hcaps⟩ := Option.isSome_iff_exists.mp h
    exact ⟨caps, engine.finds hcaps⟩
  · rintro ⟨caps, h⟩
    exact engine.complete h

/-- Where a run of digits at the end begins. -/
theorem append_run_inj {x y ds es : List Char} {a b : Char} (hx : x.getLast? = some a)
    (ha : digit a = false) (hy : y.getLast? = some b) (hb : digit b = false)
    (hds : ∀ c ∈ ds, digit c = true) (hes : ∀ c ∈ es, digit c = true) (h : x ++ ds = y ++ es) :
    x = y ∧ ds = es := by
  -- The longer one of `x` and `y` would end in a digit.
  rcases append_eq_append_iff.mp h with ⟨z, rfl, rfl⟩ | ⟨z, rfl, rfl⟩
  · cases z using reverseRecOn with
    | nil => simp
    | append_singleton z c =>
      obtain rfl : c = b := by simpa [← append_assoc] using hy
      rw [hds c (by simp)] at hb
      cases hb
  · cases z using reverseRecOn with
    | nil => simp
    | append_singleton z c =>
      obtain rfl : c = a := by simpa [← append_assoc] using hx
      rw [hes c (by simp)] at ha
      cases ha

end Facts

end RedoxDrivers.Lib
