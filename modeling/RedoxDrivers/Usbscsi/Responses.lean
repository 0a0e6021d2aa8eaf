import Mathlib.Logic.Relation
import RedoxDrivers.Usbscsi.Scsi

/-!
The mode pages in the response to MODE SENSE (`usbscsid/src/scsi/cmds.rs`).

The pages are cut off the buffer one by one. A page is taken to be one byte shorter than it is, and
one with a sub-page code ends the iteration: `iterates_iff`.
-/

namespace RedoxDrivers.Usbscsi

open Lib Lib.Endian List Nat

namespace Cmds

/-! ### Mode pages -/

/-- What `ModePageIterRaw` yields in all. Every slice takes a byte at least. -/
def rawFrom : Nat → List U8 → Except Fault (List (List U8))
  | 0, _ => .error .diverges
  | fuel + 1, buffer => do
    match ← nextRaw buffer with
    | none => return []
    | some (page, rest) => return page :: (← rawFrom fuel rest)

def rawPages (buffer : List U8) : Except Fault (List (List U8)) :=
  rawFrom (buffer.length + 1) buffer

/-- A mode page, in the `page_0` or the `sub_page` format. -/
def IsPage (page : List U8) : Prop :=
  (∃ code len data, page = code :: len :: data ∧ code &&& (1 <<< 6) = 0 ∧ data.length = len.toNat) ∨
    ∃ code sub hi lo data, page = code :: sub :: hi :: lo :: data ∧ code &&& (1 <<< 6) ≠ 0 ∧
      data.length = ofBe [hi, lo]

/-- What the iterator should do with a buffer. -/
structure Iterates (buffer : List U8) : Prop where
  slices : ∃ slices, rawPages buffer = .ok slices ∧ slices.flatten <+: buffer
  pages : ∀ pages, (∀ page ∈ pages, IsPage page) → pages.flatten = buffer →
    rawPages buffer = .ok pages

/-- The buffer starts with a page without sub-page, and goes on after as many bytes as its length byte says
and one more. -/
structure Next (buffer rest : List U8) : Prop where
  two_le : 2 ≤ buffer.length
  page_0 : u8At buffer 0 &&& (1 <<< 6) = 0
  whole : (u8At buffer 1).toNat + 1 ≤ buffer.length
  rest_eq : rest = buffer.drop ((u8At buffer 1).toNat + 1)

/-- The code of a page with a sub-page, and one more byte. -/
def Stuck (buffer : List U8) : Prop := buffer.length = 2 ∧ u8At buffer 0 &&& (1 <<< 6) ≠ 0

variable {buffer page rest : List U8} {fuel : Nat}

theorem Next.nextRaw_eq (h : Next buffer rest) :
    nextRaw buffer = .ok (some (buffer.take ((u8At buffer 1).toNat + 1), rest)) := by
  obtain ⟨htwo, hpage, hwhole, rfl⟩ := h
  exact (if_neg (by omega)).trans ((if_pos hpage).trans (if_neg (by omega)))

theorem Next.length_lt (h : Next buffer rest) : rest.length < buffer.length := by
  have := h.two_le
  rw [h.rest_eq, length_drop]
  omega

theorem nextRaw_eq_some (h : nextRaw buffer = .ok (some (page, rest))) :
    page ++ rest = buffer ∧ Next buffer rest := by
  unfold nextRaw at h
  split at h
  · cases h
  · split at h
    · dsimp only at h
      split at h
      · cases h
      · cases h
        exact ⟨take_append_drop _ _, by omega, ‹_›, by omega, rfl⟩
    · split at h <;> cases h

theorem nextRaw_eq_error : (∃ fault, nextRaw buffer = .error fault) ↔ Stuck buffer := by
  unfold nextRaw Stuck
  split
  · exact iff_of_false (fun ⟨_, h⟩ => by cases h) fun h => by omega
  · split
    · rename_i hcode
      refine iff_of_false (fun ⟨_, h⟩ => ?_) fun h => h.2 hcode
      dsimp only at h
      split at h <;> cases h
    · split
      · exact iff_of_true ⟨_, rfl⟩ ⟨by omega, ‹_›⟩
      · exact iff_of_false (fun ⟨_, h⟩ => by cases h) fun h => by omega

/-- The slices are consecutive, unless the iterator comes to a rest that it panics on. -/
theorem rawFrom_iff (hfuel : buffer.length < fuel) :
    (∃ slices, rawFrom fuel buffer = .ok slices ∧ slices.flatten <+: buffer) ↔
      ∀ rest, Relation.ReflTransGen Next buffer rest → ¬ Stuck rest := by
  induction fuel generalizing buffer with
  | zero => exact absurd hfuel (not_lt_zero _)
  | succ fuel ih =>
    rcases hnext : nextRaw buffer with fault | _ | ⟨page, next⟩
    · refine iff_of_false (fun ⟨slices, h, _⟩ => ?_) fun h =>
        h buffer .refl (nextRaw_eq_error.mp ⟨fault, hnext⟩)
      rw [rawFrom, hnext] at h
      cases h
    · refine iff_of_true ⟨[], by rw [rawFrom, hnext]; rfl, nil_prefix⟩ fun rest hrest hstuck =>
        ?_
      rcases hrest.cases_head with rfl | ⟨_, h, _⟩
      · obtain ⟨fault, h⟩ := nextRaw_eq_error.mpr hstuck
        cases hnext.symm.trans h
      · cases hnext.symm.trans h.nextRaw_eq
    · obtain ⟨rfl, hgoes⟩ := nextRaw_eq_some hnext
      have hraw (slices) : rawFrom (fuel + 1) (page ++ next) = .ok slices ↔
          ∃ rest, rawFrom fuel next = .ok rest ∧ page :: rest = slices := by
        rw [rawFrom, hnext]
        change (rawFrom fuel next >>= fun rest => Except.ok (page :: rest)) = _ ↔ _
        simp only [bind_eq_ok, Except.ok.injEq]
      have hflat (rest : List (List U8)) :
          (page :: rest).flatten <+: page ++ next ↔ rest.flatten <+: next :=
        prefix_append_right_inj page
      simp only [hraw, ← exists_and_right, and_assoc]
      rw [exists_comm]
      simp only [exists_and_left, exists_eq_left', hflat]
      rw [ih (lt_of_lt_of_le hgoes.length_lt (le_of_lt_succ hfuel))]
      constructor
      · intro h rest hrest hstuck
        rcases hrest.cases_head with rfl | ⟨_, h', hrest⟩
        · obtain ⟨fault, h'⟩ := nextRaw_eq_error.mpr hstuck
          cases hnext.symm.trans h'
        · rw [h'.rest_eq.trans hgoes.rest_eq.symm] at hrest
          exact h rest hrest hstuck
      · exact fun h rest hrest => h rest (.head hgoes hrest)

/-- No page is yielded as it is. -/
theorem rawPages_ne {pages : List (List U8)} (h : IsPage page) :
    rawPages (page :: pages).flatten ≠ .ok (page :: pages) := by
  rw [flatten_cons, rawPages, rawFrom]
  rcases h with ⟨code, len, data, rfl, hcode, hlen⟩ | ⟨code, sub, hi, lo, data, rfl, hcode, hlen⟩
  · have hlong : ¬ (code :: len :: data ++ pages.flatten).length < len.toNat + 1 := by
      simp only [length_append, length_cons]
      omega
    have hnext : nextRaw (code :: len :: data ++ pages.flatten) =
        .ok (some ((code :: len :: data ++ pages.flatten).take (len.toNat + 1),
          (code :: len :: data ++ pages.flatten).drop (len.toNat + 1))) :=
      (if_neg (by simp)).trans ((if_pos hcode).trans (if_neg hlong))
    rw [hnext]
    intro h
    change (rawFrom _ _ >>= fun rest => Except.ok (_ :: rest)) = _ at h
    obtain ⟨rest, -, h⟩ := bind_eq_ok.mp h
    have hpage := congrArg List.length (List.cons.inj (Except.ok.inj h)).1
    rw [length_take, length_cons, length_cons] at hpage
    omega
  · have hnext : nextRaw (code :: sub :: hi :: lo :: data ++ pages.flatten) = .ok none :=
      (if_neg (by simp)).trans ((if_neg hcode).trans (if_neg (by simp)))
    rw [hnext]
    nofun

/-- **Mode pages.** The iterator does what it should with a buffer exactly if it does not come to a
rest of two bytes of which the first is the code of a page with a sub-page, and the buffer is not
made up of mode pages (or is empty). -/
theorem iterates_iff (buffer : List U8) :
    Iterates buffer ↔ (∀ rest, Relation.ReflTransGen Next buffer rest → ¬ Stuck rest) ∧
      ∀ pages, (∀ page ∈ pages, IsPage page) → pages.flatten = buffer → pages = [] := by
  refine ⟨fun h => ⟨(rawFrom_iff (lt_succ_self _)).mp h.slices, fun pages hpages hflat => ?_⟩,
    fun h => ⟨(rawFrom_iff (lt_succ_self _)).mpr h.1, fun pages hpages hflat => ?_⟩⟩
  · cases pages with
    | nil => rfl
    | cons page pages =>
      have hraw := h.pages _ hpages hflat
      rw [← hflat] at hraw
      exact absurd hraw (rawPages_ne (hpages page mem_cons_self))
  · obtain rfl := h.2 pages hpages hflat
    rw [← hflat]
    rfl

/-- A caching page with no parameters is yielded without its length. -/
theorem caching_page_cut : IsPage [8, 0] ∧ rawPages [8, 0] = .ok [[8]] :=
  ⟨.inl ⟨8, 0, [], rfl, rfl, rfl⟩, rfl⟩

end Cmds

end RedoxDrivers.Usbscsi
