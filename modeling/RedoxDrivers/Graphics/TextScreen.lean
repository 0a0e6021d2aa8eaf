import RedoxDrivers.Lib.Image
import RedoxDrivers.Lib.Rust

/-!
Scrolling a text screen (`TextScreen::write` in `graphics/console-draw/src/lib.rs`).

A `Move` event copies a rectangle of text cells, one row of pixels after the other. The rows of text
are taken from the top if they move up and from the bottom otherwise, so that no row is copied after
it has been overwritten: `move_eq` says that the copy is as good as one that is made at once.
-/

namespace RedoxDrivers.Graphics

open Lib Image List Nat

/-- `offscreen` is what the pointer points to: `width * height` pixels. -/
structure DisplayMap where
  offscreen : Nat → U32
  width : Nat
  height : Nat

/-- `ransid::Event::Move`, in text cells of 8 by 16 pixels. -/
structure Move where
  fromX : Nat
  fromY : Nat
  toX : Nat
  toY : Nat
  w : Nat
  h : Nat

/-- The row of text that is copied in the round `rawY`. -/
def Move.row (m : Move) (rawY : Nat) : Nat := if m.fromY > m.toY then rawY else m.h - rawY - 1

/-- The columns of the target. -/
abbrev Move.Spans (m : Move) (x : Nat) : Prop := m.toX * 8 ≤ x ∧ x < (m.toX + m.w) * 8

/-- The rectangles lie on a screen of this size. -/
structure Move.Inside (m : Move) (width height : Nat) : Prop where
  fromX : m.fromX + m.w ≤ width / 8
  fromY : m.fromY + m.h ≤ height / 16
  toX : m.toX + m.w ≤ width / 8
  toY : m.toY + m.h ≤ height / 16

namespace DisplayMap

/-- A row of pixels is copied with `ptr::copy`, which is right also if it overlaps itself. -/
def copyRow (m : Move) (map : DisplayMap) (row : Nat × Nat) : DisplayMap :=
  let offFrom := ((m.fromY + row.1) * 16 + row.2) * map.width + m.fromX * 8
  let offTo := ((m.toY + row.1) * 16 + row.2) * map.width + m.toX * 8
  let len := m.w * 8
  if offFrom + len ≤ map.width * map.height ∧ offTo + len ≤ map.width * map.height then
    { map with offscreen := store map.offscreen offTo (bytes map.offscreen offFrom len) }
  else map

/-- What `write` does for a `Move` event. -/
def move (map : DisplayMap) (m : Move) : DisplayMap :=
  (List.range m.h).foldl (fun map rawY =>
    (List.range 16).foldl (fun map pixelY => map.copyRow m (m.row rawY, pixelY)) map) map

def pixel (map : DisplayMap) (x y : Nat) : U32 := map.offscreen (y * map.width + x)

variable {map : DisplayMap} {m : Move} {x y : Nat} {row : Nat × Nat} {rows : List (Nat × Nat)}

theorem copyRow_size (row : Nat × Nat) :
    (map.copyRow m row).width = map.width ∧ (map.copyRow m row).height = map.height := by
  unfold copyRow
  dsimp only
  split
  all_goals exact ⟨rfl, rfl⟩

/-- A row of cells ends before the next row of pixels begins. -/
theorem row_le {width height x w y h : Nat} (hx : x + w ≤ width / 8) (hy : y + h ≤ height / 16)
    (hrow : row.1 < h ∧ row.2 < 16) : x * 8 + w * 8 ≤ width ∧
      ((y + row.1) * 16 + row.2) * width + x * 8 + w * 8 ≤ width * height := by
  have hwidth : x * 8 + w * 8 ≤ width := by omega
  have hle : ((y + row.1) * 16 + row.2 + 1) * width ≤ height * width :=
    mul_le_mul_right width (by omega)
  rw [succ_mul, mul_comm height] at hle
  exact ⟨hwidth, by omega⟩

/-- One row of pixels changes, between the edges of the rectangle. -/
theorem pixel_copyRow (inside : m.Inside map.width map.height) (hrow : row.1 < m.h ∧ row.2 < 16)
    (hx : x < map.width) : (map.copyRow m row).pixel x y =
      if m.Spans x ∧ y = (m.toY + row.1) * 16 + row.2 then
        map.pixel (x - m.toX * 8 + m.fromX * 8) ((m.fromY + row.1) * 16 + row.2)
      else map.pixel x y := by
  obtain ⟨-, hfrom⟩ := row_le inside.fromX inside.fromY hrow
  obtain ⟨hwidth, hto⟩ := row_le inside.toX inside.toY hrow
  simp only [copyRow, if_pos (And.intro hfrom hto), pixel]
  split
  · rename_i h
    obtain ⟨⟨hleft, hright⟩, rfl⟩ := h
    obtain ⟨i, rfl⟩ := Nat.exists_eq_add_of_le hleft
    have hi : i < m.w * 8 := by omega
    rw [← Nat.add_assoc, Nat.add_sub_cancel_left, Nat.add_comm i, ← Nat.add_assoc]
    exact Option.some.inj ((store_inside _ _ (by rwa [length_bytes])).trans (getElem?_bytes hi))
  · rename_i h
    rcases Nat.lt_trichotomy y ((m.toY + row.1) * 16 + row.2) with hy | rfl | hy
    · have hle := mul_le_mul_right map.width (succ_le_of_lt hy)
      rw [succ_mul] at hle
      exact store_of_lt (by omega)
    · rcases Nat.lt_or_ge x (m.toX * 8) with hleft | hleft
      · exact store_of_lt (by omega)
      · exact store_of_le (by rw [length_bytes]; omega)
    · have hle := mul_le_mul_right map.width (succ_le_of_lt hy)
      rw [succ_mul] at hle
      exact store_of_le (by rw [length_bytes]; omega)

/-- If no row is copied after it has been overwritten, the rows get what there was at the start. -/
theorem pixel_copyRows (inside : m.Inside map.width map.height)
    (hrows : ∀ row ∈ rows, row.1 < m.h ∧ row.2 < 16) (horder : rows.Pairwise fun row later =>
      (m.fromY + later.1) * 16 + later.2 ≠ (m.toY + row.1) * 16 + row.2)
    (hx : x < map.width) : (rows.foldl (copyRow m) map).pixel x y =
      if m.Spans x ∧ ∃ row ∈ rows, y = (m.toY + row.1) * 16 + row.2 then
        map.pixel (x - m.toX * 8 + m.fromX * 8) (y + m.fromY * 16 - m.toY * 16)
      else map.pixel x y := by
  induction rows generalizing map with
  | nil => simp
  | cons row rows ih =>
    obtain ⟨hwidth, hheight⟩ := map.copyRow_size (m := m) row
    obtain ⟨hrow, hrows⟩ := forall_mem_cons.mp hrows
    obtain ⟨hlater, horder⟩ := pairwise_cons.mp horder
    rw [foldl_cons, ih (by rwa [hwidth, hheight]) hrows horder (by rwa [hwidth]),
      pixel_copyRow inside hrow hx]
    by_cases hcols : m.Spans x
    · have hx' : x - m.toX * 8 + m.fromX * 8 < map.width := by
        have := inside.fromX
        omega
      by_cases hin : ∃ later ∈ rows, y = (m.toY + later.1) * 16 + later.2
      · rw [if_pos ⟨hcols, hin⟩, pixel_copyRow inside hrow hx', if_neg, if_pos]
        · obtain ⟨later, hmem, rfl⟩ := hin
          exact ⟨hcols, later, mem_cons_of_mem _ hmem, rfl⟩
        · obtain ⟨later, hmem, rfl⟩ := hin
          have := hlater later hmem
          omega
      · rw [if_neg fun h => hin h.2]
        simp only [exists_mem_cons_iff, hin, or_false]
        split
        · congr 1
          omega
        · rfl
    · simp only [hcols, false_and, if_false]

end DisplayMap

/-- The rows of pixels that `move` copies, in their order. -/
def Move.pixelRows (m : Move) : List (Nat × Nat) :=
  (List.range m.h).flatMap fun rawY => (List.range 16).map fun pixelY => (m.row rawY, pixelY)

theorem Move.mem_pixelRows {m : Move} {row : Nat × Nat} :
    row ∈ m.pixelRows ↔ row.1 < m.h ∧ row.2 < 16 := by
  obtain ⟨y, pixelY⟩ := row
  simp only [pixelRows, mem_flatMap, mem_map, mem_range, Prod.mk.injEq]
  constructor
  · rintro ⟨rawY, hraw, _, hpixel, rfl, rfl⟩
    unfold row
    split <;> omega
  · rintro ⟨hy, hpixel⟩
    refine ⟨m.row y, ?_, pixelY, hpixel, ?_, rfl⟩
    all_goals
      unfold row
      split <;> omega

/-- A row that moves up is read before the rows below it are written, and one that moves down before
the rows above it are. -/
theorem Move.pairwise_pixelRows (m : Move) : m.pixelRows.Pairwise fun row later =>
    (m.fromY + later.1) * 16 + later.2 ≠ (m.toY + row.1) * 16 + row.2 := by
  refine pairwise_flatMap.mpr ⟨fun rawY _ => pairwise_map.mpr ?_, ?_⟩
  · refine pairwise_lt_range.imp_of_mem fun hk hk' hlt => ?_
    rw [mem_range] at hk hk'
    omega
  · refine pairwise_lt_range.imp_of_mem fun hk hk' hlt row hrow later hlater => ?_
    simp only [mem_map, mem_range] at hk hk' hrow hlater
    obtain ⟨pixelY, hpixel, rfl⟩ := hrow
    obtain ⟨pixelY', hpixel', rfl⟩ := hlater
    simp only [row]
    split <;> omega

/-- **Scrolling.** For every screen and every `Move` whose rectangles lie on it, each pixel of the
target gets the value that its source had before, and all others stay as they are. -/
theorem DisplayMap.move_eq (map : DisplayMap) (m : Move) (inside : m.Inside map.width map.height)
    (x y : Nat) (hx : x < map.width) : (map.move m).pixel x y =
      if m.Spans x ∧ m.toY * 16 ≤ y ∧ y < (m.toY + m.h) * 16 then
        map.pixel (x - m.toX * 8 + m.fromX * 8) (y - m.toY * 16 + m.fromY * 16)
      else map.pixel x y := by
  have hmove : map.move m = m.pixelRows.foldl (copyRow m) map := by
    simp only [move, Move.pixelRows, foldl_flatMap, foldl_map]
  have htarget : (∃ row ∈ m.pixelRows, y = (m.toY + row.1) * 16 + row.2) ↔
      m.toY * 16 ≤ y ∧ y < (m.toY + m.h) * 16 := by
    simp only [Move.mem_pixelRows]
    constructor
    · rintro ⟨row, hrow, rfl⟩
      omega
    · intro hy
      refine ⟨(y / 16 - m.toY, y % 16), ⟨?_, ?_⟩, ?_⟩
      all_goals
        dsimp only
        omega
  rw [hmove, pixel_copyRows inside (fun _ => Move.mem_pixelRows.mp) m.pairwise_pixelRows hx]
  simp only [htarget]
  split
  · congr 1
    omega
  · rfl

/-- The lower two of three lines move up by one. -/
theorem DisplayMap.move_up :
    (move ⟨fun i => .ofNat 32 i, 8, 48⟩ ⟨0, 1, 0, 0, 1, 2⟩).pixel 3 5 = .ofNat 32 (21 * 8 + 3) :=
  move_eq ⟨fun i => .ofNat 32 i, 8, 48⟩ ⟨0, 1, 0, 0, 1, 2⟩
    ⟨by decide, by decide, by decide, by decide⟩ 3 5 (by decide)

end RedoxDrivers.Graphics
