import RedoxDrivers.Lib.Endian
import RedoxDrivers.Lib.Signed

/-!
Damage rectangles (`graphics/graphics-ipc/src/legacy.rs`, `graphics/vesad/src/screen.rs`).

A client writes a list of rectangles, and the driver copies what they cover of the client's
offscreen picture to the framebuffer. The rectangles are clipped to the screen first and then
copied row by row with raw pointers. `Memory` has the pixels behind the framebuffer's pointer, with
a log of the pixels that are read and written.

`clip` cuts the height to what there is of the screen. It subtracts that from the width, however, and
does not cut at the left and at the top. `damage_exact_iff` says for which rectangles this is right.
-/

namespace RedoxDrivers.Graphics

open Lib List Nat

structure Damage where
  x : I32
  y : I32
  width : I32
  height : I32
deriving DecidableEq, Repr

namespace Damage

/-- The field of four bytes at offset `i`. -/
def fieldAt (bs : List U8) (i : Nat) : I32 := BitVec.ofNat 32 (Endian.ofLe (Endian.field bs i 4))

def ofBytes (bs : List U8) : Damage := ⟨fieldAt bs 0, fieldAt bs 4, fieldAt bs 8, fieldAt bs 12⟩

/-- The rectangles in a buffer. Bytes that are left over at its end are not looked at. -/
def listOfBytes (buf : List U8) : List Damage :=
  (List.range (buf.length / 16)).map fun i => ofBytes (Endian.field buf (16 * i) 16)

/-! ### Clipping -/

def clipWidth (p : Profile) (x w width : I32) : Except Fault I32 := do
  let right ← p.addI32 x w
  if width.toInt < right.toInt then do
    let room ← p.subI32 width x
    p.subI32 w (minI32 w room)
  else .ok w

def clipHeight (p : Profile) (y h height : I32) : Except Fault I32 := do
  let bottom ← p.addI32 y h
  if height.toInt < bottom.toInt then do
    let room ← p.subI32 height y
    .ok (minI32 h room)
  else .ok h

def clip (p : Profile) (self : Damage) (width height : I32) : Except Fault Damage := do
  let x := minI32 self.x width
  let w ← clipWidth p x self.width width
  let y := minI32 self.y height
  let h ← clipHeight p y self.height height
  .ok ⟨x, y, w, h⟩

/-- The pixels of a rectangle. -/
def Covers (d : Damage) (px py : Int) : Prop :=
  d.x.toInt ≤ px ∧ px < d.x.toInt + d.width.toInt ∧
    d.y.toInt ≤ py ∧ py < d.y.toInt + d.height.toInt

instance (d : Damage) (px py : Int) : Decidable (d.Covers px py) :=
  inferInstanceAs (Decidable (_ ∧ _ ∧ _ ∧ _))

/-- `d'` is the part of `d` on a screen of this size. -/
def IsIntersection (d d' : Damage) (width height : Int) : Prop :=
  ∀ px py, d'.Covers px py ↔
    d.Covers px py ∧ 0 ≤ px ∧ px < width ∧ 0 ≤ py ∧ py < height

/-- No sum or difference leaves the range, in the direction of one axis. -/
def NoOverflow (start length size : Int) : Prop :=
  InI32 (min start size + length) ∧
    (size < min start size + length → InI32 (size - min start size))

/-- There is nothing to copy, or the rectangle starts on the screen and ends on it too, to the
right. The other case is that as much of it is to the right of the screen as is on it. -/
def Sensible (d : Damage) (width height : Int) : Prop :=
  d.width.toInt ≤ 0 ∨ d.height.toInt ≤ 0 ∨ height ≤ d.y.toInt ∨
    (0 ≤ d.x.toInt ∧ 0 ≤ d.y.toInt ∧
      (d.x.toInt + d.width.toInt ≤ width ∨ d.width.toInt = 2 * (width - d.x.toInt)))

section Clipping

variable {p : Profile} {x w width y h height start length size c : I32} {d d' : Damage}

/-- Both axes are cut if the far edge is off the screen. They differ in `cut`, which gets the room
there is on the screen. -/
theorem cut_of_noOverflow {cut : I32 → Except Fault I32} (hsum : InI32 (start.toInt + length.toInt))
    (hroom : size.toInt < start.toInt + length.toInt → InI32 (size.toInt - start.toInt)) (p : Profile) :
    (p.addI32 start length >>= fun edge =>
      if size.toInt < edge.toInt then p.subI32 size start >>= cut else .ok length) =
      if size.toInt < start.toInt + length.toInt then cut (size - start) else .ok length := by
  rw [p.addI32_of_inI32 hsum, ok_bind, toInt_add_of_inI32 hsum]
  by_cases hover : size.toInt < start.toInt + length.toInt
  · rw [if_pos hover, if_pos hover, p.subI32_of_inI32 (hroom hover), ok_bind]
  · rw [if_neg hover, if_neg hover]

theorem noOverflow_of_cut {cut : I32 → Except Fault I32}
    (hcut : (Profile.debug.addI32 start length >>= fun edge =>
      if size.toInt < edge.toInt then Profile.debug.subI32 size start >>= cut else .ok length) = .ok c) :
    InI32 (start.toInt + length.toInt) ∧
      (size.toInt < start.toInt + length.toInt → InI32 (size.toInt - start.toInt)) := by
  obtain ⟨edge, hadd, hrest⟩ := bind_eq_ok.mp hcut
  have hsum := Profile.inI32_of_addI32 hadd
  refine ⟨hsum, fun hover => ?_⟩
  rw [Profile.addI32_of_inI32 hsum] at hadd
  cases hadd
  rw [toInt_add_of_inI32 hsum, if_pos hover] at hrest
  obtain ⟨room, hsub, -⟩ := bind_eq_ok.mp hrest
  exact Profile.inI32_of_subI32 hsub

theorem clipWidth_of_noOverflow (hx : x.toInt ≤ width.toInt) (hsum : InI32 (x.toInt + w.toInt))
    (hroom : width.toInt < x.toInt + w.toInt → InI32 (width.toInt - x.toInt)) :
    ∃ c, (∀ p, clipWidth p x w width = .ok c) ∧
      c.toInt = if width.toInt < x.toInt + w.toInt then x.toInt + w.toInt - width.toInt
        else w.toInt := by
  by_cases hover : width.toInt < x.toInt + w.toInt
  · have hmin : (minI32 w (width - x)).toInt = width.toInt - x.toInt := by
      rw [toInt_minI32, toInt_sub_of_inI32 (hroom hover), Int.min_eq_right (by omega)]
    have hrest : InI32 (w.toInt - (minI32 w (width - x)).toInt) := by
      have := inI32_toInt w
      unfold InI32 at *
      omega
    refine ⟨w - minI32 w (width - x), fun p => ?_, ?_⟩
    · rw [clipWidth, cut_of_noOverflow hsum hroom, if_pos hover, p.subI32_of_inI32 hrest]
    · rw [toInt_sub_of_inI32 hrest, hmin, if_pos hover]
      omega
  · refine ⟨w, fun p => ?_, (if_neg hover).symm⟩
    rw [clipWidth, cut_of_noOverflow hsum hroom, if_neg hover]

theorem clipHeight_of_noOverflow (hsum : InI32 (y.toInt + h.toInt))
    (hroom : height.toInt < y.toInt + h.toInt → InI32 (height.toInt - y.toInt)) :
    ∃ c, (∀ p, clipHeight p y h height = .ok c) ∧
      c.toInt = if height.toInt < y.toInt + h.toInt then height.toInt - y.toInt else h.toInt := by
  by_cases hover : height.toInt < y.toInt + h.toInt
  · refine ⟨minI32 h (height - y), fun p => ?_, ?_⟩
    · rw [clipHeight, cut_of_noOverflow hsum hroom, if_pos hover]
    · rw [toInt_minI32, toInt_sub_of_inI32 (hroom hover), Int.min_eq_right (by omega), if_pos hover]
  · refine ⟨h, fun p => ?_, (if_neg hover).symm⟩
    rw [clipHeight, cut_of_noOverflow hsum hroom, if_neg hover]

/-- The fields of the clipped rectangle, as numbers. -/
structure IsClip (d d' : Damage) (sw sh : Int) : Prop where
  x : d'.x.toInt = min d.x.toInt sw
  y : d'.y.toInt = min d.y.toInt sh
  width : d'.width.toInt = if sw < d'.x.toInt + d.width.toInt
    then d'.x.toInt + d.width.toInt - sw else d.width.toInt
  height : d'.height.toInt = if sh < d'.y.toInt + d.height.toInt
    then sh - d'.y.toInt else d.height.toInt

/-- If nothing overflows, `clip` succeeds in either profile. -/
theorem clip_of_noOverflow (hx : NoOverflow d.x.toInt d.width.toInt width.toInt)
    (hy : NoOverflow d.y.toInt d.height.toInt height.toInt) :
    ∃ d', (∀ p, d.clip p width height = .ok d') ∧ d.IsClip d' width.toInt height.toInt := by
  rw [NoOverflow, ← toInt_minI32] at hx hy
  obtain ⟨w, hw, hwidth⟩ :=
    clipWidth_of_noOverflow (by rw [toInt_minI32]; exact Int.min_le_right _ _) hx.1 hx.2
  obtain ⟨h, hh, hheight⟩ := clipHeight_of_noOverflow hy.1 hy.2
  refine ⟨⟨minI32 d.x width, minI32 d.y height, w, h⟩, fun p => ?_,
    ⟨toInt_minI32 _ _, toInt_minI32 _ _, hwidth, hheight⟩⟩
  rw [clip, hw p, ok_bind]
  dsimp only
  rw [hh p, ok_bind]

theorem noOverflow_of_clip (hclip : d.clip .debug width height = .ok d') :
    NoOverflow d.x.toInt d.width.toInt width.toInt ∧
      NoOverflow d.y.toInt d.height.toInt height.toInt := by
  obtain ⟨w, hw, hrest⟩ := bind_eq_ok.mp hclip
  obtain ⟨h, hh, -⟩ := bind_eq_ok.mp hrest
  rw [NoOverflow, NoOverflow, ← toInt_minI32, ← toInt_minI32]
  exact ⟨noOverflow_of_cut hw, noOverflow_of_cut hh⟩

/-- The clipped rectangle of a sensible one has its pixels on the screen. -/
theorem isIntersection_of_sensible {sw sh : Int} (hclip : d.IsClip d' sw sh) (h : d.Sensible sw sh) :
    d.IsIntersection d' sw sh := by
  obtain ⟨hx, hy, hwidth, hheight⟩ := hclip
  intro px py
  unfold Covers
  by_cases hw : d.width.toInt ≤ 0
  · omega
  by_cases hh : d.height.toInt ≤ 0
  · omega
  by_cases hbelow : sh ≤ d.y.toInt
  · omega
  obtain ⟨hleft, htop, hright⟩ := ((h.resolve_left hw).resolve_left hh).resolve_left hbelow
  omega

/-- The top left corner of the clipped rectangle tells where the rectangle starts, and the right
edges of the screen and of the clipped rectangle where it ends. -/
theorem sensible_of_isIntersection {sw sh : Int} (hclip : d.IsClip d' sw sh)
    (h : d.IsIntersection d' sw sh) : d.Sensible sw sh := by
  obtain ⟨hx, hy, hwidth, hheight⟩ := hclip
  by_cases hw : d.width.toInt ≤ 0
  · exact .inl hw
  by_cases hh : d.height.toInt ≤ 0
  · exact .inr (.inl hh)
  by_cases hbelow : sh ≤ d.y.toInt
  · exact .inr (.inr (.inl hbelow))
  obtain ⟨-, hleft, hlt, htop, -⟩ :=
    (h d'.x.toInt d'.y.toInt).mp ⟨by omega, by omega, by omega, by omega⟩
  refine .inr (.inr (.inr ⟨by omega, by omega, ?_⟩))
  by_cases hright : d.x.toInt + d.width.toInt ≤ sw
  · exact .inl hright
  · obtain ⟨-, -, hend, -⟩ := (h (d'.x.toInt + d'.width.toInt - 1) d'.y.toInt).mp
      ⟨by omega, by omega, by omega, by omega⟩
    obtain ⟨-, hscreen, -⟩ := (h (sw - 1) d'.y.toInt).mpr
      ⟨⟨by omega, by omega, by omega, by omega⟩, by omega, by omega, htop, by omega⟩
    exact .inr (by omega)

end Clipping

end Damage

open Damage

/-! ### Copying -/

/-- The offscreen picture of a client. `pixels` is what is behind its pointer. -/
structure GraphicScreen where
  width : Nat
  height : Nat
  pixels : Nat → U32

/-- What is behind the framebuffer's pointer, and the pixels of the picture that were read and of
the framebuffer that were written, by their offsets. -/
structure Memory where
  onscreen : Nat → U32
  reads : List Nat
  writes : List Nat

/-- `ptr::copy` of `n` pixels. -/
def Memory.copy (m : Memory) (offscreen : Nat → U32) (src dst n : Nat) : Memory where
  onscreen j := if dst ≤ j ∧ j < dst + n then offscreen (src + (j - dst)) else m.onscreen j
  reads := m.reads ++ List.range' src n
  writes := m.writes ++ List.range' dst n

namespace GraphicScreen

variable (screen : GraphicScreen) (stride : Nat)

/-- The loop over the rows that are left, from two pointers on. -/
def copyRows (src dst n : Nat) : Nat → Memory → Memory
  | 0, m => m
  | rows + 1, m =>
    copyRows (src + screen.width) (dst + stride) n rows (m.copy screen.pixels src dst n)

/-- One turn of the loop of `sync`. A negative number becomes zero when it is converted. -/
def syncRect (p : Profile) (m : Memory) (d : Damage) : Except Fault Memory := do
  let width ← i32OfUsize screen.width
  let height ← i32OfUsize screen.height
  let d ← d.clip p width height
  let startX := d.x.toInt.toNat
  let startY := d.y.toInt.toNat
  .ok (screen.copyRows stride (startY * screen.width + startX) (startY * stride + startX)
    d.width.toInt.toNat d.height.toInt.toNat m)

def sync (p : Profile) (m : Memory) (rects : List Damage) : Except Fault Memory :=
  rects.foldlM (screen.syncRect stride p) m

/-- `m'` comes from `m` by copying the pixels in `P` of the picture to their places in the
framebuffer, and in no other way. -/
structure Copied (P : Nat → Nat → Prop) (m m' : Memory) : Prop where
  copied : ∀ px py, P px py →
    m'.onscreen (py * stride + px) = screen.pixels (py * screen.width + px)
  kept : ∀ j, (∀ px py, P px py → j ≠ py * stride + px) → m'.onscreen j = m.onscreen j
  reads : ∀ i ∈ m'.reads, i ∈ m.reads ∨ ∃ px py, P px py ∧ i = py * screen.width + px
  writes : ∀ j ∈ m'.writes, j ∈ m.writes ∨ ∃ px py, P px py ∧ j = py * stride + px

section Copying

variable {screen stride} {P Q R : Nat → Nat → Prop} {m m' m'' : Memory}

theorem Copied.refl (h : ∀ px py, ¬ P px py) (m : Memory) : screen.Copied stride P m m where
  copied px py hp := absurd hp (h px py)
  kept _ _ := rfl
  reads _ := .inl
  writes _ := .inl

theorem pixel_unique {px py px' py' : Nat} (h : px < stride) (h' : px' < stride)
    (heq : py * stride + px = py' * stride + px') : px = px' ∧ py = py' := by
  have hpos : 0 < stride := by omega
  have hpx : px = px' := by
    have := congrArg (· % stride) heq
    simpa [mul_add_mod_of_lt, mod_eq_of_lt, h, h', add_comm, mul_comm] using this
  subst hpx
  exact ⟨rfl, eq_of_mul_eq_mul_right hpos (by omega)⟩

/-- One copy after another. -/
theorem Copied.trans (h : screen.Copied stride P m m') (h' : screen.Copied stride Q m' m'')
    (hP : ∀ px py, P px py → px < stride) (hQ : ∀ px py, Q px py → px < stride)
    (hR : ∀ px py, R px py ↔ P px py ∨ Q px py) : screen.Copied stride R m m'' where
  copied px py hr := by
    by_cases hq : Q px py
    · exact h'.copied px py hq
    · have hp := ((hR px py).mp hr).resolve_right hq
      rw [h'.kept, h.copied px py hp]
      intro px' py' hq' heq
      obtain ⟨rfl, rfl⟩ := pixel_unique (hP px py hp) (hQ px' py' hq') heq
      exact hq hq'
  kept j hj := by
    rw [h'.kept j fun px py hq => hj px py ((hR px py).mpr (.inr hq)),
      h.kept j fun px py hp => hj px py ((hR px py).mpr (.inl hp))]
  reads i hi := by
    rcases h'.reads i hi with hi | ⟨px, py, hq, rfl⟩
    · rcases h.reads i hi with hi | ⟨px, py, hp, rfl⟩
      · exact .inl hi
      · exact .inr ⟨px, py, (hR px py).mpr (.inl hp), rfl⟩
    · exact .inr ⟨px, py, (hR px py).mpr (.inr hq), rfl⟩
  writes j hj := by
    rcases h'.writes j hj with hj | ⟨px, py, hq, rfl⟩
    · rcases h.writes j hj with hj | ⟨px, py, hp, rfl⟩
      · exact .inl hj
      · exact .inr ⟨px, py, (hR px py).mpr (.inl hp), rfl⟩
    · exact .inr ⟨px, py, (hR px py).mpr (.inr hq), rfl⟩

/-- A row of `n` pixels. -/
theorem copied_row (screen : GraphicScreen) (stride x y n : Nat) (m : Memory) :
    screen.Copied stride (fun px py => py = y ∧ x ≤ px ∧ px < x + n) m
      (m.copy screen.pixels (y * screen.width + x) (y * stride + x) n) where
  copied := by
    rintro px py ⟨rfl, hle, hlt⟩
    refine (if_pos ⟨by omega, by omega⟩).trans (congrArg screen.pixels ?_)
    omega
  kept j hj := by
    refine if_neg fun hin => ?_
    exact hj (x + (j - (y * stride + x))) y ⟨rfl, by omega, by omega⟩ (by omega)
  reads i hi := by
    rcases mem_append.mp hi with hi | hi
    · exact .inl hi
    · obtain ⟨k, hk, rfl⟩ := mem_range'.mp hi
      exact .inr ⟨x + k, y, ⟨rfl, by omega, by omega⟩, by omega⟩
  writes j hj := by
    rcases mem_append.mp hj with hj | hj
    · exact .inl hj
    · obtain ⟨k, hk, rfl⟩ := mem_range'.mp hj
      exact .inr ⟨x + k, y, ⟨rfl, by omega, by omega⟩, by omega⟩

/-- The rows of a rectangle that does not reach over the end of a row of the framebuffer. -/
theorem copied_copyRows {x n rows : Nat} (hfits : 0 < n → 0 < rows → x + n ≤ stride) (y : Nat)
    (m : Memory) :
    screen.Copied stride (fun px py => (x ≤ px ∧ px < x + n) ∧ y ≤ py ∧ py < y + rows) m
      (screen.copyRows stride (y * screen.width + x) (y * stride + x) n rows m) := by
  induction rows generalizing y m with
  | zero => exact .refl (fun px py h => by omega) m
  | succ rows ih =>
    have hsrc : y * screen.width + x + screen.width = (y + 1) * screen.width + x := by
      rw [Nat.add_mul]
      omega
    have hdst : y * stride + x + stride = (y + 1) * stride + x := by
      rw [Nat.add_mul]
      omega
    rw [copyRows, hsrc, hdst]
    refine (copied_row screen stride x y n m).trans (ih (fun hn _ => hfits hn (by omega)) (y + 1) _)
      (fun px py h => by omega) (fun px py h => by omega) fun px py => ?_
    omega

theorem Copied.congr (h : screen.Copied stride P m m') (hPQ : ∀ px py, P px py ↔ Q px py) :
    screen.Copied stride Q m m' := by
  have heq : P = Q := funext fun px => funext fun py => propext (hPQ px py)
  rwa [← heq]

end Copying

/-! ### The whole list -/

/-- The pixels of the screen in a rectangle of the list. -/
def Damaged (rects : List Damage) (px py : Nat) : Prop :=
  px < screen.width ∧ py < screen.height ∧ ∃ d ∈ rects, d.Covers px py

/-- `clip` does not overflow for a rectangle, and returns its intersection with the screen. -/
def Clips (d : Damage) : Prop :=
  ∃ width height, i32OfUsize screen.width = .ok width ∧ i32OfUsize screen.height = .ok height ∧
    ∃ d', (∀ p, d.clip p width height = .ok d') ∧ d.IsIntersection d' screen.width screen.height

/-- **Damage is confined and exact.** Every rectangle is clipped right, and then the pixels in them,
and no others, are read from the picture and written to the framebuffer. -/
structure Exact (onscreen : Nat → U32) (rects : List Damage) : Prop where
  clips : ∀ d ∈ rects, screen.Clips d
  syncs : ∃ m', (∀ p, screen.sync stride p ⟨onscreen, [], []⟩ rects = .ok m') ∧
    screen.Copied stride (screen.Damaged rects) ⟨onscreen, [], []⟩ m'

/-- The size of the screen fits in an `i32`, and so do the numbers that `clip` computes; and the
rectangle is a sensible one. -/
def Fits (d : Damage) : Prop :=
  screen.width < 2147483648 ∧ screen.height < 2147483648 ∧
    NoOverflow d.x.toInt d.width.toInt screen.width ∧
    NoOverflow d.y.toInt d.height.toInt screen.height ∧
    d.Sensible screen.width screen.height

instance (d : Damage) : Decidable (screen.Fits d) := by
  unfold Fits NoOverflow Sensible
  infer_instance

section List

variable {screen stride} {d d' : Damage} {rects : List Damage} {onscreen : Nat → U32}

theorem damaged_singleton {px py : Nat} : screen.Damaged [d] px py ↔
    px < screen.width ∧ py < screen.height ∧ d.Covers px py := by
  simp [Damaged]

theorem clips_iff : screen.Clips d ↔ screen.Fits d := by
  constructor
  · rintro ⟨width, height, hwidth, hheight, d', hclip, hinter⟩
    obtain ⟨hx, hy⟩ := noOverflow_of_clip (hclip .debug)
    obtain ⟨d'', hclip', hfields⟩ := clip_of_noOverflow hx hy
    obtain rfl : d' = d'' := Except.ok.inj ((hclip .debug).symm.trans (hclip' .debug))
    rw [toInt_of_i32OfUsize hwidth, toInt_of_i32OfUsize hheight] at *
    exact ⟨(i32OfUsize_eq_ok.mp hwidth).1, (i32OfUsize_eq_ok.mp hheight).1, hx, hy,
      sensible_of_isIntersection hfields hinter⟩
  · rintro ⟨hw, hh, hx, hy, hsensible⟩
    have hwidth : i32OfUsize screen.width = .ok (BitVec.ofNat 32 screen.width) := if_pos hw
    have hheight : i32OfUsize screen.height = .ok (BitVec.ofNat 32 screen.height) := if_pos hh
    have hsw := toInt_of_i32OfUsize hwidth
    have hsh := toInt_of_i32OfUsize hheight
    rw [← hsw] at hx
    rw [← hsh] at hy
    obtain ⟨d', hclip, hfields⟩ := clip_of_noOverflow hx hy
    rw [hsw, hsh] at hfields
    exact ⟨_, _, hwidth, hheight, d', hclip, isIntersection_of_sensible hfields hsensible⟩

section

variable (hstride : screen.width ≤ stride)

include hstride

/-- The pixels that are copied for a rectangle that is clipped right. -/
theorem copied_clipped (hinter : d.IsIntersection d' screen.width screen.height) (m : Memory) :
    screen.Copied stride (screen.Damaged [d]) m
      (screen.copyRows stride (d'.y.toInt.toNat * screen.width + d'.x.toInt.toNat)
        (d'.y.toInt.toNat * stride + d'.x.toInt.toNat) d'.width.toInt.toNat
        d'.height.toInt.toNat m) := by
  -- A clipped rectangle that is not empty has its corners on the screen.
  have hcorner : 0 < d'.width.toInt.toNat → 0 < d'.height.toInt.toNat →
      0 ≤ d'.x.toInt ∧ 0 ≤ d'.y.toInt ∧ d'.x.toInt + d'.width.toInt ≤ screen.width := by
    intro hn hrows
    obtain ⟨-, hleft, -, htop, -⟩ := (hinter d'.x.toInt d'.y.toInt).mp (by unfold Covers; omega)
    obtain ⟨-, -, hright, -⟩ := (hinter (d'.x.toInt + d'.width.toInt - 1) d'.y.toInt).mp
      (by unfold Covers; omega)
    exact ⟨hleft, htop, by omega⟩
  refine (copied_copyRows (fun hn hrows => ?_) _ m).congr fun px py => ?_
  · omega
  · have hpixel := hinter px py
    rw [damaged_singleton]
    constructor
    · rintro ⟨hx, hy⟩
      obtain ⟨hcovers, -, hw, -, hh⟩ := hpixel.mp (by unfold Covers; omega)
      exact ⟨by omega, by omega, hcovers⟩
    · rintro ⟨hw, hh, hcovers⟩
      obtain ⟨hx, hx', hy, hy'⟩ := hpixel.mpr ⟨hcovers, by omega, by omega, by omega, by omega⟩
      omega

theorem syncRect_of_clips (hclips : screen.Clips d) (m : Memory) :
    ∃ m', (∀ p, screen.syncRect stride p m d = .ok m') ∧
      screen.Copied stride (screen.Damaged [d]) m m' := by
  obtain ⟨width, height, hwidth, hheight, d', hclip, hinter⟩ := hclips
  refine ⟨_, fun p => ?_, copied_clipped hstride hinter m⟩
  rw [syncRect, hwidth, ok_bind, hheight, ok_bind, hclip p, ok_bind]

/-- A list of rectangles that are clipped right, from the first on. -/
theorem sync_of_clips (hclips : ∀ d ∈ rects, screen.Clips d) (m : Memory) :
    ∃ m', (∀ p, screen.sync stride p m rects = .ok m') ∧
      screen.Copied stride (screen.Damaged rects) m m' := by
  have hlt : ∀ rects px py, screen.Damaged rects px py → px < stride :=
    fun _ _ _ h => Nat.lt_of_lt_of_le h.1 hstride
  induction rects generalizing m with
  | nil => exact ⟨m, fun _ => rfl, .refl (fun px py h => by simp [Damaged] at h) m⟩
  | cons d rects ih =>
    obtain ⟨hd, hrest⟩ := forall_mem_cons.mp hclips
    obtain ⟨mid, hmid, hfirst⟩ := syncRect_of_clips hstride hd m
    obtain ⟨m', hm', hcopied⟩ := ih hrest mid
    refine ⟨m', fun p => ?_, hfirst.trans hcopied (hlt _) (hlt _) fun px py => ?_⟩
    · rw [sync, foldlM_cons, hmid p, ok_bind]
      exact hm' p
    · rw [damaged_singleton, Damaged, Damaged, exists_mem_cons_iff, ← and_or_left,
        ← and_or_left]

end

end List

/-- **Exact damage.** Rectangles are clipped and copied right exactly if each of them is sensible and
does not make `clip` overflow. -/
theorem damage_exact_iff (screen : GraphicScreen) (stride : Nat) (hstride : screen.width ≤ stride)
    (onscreen : Nat → U32) (rects : List Damage) :
    screen.Exact stride onscreen rects ↔ ∀ d ∈ rects, screen.Fits d := by
  constructor
  · intro h d hd
    exact clips_iff.mp (h.clips d hd)
  · intro h
    have hclips : ∀ d ∈ rects, screen.Clips d := fun d hd => clips_iff.mpr (h d hd)
    exact ⟨hclips, sync_of_clips hstride hclips _⟩

/-- Two pixels next to each other, both damaged. -/
theorem both_pixels_exact : 2 ≤ 2 ∧
    Exact ⟨2, 1, fun _ => 1⟩ 2 (fun _ => 0) [⟨0, 0, 2, 1⟩] :=
  ⟨by decide, (damage_exact_iff ⟨2, 1, fun _ => 1⟩ 2 (by decide) (fun _ => 0) [⟨0, 0, 2, 1⟩]).mpr
    (by decide)⟩

/-- A rectangle that is one pixel wider than the screen is clipped to one pixel, and the second pixel
of the screen keeps its old value. -/
theorem wide_rectangle_not_exact : clip .debug ⟨0, 0, 3, 1⟩ 2 1 = .ok ⟨0, 0, 1, 1⟩ ∧
      (sync ⟨2, 1, fun _ => 1⟩ 2 .debug ⟨fun _ => 0, [], []⟩ [⟨0, 0, 3, 1⟩]).map
        (fun m => (m.onscreen 0, m.onscreen 1)) = .ok (1, 0) ∧
      ¬ Exact ⟨2, 1, fun _ => 1⟩ 2 (fun _ => 0) [⟨0, 0, 3, 1⟩] := by
  refine ⟨by decide, by decide, fun h => ?_⟩
  exact absurd (clips_iff.mp (h.clips ⟨0, 0, 3, 1⟩ (by simp))) (by decide)

end GraphicScreen

end RedoxDrivers.Graphics
