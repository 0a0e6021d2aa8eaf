import Mathlib.Data.Nat.Log
import RedoxDrivers.Lib.Rust

/-!
Scatter-gather lists (`common/src/sgl.rs`).

`Sgl::new` maps its memory in pieces, each as large as the allocator and the rest allow. The pieces
are page multiples, so that every one of them starts before the end of the list: `new_tiles`.
-/

namespace RedoxDrivers.Common

open Lib

def PAGE_SIZE : Nat := 4096
def MAX_ALLOC_SIZE : Nat := 1 <<< 22

structure Chunk where
  offset : Nat
  phys : Nat
  virt : Nat
  length : Nat

/-- Each chunk comes with the length that was mapped for it. -/
structure Sgl where
  virt : Nat
  alignedLength : Nat
  unalignedLength : Nat
  chunks : List (Chunk × Nat)

namespace Sgl

def nextPowerOfTwo (n : Nat) : Nat := 2 ^ Nat.clog 2 n

/-- What is mapped next if `left` bytes are missing. -/
def chunkLength (left : Nat) : Nat :=
  let preferredChunkLength := nextPowerOfTwo (min left MAX_ALLOC_SIZE)
  if preferredChunkLength > left then preferredChunkLength / 2 else preferredChunkLength

section New

variable (virt : Nat) (virttophys : Nat → Nat) (unalignedLength alignedLength : Nat)

/-- The loop. `unaligned_length.get() - offset` underflows if a chunk starts behind the end. -/
def chunksFrom : Nat → Nat → Except Fault (List (Chunk × Nat))
  | 0, _ => .error .diverges
  | fuel + 1, offset =>
    if offset < alignedLength then do
      let chunkLength := chunkLength (alignedLength - offset)
      if unalignedLength < offset then .error .overflow
      else
        let rest ← chunksFrom fuel (offset + chunkLength)
        return (⟨offset, virttophys (virt + offset), virt + offset,
          min (unalignedLength - offset) chunkLength⟩, chunkLength) :: rest
    else return []

/-- `next_multiple_of(PAGE_SIZE)`. -/
def aligned (n : Nat) : Nat := (n + PAGE_SIZE - 1) / PAGE_SIZE * PAGE_SIZE

/-- `Sgl::new` for a length that is not zero, with mappings that succeed. -/
def new : Except Fault Sgl := do
  let chunks ← chunksFrom virt virttophys unalignedLength (aligned unalignedLength)
    (aligned unalignedLength + 1) 0
  return ⟨virt, aligned unalignedLength, unalignedLength, chunks⟩

end New

/-- Ranges `(offset, length)` that follow each other from `lo` to `hi`, none of them empty. -/
def Tiles : Nat → Nat → List (Nat × Nat) → Prop
  | lo, hi, [] => lo = hi
  | lo, hi, range :: ranges => range.1 = lo ∧ 0 < range.2 ∧ Tiles (lo + range.2) hi ranges

structure Tiled (lo : Nat) (sgl : Sgl) : Prop where
  chunks : Tiles lo sgl.unalignedLength (sgl.chunks.map fun c => (c.1.offset, c.1.length))
  mappings : Tiles lo sgl.alignedLength (sgl.chunks.map fun c => (c.1.offset, c.2))
  sizes : ∀ c ∈ sgl.chunks, c.2 ≤ MAX_ALLOC_SIZE ∧ ∃ k, c.2 = PAGE_SIZE * 2 ^ k

/-- Of a page multiple, a power of two is taken that is a page at least. -/
theorem chunkLength_eq {left : Nat} (hdvd : PAGE_SIZE ∣ left) (hpos : 0 < left) :
    chunkLength left ≤ left ∧ chunkLength left ≤ MAX_ALLOC_SIZE ∧
      ∃ k, chunkLength left = PAGE_SIZE * 2 ^ k := by
  have hpage : 2 ^ 12 ≤ left := Nat.le_of_dvd hpos hdvd
  have hle : 2 ^ 12 ≤ min left (2 ^ 22) := Nat.le_min.mpr ⟨hpage, by decide⟩
  have hmax : Nat.clog 2 (min left (2 ^ 22)) ≤ 22 :=
    Nat.clog_le_of_le_pow (Nat.min_le_right _ _)
  obtain ⟨k, hk, hsize⟩ : ∃ k ≤ 10, chunkLength left = 2 ^ (12 + k) ∧ 2 ^ (12 + k) ≤ left := by
    have hup := Nat.le_pow_clog (by decide : 1 < 2) (min left (2 ^ 22))
    have hbits := (Nat.pow_le_pow_iff_right (by decide : 1 < 2)).mp (hle.trans hup)
    change ∃ k ≤ 10, (if 2 ^ Nat.clog 2 (min left (2 ^ 22)) > left then _ else _) = _ ∧ _
    split
    · rename_i hgt
      -- The rest is below the limit and no power of two, so half of the power above it is taken.
      have hpow := Nat.pow_le_pow_right (by decide : 0 < 2) hmax
      have hdown := Nat.pow_pred_clog_lt_self (by decide : 1 < 2) (by omega : 1 < min left (2 ^ 22))
      have hbits' := (Nat.pow_lt_pow_iff_right (by decide : 1 < 2)).mp (hpage.trans_lt hgt)
      obtain ⟨k, hk⟩ := Nat.exists_eq_add_of_lt hbits'
      rw [hk, Nat.pred_succ] at hdown
      refine ⟨k, by omega, ?_, by omega⟩
      rw [nextPowerOfTwo, MAX_ALLOC_SIZE, show 1 <<< 22 = 2 ^ 22 by decide, hk, Nat.pow_succ,
        Nat.mul_div_cancel _ (by decide)]
    · obtain ⟨k, hk⟩ := Nat.exists_eq_add_of_le hbits
      exact ⟨k, by omega, congrArg (2 ^ ·) hk, hk ▸ Nat.not_lt.mp ‹_›⟩
  refine ⟨hsize.1 ▸ hsize.2, hsize.1 ▸ ?_, k, hsize.1.trans (Nat.pow_add _ _ _)⟩
  exact Nat.pow_le_pow_right (by decide) (by omega : 12 + k ≤ 22)

/-- What is mapped so far ends at a page boundary, and so before the last byte of the list. -/
theorem chunksFrom_tiled (virt : Nat) (virttophys : Nat → Nat) {n fuel offset : Nat}
    (hoffset : PAGE_SIZE ∣ offset) (hlt : offset < aligned n) (hfuel : aligned n < fuel + offset) :
    ∃ chunks, chunksFrom virt virttophys n (aligned n) fuel offset = .ok chunks ∧
      Tiled offset ⟨virt, aligned n, n, chunks⟩ := by
  have haligned : aligned n < n + PAGE_SIZE ∧ n ≤ aligned n := by
    unfold aligned PAGE_SIZE
    omega
  induction fuel generalizing offset with
  | zero => omega
  | succ fuel ih =>
    have hleft : PAGE_SIZE ∣ aligned n - offset := Nat.dvd_sub (Nat.dvd_mul_left _ _) hoffset
    have hpage := Nat.le_of_dvd (Nat.sub_pos_of_lt hlt) hleft
    obtain ⟨hfits, hmax, k, hk⟩ := chunkLength_eq hleft (Nat.sub_pos_of_lt hlt)
    have hpos : 0 < chunkLength (aligned n - offset) :=
      hk ▸ Nat.mul_pos (by decide) (Nat.two_pow_pos k)
    rw [chunksFrom, if_pos hlt]
    dsimp only
    generalize hlen : chunkLength (aligned n - offset) = len at *
    rw [if_neg (by omega)]
    rcases Nat.eq_or_lt_of_le hfits with hlast | hmore
    · -- The last chunk is cut to the length of the list.
      obtain ⟨fuel, rfl⟩ := Nat.exists_eq_succ_of_ne_zero (by omega : fuel ≠ 0)
      rw [chunksFrom, if_neg (by omega)]
      have hcut : offset + min (n - offset) len = n := by omega
      have hend : offset + len = aligned n := by omega
      exact ⟨_, rfl, ⟨rfl, by dsimp only; omega, hcut⟩, ⟨rfl, hpos, hend⟩,
        List.forall_mem_singleton.mpr ⟨hmax, k, hk⟩⟩
    · have hnext : PAGE_SIZE ∣ offset + len := Nat.dvd_add hoffset (hk ▸ Nat.dvd_mul_right _ _)
      have hrest := Nat.le_of_dvd (by omega) (Nat.dvd_sub (Nat.dvd_mul_left _ _) hnext :
        PAGE_SIZE ∣ aligned n - (offset + len))
      obtain ⟨chunks, hchunks, htiled⟩ := ih hnext (by omega) (by omega)
      rw [hchunks]
      refine ⟨_, rfl, ⟨rfl, by dsimp only; omega, ?_⟩, ⟨rfl, hpos, htiled.mappings⟩,
        List.forall_mem_cons.mpr ⟨⟨hmax, k, hk⟩, htiled.sizes⟩⟩
      dsimp only
      rw [Nat.min_eq_right (by omega)]
      exact htiled.chunks

/-- **Scatter-gather lists.** For every length, if all mappings succeed, `Sgl::new` returns chunks
that tile the list, from mappings that tile its pages. No offset or length is above
`aligned_length`, and `preferred_chunk_length` is not above `MAX_ALLOC_SIZE`. -/
theorem new_tiles (virt : Nat) (virttophys : Nat → Nat) (n : Nat) (hpos : 1 ≤ n) :
    ∃ sgl, new virt virttophys n = .ok sgl ∧ Tiled 0 sgl ∧ sgl.unalignedLength = n ∧
      sgl.alignedLength = aligned n := by
  have hlt : 0 < aligned n := by
    unfold aligned PAGE_SIZE
    omega
  obtain ⟨chunks, hchunks, htiled⟩ :=
    chunksFrom_tiled virt virttophys (Nat.dvd_zero _) hlt (Nat.lt_succ_self _)
  exact ⟨_, by rw [new, hchunks]; rfl, htiled, rfl, rfl⟩

/-- A list of six pages and a byte. The power of two above what is left is halved twice: the chunks
are of four pages, of two, and of one of which a byte is used. -/
theorem new_tiles_seven_pages : ∃ sgl, new 0x100000 id 24577 = .ok sgl ∧ Tiled 0 sgl ∧
    sgl.unalignedLength = 24577 ∧ sgl.alignedLength = aligned 24577 :=
  new_tiles 0x100000 id 24577 (by decide)

example : (chunkLength 28672, chunkLength 12288, chunkLength 4096) = (16384, 8192, 4096) := by
  decide

end Sgl

end RedoxDrivers.Common
