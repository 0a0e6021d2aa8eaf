import RedoxDrivers.Lib.Act

/-!
Reading any range of bytes of a disk (`block_read` in `storage/driver-block/src/lib.rs`).

The range is copied block by block through a scratch buffer. `blockRead_eq` says what that comes
to: every block that the range touches is read once and in order, and the range is cut out of them.
-/

namespace RedoxDrivers.Disk

open Lib Act Nat BitVec

variable {σ : Type} {n : Nat}

/-- The loop, with rounds enough: each copies a byte at least. -/
def blockReadFrom (p : Profile) (blksize : U32) (readFn : U64 → Vector U8 n → Act σ (Vector U8 n)) :
    Nat → Nat → U64 → Vector U8 n → Act σ (List U8 × Nat)
  | 0, _, _, _ => lift (.error (.panic .diverges))
  | fuel + 1, left, currOffset, blockBytes =>
    if left = 0 then return ([], 0)
    else do
      -- The remainder panics for the block size 0, as the quotient does.
      let block ← lift (checked (div currOffset (blksize.setWidth 64)))
      let blkOffset := (currOffset % blksize.setWidth 64).toNat
      let toCopy := min left (blksize.toNat - blkOffset)
      if blksize.toNat < blkOffset + toCopy then lift (.error (.panic .assertFailed))
      else
        let blockBytes ← readFn block blockBytes
        if n < blkOffset + toCopy then lift (.error (.panic .outOfBounds))
        else
          let currOffset ← lift (checked (p.add currOffset (.ofNat 64 toCopy)))
          let (rest, totalRead) ←
            blockReadFrom p blksize readFn fuel (left - toCopy) currOffset blockBytes
          return ((blockBytes.toList.drop blkOffset).take toCopy ++ rest, toCopy + totalRead)

/-- `offset.saturating_add(len) - offset`: a range does not reach beyond the last address. -/
def reachable (offset : U64) (len : Nat) : Nat :=
  min (offset.toNat + len) (2 ^ 64 - 1) - offset.toNat

/-- Returns the number of bytes that were read, and the buffer. -/
def blockRead (p : Profile) (offset : U64) (blksize : U32) (buf : List U8) (blockBytes : Vector U8 n)
    (readFn : U64 → Vector U8 n → Act σ (Vector U8 n)) : Act σ (Nat × List U8) :=
  if buf.length = 0 then return (0, buf)
  else do
    let toCopy := reachable offset buf.length
    let (data, totalRead) ← blockReadFrom p blksize readFn (toCopy + 1) toCopy offset blockBytes
    return (totalRead, data ++ buf.drop toCopy)

/-! ### What is wanted -/

/-- The blocks that a range touches. -/
def touched (blkSize offset len : Nat) : List Nat :=
  if len = 0 then []
  else List.range' (offset / blkSize) ((offset + len - 1) / blkSize + 1 - offset / blkSize)

/-- Blocks are read one after the other, until one fails. -/
def readBlocks (blkSize : Nat) (readFn : U64 → Vector U8 n → Act σ (Vector U8 n)) :
    List Nat → Vector U8 n → Act σ (List (List U8))
  | [], _ => return []
  | block :: blocks, blockBytes => do
    let blockBytes ← readFn (.ofNat 64 block) blockBytes
    let rest ← readBlocks blkSize readFn blocks blockBytes
    return blockBytes.toList.take blkSize :: rest

section Facts

variable {p : Profile} {blksize : U32} {b offset left : Nat}
  {readFn : U64 → Vector U8 n → Act σ (Vector U8 n)}

/-- The first block of a range, and those of the rest. -/
theorem touched_cons (hb : 0 < b) (hleft : left ≠ 0) : touched b offset left = offset / b ::
    touched b (offset + min left (b - offset % b)) (left - min left (b - offset % b)) := by
  have hr := mod_lt offset hb
  have hdiv := div_add_mod offset b
  generalize offset / b = q at *
  generalize offset % b = r at *
  subst hdiv
  have hlast : (b * q + r + left - 1) / b = q + (r + left - 1) / b := by
    rw [show b * q + r + left - 1 = b * q + (r + left - 1) by omega, mul_add_div hb]
  unfold touched
  rw [if_neg hleft, hlast, mul_add_div hb, div_eq_of_lt hr]
  rcases Nat.lt_or_ge (b - r) left with hlt | hle
  · have hnext : b * q + r + (b - r) = b * (q + 1) := by
      rw [Nat.mul_succ]
      omega
    have hmore : 1 ≤ (r + left - 1) / b := (one_le_div_iff hb).mpr (by omega)
    rw [Nat.min_eq_right (Nat.le_of_lt hlt), if_neg (by omega), hnext,
      show b * (q + 1) + (left - (b - r)) - 1 = b * q + r + left - 1 by omega, hlast,
      Nat.mul_div_cancel_left _ hb,
      show q + (r + left - 1) / b + 1 - (q + 0) = q + (r + left - 1) / b + 1 - (q + 1) + 1 by omega]
    exact List.range'_succ
  · rw [Nat.min_eq_left hle, Nat.sub_self, if_pos rfl, Nat.div_eq_of_lt (by omega)]
    simp

variable (hb : 0 < blksize.toNat) (hn : blksize.toNat ≤ n)

include hb hn

/-- The loop reads the blocks of what is left. -/
theorem blockReadFrom_eq {fuel : Nat} {currOffset : U64} (blockBytes : Vector U8 n)
    (hfuel : left < fuel) (hend : currOffset.toNat + left < 2 ^ 64) :
    blockReadFrom p blksize readFn fuel left currOffset blockBytes = (do
      let blocks ← readBlocks blksize.toNat readFn
        (touched blksize.toNat currOffset.toNat left) blockBytes
      return ((blocks.flatten.drop (currOffset.toNat % blksize.toNat)).take left, left)) := by
  induction fuel generalizing left currOffset blockBytes with
  | zero => exact absurd hfuel (not_lt_zero _)
  | succ fuel ih =>
    by_cases hleft : left = 0
    · simp [blockReadFrom, touched, readBlocks, hleft]
    · have hwide : (blksize.setWidth 64).toNat = blksize.toNat :=
        toNat_setWidth_of_le (by decide)
      have hne : blksize.setWidth 64 ≠ 0 := fun h => by
        rw [h] at hwide
        exact absurd hwide (Nat.ne_of_lt hb)
      have hr := mod_lt currOffset.toNat hb
      have hdiv : div currOffset (blksize.setWidth 64) =
          .ok (.ofNat 64 (currOffset.toNat / blksize.toNat)) := by
        rw [div, if_neg hne, ← hwide, ← toNat_udiv, ofNat_toNat, setWidth_eq]
      rw [blockReadFrom, if_neg hleft, hdiv, toNat_umod, hwide, touched_cons hb hleft]
      simp only [checked_ok, lift_ok_bind, readBlocks, bind_assoc, pure_bind]
      generalize ht : min left (blksize.toNat - currOffset.toNat % blksize.toNat) = t
      have hadd : p.add currOffset (.ofNat 64 t) = .ok (.ofNat 64 (currOffset.toNat + t)) := by
        rw [← Profile.add_ofNat (by omega), ofNat_toNat, setWidth_eq]
      have hnext : (BitVec.ofNat 64 (currOffset.toNat + t)).toNat = currOffset.toNat + t :=
        toNat_ofNat_of_lt (by omega)
      have hin : ¬ blksize.toNat < currOffset.toNat % blksize.toNat + t := by omega
      have hout : ¬ n < currOffset.toNat % blksize.toNat + t := by omega
      simp only [hin, hout, if_false, hadd, checked_ok, lift_ok_bind]
      refine bind_congr fun blockBytes => ?_
      rw [ih blockBytes (by omega) (by omega), hnext, bind_assoc]
      refine bind_congr fun blocks => ?_
      have hlen : (blockBytes.toList.take blksize.toNat).length = blksize.toNat := by simp [hn]
      rw [pure_bind, List.flatten_cons, List.drop_append_of_le_length (by omega), List.take_append,
        List.length_drop, hlen, List.drop_take, List.take_take, ht, Nat.add_sub_cancel' (by omega),
        show left - (blksize.toNat - currOffset.toNat % blksize.toNat) = left - t by omega]
      -- If more is left then it begins with a block.
      rcases Nat.eq_zero_or_pos (left - t) with hnone | hmore
      · rw [hnone, List.take_zero, List.take_zero]
      · rw [← mod_add_mod, show currOffset.toNat % blksize.toNat + t = blksize.toNat by omega,
          mod_self, List.drop_zero]

end Facts

/-- **Reading a range.** For every range, block size, scratch buffer with room for a block and
`readFn`: the blocks that the range touches are read once each and in order, until one fails, and
the range is copied from them. Near the end of the address space it is cut short. -/
theorem blockRead_eq (p : Profile) (offset : U64) (blksize : U32) (buf : List U8)
    (blockBytes : Vector U8 n) (readFn : U64 → Vector U8 n → Act σ (Vector U8 n))
    (hb : 0 < blksize.toNat) (hn : blksize.toNat ≤ n) :
    blockRead p offset blksize buf blockBytes readFn = (do
      let blocks ← readBlocks blksize.toNat readFn
        (touched blksize.toNat offset.toNat (reachable offset buf.length)) blockBytes
      return (reachable offset buf.length,
        (blocks.flatten.drop (offset.toNat % blksize.toNat)).take (reachable offset buf.length) ++
          buf.drop (reachable offset buf.length))) := by
  unfold blockRead
  split
  · rename_i hempty
    have hnone : reachable offset 0 = 0 := by
      unfold reachable
      omega
    simp [hempty, hnone, touched, readBlocks]
  · have hend : offset.toNat + reachable offset buf.length < 2 ^ 64 := by
      unfold reachable
      omega
    simp only [blockReadFrom_eq hb hn blockBytes (lt_succ_self _) hend, bind_assoc, pure_bind]

/-- The last byte of block 0 and the first two of block 1, where each byte is the block's number. -/
theorem blockRead_across : blockRead .debug 3 4 [9, 9, 9] (Vector.replicate 4 0)
    (fun block _ => pure (Vector.replicate 4 (block.setWidth 8))) () = (.ok (3, [0, 1, 1]), ()) := by
  rw [blockRead_eq .debug 3 4 [9, 9, 9] _ _ (by decide) (by decide)]
  rfl

end RedoxDrivers.Disk
