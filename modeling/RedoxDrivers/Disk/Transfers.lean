import RedoxDrivers.Disk.Reach

/-!
What transfers do to the data of an NVMe namespace.

Each chunk is on blocks of its own. Whole blocks in chunks of whole blocks are read and written where they
should be. Otherwise some byte of a read is not where it should be, and a write changes more than its
bytes (`RedoxDrivers.Disk.Bytes`), whatever was there before (`scatter_inside`).
-/

namespace RedoxDrivers.Disk

open Lib Lib.Image Rig Transfer List Nat
open Act (Ends ends_bind ends_pure)

namespace Transfer

variable {t : Transfer} {ns : List Nat} {buf : List U8} {sector base y : Nat}
  (hlba : ∀ s ∈ starts (ns.map t.blocks) sector, t.lba s = .ok (base + s))

include hlba

theorem scatter_below (image buffer : Nat → U8) (offset : Nat) (h : y < (base + sector) * t.blockSize) :
    t.scatter buf image buffer ns offset sector y = image y := by
  induction ns generalizing image buffer offset sector with
  | nil => rfl
  | cons n ns ih =>
    rw [map_cons, starts, forall_mem_cons] at hlba
    rw [scatter, ih hlba.2, start_of_ok hlba.1, store_of_lt h]
    rw [← Nat.add_assoc, Nat.add_mul]
    omega

/-- What is written does not depend on what was there. -/
theorem scatter_inside (buf : List U8) (image image' buffer : Nat → U8) (offset : Nat)
    (hlo : (base + sector) * t.blockSize ≤ y)
    (hhi : y < (base + sector + (ns.map t.blocks).sum) * t.blockSize) :
    t.scatter buf image buffer ns offset sector y = t.scatter buf image' buffer ns offset sector y := by
  induction ns generalizing image image' buffer offset sector with
  | nil => exact absurd hhi (not_lt.mpr hlo)
  | cons n ns ih =>
    rw [map_cons, starts, forall_mem_cons] at hlba
    rw [map_cons, sum_cons, ← add_assoc, add_assoc base] at hhi
    rw [scatter, scatter]
    rcases lt_or_ge y ((base + (sector + t.blocks n)) * t.blockSize) with hlt | hge
    · -- It is written with this chunk, and not again.
      rw [scatter_below hlba.2 _ _ _ hlt, scatter_below hlba.2 _ _ _ hlt, start_of_ok hlba.1]
      obtain ⟨j, rfl⟩ := Nat.exists_eq_add_of_le hlo
      rw [← Nat.add_assoc, Nat.add_mul (base + sector)] at hlt
      have hin : j < (bytes (store buffer 0 ((buf.drop offset).take n)) 0
          (t.blocks n * t.blockSize)).length := by
        rw [length_bytes]
        omega
      exact Option.some.inj ((store_inside _ _ hin).trans (store_inside _ _ hin).symm)
    · exact ih hlba.2 _ _ _ _ hge hhi

end Transfer

namespace NvmeNamespace

variable {E : Prop} {p : Profile} {ns : NvmeNamespace} {lba : U64} {buf : List U8} {rig : Rig} {len : Nat}

/-- Chunks of 8192 bytes are whole blocks, if a block is not larger. -/
theorem blockSize_dvd (h : ns.blockSize.toNat ≤ 8192) : ns.blockSize.toNat ∣ 8192 := by
  rw [toNat_blockSize] at h ⊢
  exact Nat.pow_dvd_pow 2 ((Nat.pow_le_pow_iff_right (by decide : 1 < 2)).mp (show 2 ^ ns.log ≤ 2 ^ 13 from h))

/-- The blocks of a chunk have room for it, and the last of them is needed. -/
theorem le_blocksOf_mul (ns : NvmeNamespace) (len : Nat) :
    len ≤ ns.blocksOf len * ns.blockSize.toNat ∧
      ns.blocksOf len * ns.blockSize.toNat < len + ns.blockSize.toNat := by
  have hbs := ns.blockSize_ge
  have hdiv := div_add_mod (len + ns.blockSize.toNat - 1) ns.blockSize.toNat
  have hmod := mod_lt (len + ns.blockSize.toNat - 1) (show 0 < ns.blockSize.toNat by omega)
  rw [mul_comm] at hdiv
  rw [blocksOf]
  omega

theorem blocksOf_mul_of_dvd {len : Nat} (h : ns.blockSize.toNat ∣ len) :
    ns.blocksOf len * ns.blockSize.toNat = len := by
  obtain ⟨k, rfl⟩ := h
  have hbs := ns.blockSize_ge
  have hk : ns.blocksOf (ns.blockSize.toNat * k) = k := by
    rw [blocksOf, Nat.add_sub_assoc (by omega), Nat.mul_add_div (by omega),
      div_eq_of_lt (by omega), add_zero]
  rw [hk, mul_comm]

theorem sum_blocksOf_le (lens : List Nat) : (lens.map ns.blocksOf).sum ≤ lens.sum := by
  induction lens with
  | nil => exact le_refl _
  | cons n lens ih =>
    exact Nat.add_le_add (ns.blocksOf_le n) ih

theorem span_le (ns : NvmeNamespace) (len : Nat) : ns.span len ≤ len :=
  le_trans (sum_blocksOf_le _) (le_of_eq (sum_chunkLens 8192 len))

theorem pos_of_mem {n : Nat} (h : n ∈ chunkLens 8192 len) : 0 < ns.blocksOf n :=
  ns.blocksOf_pos (pos_of_mem_chunkLens (by decide) h)

theorem eq_of_zero {lo : Nat} (h : len = 0) : lo = lo + ns.span len := by
  rw [h]
  rfl

theorem eq_zero_of_span {lo : Nat} (h : lo = lo + ns.span len) : len = 0 := by
  rcases Nat.eq_zero_or_pos len with hzero | hpos
  · exact hzero
  · have := ns.blocksOf_pos (show 0 < min 8192 len by omega)
    rw [span, chunkLens_of_pos (by decide) hpos, map_cons, sum_cons] at h
    omega

/-- The addresses are sent as they are. -/
theorem lba_starts (p : Profile) (source : Option (List U8)) (hfit : lba.toNat + len < 2 ^ 64) :
    ∀ s ∈ starts ((chunkLens 8192 len).map (ns.transfer p lba source).blocks) 0,
      (ns.transfer p lba source).lba s = .ok (lba.toNat + s) := by
  intro s hs
  have hlt : s < 0 + ns.span len := lt_of_mem_starts (fun n hn => ?_) hs
  · have hspan := ns.span_le len
    exact congrArg Except.ok (toNat_lba (by omega))
  · obtain ⟨m, hm, rfl⟩ := mem_map.mp hn
    exact pos_of_mem hm

theorem quiet_check (p : Profile) (source : Option (List U8)) (hfit : lba.toNat + len < 2 ^ 64)
    (s n : Nat) (_ : n ∈ chunkLens 8192 len) (hs : s + ns.blocksOf n ≤ ns.span len) :
    Quiet ((ns.transfer p lba source).check s n) := by
  have hspan := ns.span_le len
  have hadd : p.add (lba + BitVec.ofNat 64 s) (.ofNat 64 (ns.blocksOf n)) =
      .ok (lba + BitVec.ofNat 64 s + .ofNat 64 (ns.blocksOf n)) := by
    refine Profile.add_eq_ok.mpr ⟨fun ⟨_, hle⟩ => ?_, rfl⟩
    rw [toNat_lba (by omega), BitVec.toNat_ofNat] at hle
    omega
  show Quiet (Act.lift ((checked (p.add (lba + BitVec.ofNat 64 s) (.ofNat 64 (ns.blocksOf n)))).map _))
  rw [hadd]
  exact quiet_pure

section Ends

variable (p : Profile) (ns : NvmeNamespace) (lba : U64) (buf : List U8) (rig : Rig)
  (hfit : lba.toNat + buf.length < 2 ^ 64) (hfault : rig.faults ≠ [] → E)
  (hrange : ¬ (buf.length = 0 ∨ lba.toNat + ns.span buf.length ≤ (rig.media ns.id).blocks) → E)

include hfit hfault hrange

theorem ends_read : Ends (fun data _ =>
        data = (ns.transfer p lba none).gather (rig.media ns.id).image (chunkLens 8192 buf.length) 0 ∧
        (buf.length = 0 ∨ lba.toNat + ns.span buf.length ≤ (rig.media ns.id).blocks)) E
      (ns.read p lba buf rig) := by
  rw [read_eq]
  exact (ends_whole (lba_starts p none hfit) (fun _ hn => pos_of_mem hn)
    (quiet_check p none hfit) hfault (fun h => hrange (mt (·.imp_left eq_of_zero) h))
    fun _ n _ => (ns.le_blocksOf_mul n).1).imp
      fun _ _ h => ⟨h.2.2.1 rfl, h.2.1.imp_left eq_zero_of_span⟩

theorem ends_write : Ends (fun n after => n = buf.length ∧ (after.media ns.id).image =
          (ns.transfer p lba (some buf)).scatter buf (rig.media ns.id).image (rig.buffers buffer)
            (chunkLens 8192 buf.length) 0 0 ∧
        (buf.length = 0 ∨ lba.toNat + ns.span buf.length ≤ (rig.media ns.id).blocks)) E
      (ns.write p lba buf rig) := by
  rw [write_eq]
  exact ends_bind (ends_whole (lba_starts p (some buf) hfit) (fun _ hn => pos_of_mem hn)
    (quiet_check p (some buf) hfit) hfault
    (fun h => hrange (mt (·.imp_left eq_of_zero) h)) nofun) fun data after h =>
      ends_pure ⟨rfl, h.2.2.2 buf rfl, h.2.1.imp_left eq_zero_of_span⟩

end Ends

end NvmeNamespace

end RedoxDrivers.Disk
