import RedoxDrivers.Disk.Exclusive
import RedoxDrivers.Disk.Transfers
import RedoxDrivers.Disk.VirtioBlk

/-!
Disks as bytes.

Clients address a disk by bytes; drives know blocks. A read that returns should return the bytes of
the disk at its offset, and a write should change these bytes and no others (`ReadsBytes`,
`WritesBytes`). Requests that are not whole blocks should be served in this way or refused.

None of the drivers refuses them. The offset is rounded down to a block, and a length is rounded up
(`nvmed`) or down (SATA), or makes `virtio-blkd` panic. `byte_semantics` says for which offsets and
lengths the bytes are right all the same, whatever is on the disk and whatever goes wrong with the
commands.
-/

namespace RedoxDrivers.Disk

open Lib Lib.Image Act Rig AList Transfer List Nat DiskScheme DiskATA

/-! ### The contract -/

/-- Whole blocks. -/
def Aligned (blockSize offset len : Nat) : Prop := blockSize ∣ offset ∧ blockSize ∣ len

/-- A read for `len` bytes returns the bytes of the disk at its offset. -/
structure ReadsBytes (image : Nat → U8) (offset len : Nat) (aligned : Prop)
    (result : Except Stop (List U8)) : Prop where
  right : ∀ data, result = .ok data → data.length ≤ len ∧ data = bytes image offset data.length
  /-- An unaligned read is refused by an error code if it is not served. -/
  refused : ¬ aligned → ¬ Panics result

/-- A write that returns `n` puts the first `n` bytes to its offset and changes nothing else. -/
structure WritesBytes (image image' : Nat → U8) (offset : Nat) (buf : List U8) (aligned : Prop)
    (result : Except Stop Nat) : Prop where
  right : ∀ n, result = .ok n → n ≤ buf.length ∧ image' = store image offset (buf.take n)
  refused : ¬ aligned → ¬ Panics result

/-- An image that tells one byte from all others. -/
def marked (y : Nat) : Nat → U8 := fun i => if i = y then 1 else 0

theorem marked_ne {x y : Nat} (h : x ≠ y) : marked y x ≠ marked y y := by
  rw [marked, marked, if_neg h, if_pos rfl]
  decide

theorem store_zeros (a m i : Nat) :
    store (fun _ => (1 : U8)) a (replicate m 0) i = if a ≤ i ∧ i < a + m then 0 else 1 := by
  split
  · rename_i h
    rw [store, if_pos h.1, getElem?_replicate_of_lt (by omega)]
    rfl
  · rename_i h
    rcases lt_or_ge i a with hlt | hge
    · exact store_of_lt hlt
    · exact store_of_le (by rw [length_replicate]; omega)

/-- Zeros that are written show where they are. -/
theorem eq_of_store_zeros {a b m n : Nat} (hn : 0 < n)
    (h : store (fun _ => (1 : U8)) a (replicate m 0) = store (fun _ => 1) b (replicate n 0)) :
    a = b ∧ m = n := by
  have hiff : ∀ i, (a ≤ i ∧ i < a + m) ↔ (b ≤ i ∧ i < b + n) := by
    intro i
    have hi := congrFun h i
    rw [store_zeros, store_zeros] at hi
    split at hi <;> split at hi
    · exact iff_of_true ‹_› ‹_›
    · exact absurd hi (by decide)
    · exact absurd hi (by decide)
    · exact iff_of_false ‹_› ‹_›
  have hfirst := hiff b
  have hlast := hiff (b + n - 1)
  have hfirst' := hiff a
  have hlast' := hiff (a + m - 1)
  omega

/-- A rig on which nothing goes wrong. -/
def Rig.healthy (blocks : Nat) (image : Nat → U8) : Rig where
  media _ := ⟨blocks, image⟩
  buffers _ _ := 0
  capacities _ := (0, 0)
  faults := []
  waits := []
  asked := []

/-! ### Handles on whole disks -/

namespace DiskScheme

variable {bound : Nat} {δ σ : Type} {drv : Driver δ σ} {s : DiskScheme bound δ σ} {id offset bs : U64}
  {disk : δ} {buf : List U8}

/-- The handle is on this disk. -/
def OnDisk (s : DiskScheme bound δ σ) (id : U64) (disk : δ) : Prop :=
  ∃ number wrapper, s.handles.lookup id = some (.disk number) ∧ s.disks.get number = some wrapper ∧
    wrapper.inner = disk

/-- The block that an access to a disk starts at. -/
theorem blockAt_bind {α : Type} {number : Nat} {wrapper : DiskWrapper δ}
    {f : DiskWrapper δ → U64 → Act (DiskScheme bound δ σ) α}
    (hget : s.disks.get number = some wrapper) (hlen : drv.blockLength wrapper.inner = pure bs)
    (hbs : bs ≠ 0) : (diskOf number >>= fun disk => blockAt drv disk offset >>= f disk) s =
      f wrapper (offset / bs) s := by
  have hdisk : diskOf number s = (.ok wrapper, s) := by
    rw [diskOf, read_bind, hget]
    rfl
  have hblock : blockAt drv wrapper offset s = (.ok (offset / bs), s) := by
    rw [blockAt, hlen]
    show (lift (checked (div offset bs))) s = _
    rw [div_eq_ok.mpr ⟨hbs, rfl⟩]
    rfl
  rw [bind_ok hdisk, bind_ok hblock]

theorem handleOf_eq {handle : Handle} (hopen : s.handles.lookup id = some handle) :
    handleOf id s = (.ok handle, s) := by
  rw [handleOf, read_bind, hopen]
  rfl

theorem read_disk (hon : OnDisk s id disk) (hlen : drv.blockLength disk = pure bs) (hbs : bs ≠ 0) :
    read drv id buf offset s = device (drv.read disk (offset / bs) buf) s := by
  obtain ⟨number, wrapper, hopen, hget, rfl⟩ := hon
  rw [read, bind_ok (handleOf_eq hopen)]
  exact blockAt_bind hget hlen hbs

theorem write_disk (hon : OnDisk s id disk) (hlen : drv.blockLength disk = pure bs) (hbs : bs ≠ 0) :
    write drv id buf offset s = device (drv.write disk (offset / bs) buf) s := by
  obtain ⟨number, wrapper, hopen, hget, rfl⟩ := hon
  rw [write, bind_ok (handleOf_eq hopen)]
  exact blockAt_bind hget hlen hbs

/-- A scheme with one disk, on which a handle is open. -/
def oneDisk (hbound : 1 ≤ bound) (disk : δ) (hardware : σ) : DiskScheme bound δ σ where
  schemeName := []
  disks := Disks.ofSlice [⟨disk, none⟩] hbound
  handles := insert 0 (.disk 0) ∅
  nextId := 1
  hardware := hardware

theorem onDisk_oneDisk (hbound : 1 ≤ bound) (disk : δ) (hardware : σ) :
    OnDisk (oneDisk hbound disk hardware) 0 disk := by
  refine ⟨0, ⟨disk, none⟩, lookup_insert _, ?_, rfl⟩
  rfl

/-- Every read on a handle on the disk is right, if the medium has this many blocks. -/
def ReadsRight (bound : Nat) {δ : Type} (drv : Driver δ Rig) (disk : δ)
    (unit blockSize blocks : Nat) (offset : U64) (len : Nat) : Prop :=
  ∀ (s : DiskScheme bound δ Rig) id buf, OnDisk s id disk → (s.hardware.media unit).blocks = blocks →
    buf.length = len →
      ReadsBytes (s.hardware.media unit).image offset.toNat len (Aligned blockSize offset.toNat len)
        (read drv id buf offset s).1

/-- Every write on a handle on the disk is right, if the medium has this many blocks. -/
def WritesRight (bound : Nat) {δ : Type} (drv : Driver δ Rig) (disk : δ)
    (unit blockSize blocks : Nat) (offset : U64) (len : Nat) : Prop :=
  ∀ (s : DiskScheme bound δ Rig) id buf, OnDisk s id disk → (s.hardware.media unit).blocks = blocks →
    buf.length = len →
      WritesBytes (s.hardware.media unit).image
        ((write drv id buf offset s).2.hardware.media unit).image offset.toNat buf
        (Aligned blockSize offset.toNat len) (write drv id buf offset s).1

section Contracts

variable {drv : Driver δ Rig} {unit blockSize blocks len : Nat} (inRange : Prop) (hbound : 1 ≤ bound)
  (hlen : drv.blockLength disk = pure bs) (hbs : bs ≠ 0)

include hbound hlen hbs

/-- Reads are right if what they return on each content of the disk is right. -/
theorem readsRight_iff (returned : (Nat → U8) → List U8) (hends : ∀ (E : Prop) (buf : List U8) (rig : Rig),
      buf.length = len → (rig.media unit).blocks = blocks → (rig.faults ≠ [] → E) → (¬ inRange → E) →
        Act.Ends (fun data _ => data = returned (rig.media unit).image ∧ inRange) E
          (drv.read disk (offset / bs) buf rig)) :
    ReadsRight bound drv disk unit blockSize blocks offset len ↔
      (inRange → ∀ image, (returned image).length ≤ len ∧
        returned image = bytes image offset.toNat (returned image).length) := by
  constructor
  · intro h hin image
    have hread := h (oneDisk hbound disk (healthy blocks image)) 0 (replicate len 0)
      (onDisk_oneDisk _ _ _) rfl length_replicate
    rw [read_disk (onDisk_oneDisk _ _ _) hlen hbs] at hread
    obtain ⟨data, hok, rfl, -⟩ := (hends False _ (healthy blocks image) length_replicate rfl
      (fun hne => hne rfl) fun hout => hout hin).exists_ok id
    exact hread.right _ hok
  · intro h s id buf hon hblocks hbuf
    rw [read_disk hon hlen hbs]
    have hends := hends True buf s.hardware hbuf hblocks (fun _ => trivial) fun _ => trivial
    refine ⟨fun data hok => ?_, fun _ => hends.not_panics⟩
    obtain ⟨rfl, hin⟩ := hends.of_ok hok
    exact h hin _

/-- Writes are right if what they leave of each content of the disk and of the buffer is right. -/
theorem writesRight_iff {n : Nat} (hn : n ≤ len) (buffer : Nat)
    (left : List U8 → (Nat → U8) → (Nat → U8) → Nat → U8)
    (hends : ∀ (E : Prop) (buf : List U8) (rig : Rig),
      buf.length = len → (rig.media unit).blocks = blocks → (rig.faults ≠ [] → E) → (¬ inRange → E) →
        Act.Ends (fun m after => m = n ∧ (after.media unit).image =
          left buf (rig.media unit).image (rig.buffers buffer) ∧ inRange) E
            (drv.write disk (offset / bs) buf rig)) :
    WritesRight bound drv disk unit blockSize blocks offset len ↔
      (inRange → ∀ buf image held, buf.length = len →
        left buf image held = store image offset.toNat (buf.take n)) := by
  constructor
  · intro h hin buf image held hbuf
    let rig : Rig := { healthy blocks image with
      buffers := fun _ => held }
    have hwrite := h (oneDisk hbound disk rig) 0 buf (onDisk_oneDisk _ _ _) rfl hbuf
    rw [write_disk (onDisk_oneDisk _ _ _) hlen hbs] at hwrite
    obtain ⟨_, hok, rfl, himage, -⟩ := (hends False buf rig hbuf rfl (fun hne => hne rfl)
      fun hout => hout hin).exists_ok id
    exact himage.symm.trans (hwrite.right _ hok).2
  · intro h s id buf hon hblocks hbuf
    rw [write_disk hon hlen hbs]
    have hends := hends True buf s.hardware hbuf hblocks (fun _ => trivial) fun _ => trivial
    refine ⟨fun m hok => ?_, fun _ => hends.not_panics⟩
    obtain ⟨rfl, himage, hin⟩ := hends.of_ok hok
    exact ⟨hbuf ▸ hn, himage.trans (h hin buf _ _ hbuf)⟩

end Contracts

end DiskScheme

/-! ### NVMe namespaces -/

namespace NvmeNamespace

variable {E : Prop} {p : Profile} {ns : NvmeNamespace} {lba : U64} {buf : List U8} {rig : Rig} {len : Nat}

theorem chunkLens_eq_nil (h : chunkLens 8192 len = []) : len = 0 := by
  rw [← sum_chunkLens 8192 len, h]
  rfl

/-- The blocks of a transfer have room for it. -/
theorem sum_le_sum_blocksOf (ns : NvmeNamespace) (lens : List Nat) :
    lens.sum ≤ (lens.map ns.blocksOf).sum * ns.blockSize.toNat := by
  induction lens with
  | nil => exact zero_le _
  | cons n lens ih =>
    rw [map_cons, sum_cons, sum_cons, Nat.add_mul]
    exact Nat.add_le_add (ns.le_blocksOf_mul n).1 ih

theorem le_span_mul (ns : NvmeNamespace) (len : Nat) : len ≤ ns.span len * ns.blockSize.toNat := by
  have := ns.sum_le_sum_blocksOf (chunkLens 8192 len)
  rwa [sum_chunkLens] at this

/-- A transfer fills its blocks only if they are small enough for the chunks. -/
theorem lt_span_mul (ns : NvmeNamespace) (hpos : 0 < len)
    (h : ¬ ns.blockSize.toNat ∣ len ∨ 8192 < ns.blockSize.toNat) :
    len < ns.span len * ns.blockSize.toNat := by
  rcases h with hdvd | hbs
  · refine lt_of_le_of_ne (ns.le_span_mul len) fun heq => hdvd ?_
    rw [heq]
    exact Nat.dvd_mul_left _ _
  · -- The first chunk alone is less than a block.
    have hfirst : ∀ n, 0 < n → n ≤ 8192 → n < ns.blocksOf n * ns.blockSize.toNat := by
      intro n hn hle
      have := mul_le_mul_right ns.blockSize.toNat (show 1 ≤ ns.blocksOf n from ns.blocksOf_pos hn)
      omega
    unfold span
    rcases lt_or_ge len 8192 with hlt | hge
    · rw [chunkLens_of_lt hpos hlt]
      simpa using hfirst len hpos (by omega)
    · have hrest := ns.sum_le_sum_blocksOf (chunkLens 8192 (len - 8192))
      have hchunk := hfirst 8192 (by decide) (by decide)
      rw [sum_chunkLens] at hrest
      rw [chunkLens_of_le (by decide) hge, map_cons, sum_cons, Nat.add_mul]
      omega

theorem full_of_mem_dropLast (h : len ≤ 8192 ∨ ns.blockSize.toNat ≤ 8192) :
    ∀ n ∈ (chunkLens 8192 len).dropLast, ns.blocksOf n * ns.blockSize.toNat = n := by
  intro n hn
  obtain ⟨rfl, hlt⟩ := of_mem_dropLast_chunkLens (by decide) hn
  exact blocksOf_mul_of_dvd (blockSize_dvd (h.resolve_left (by omega)))

/-- A byte of a read that is not where it should be. -/
theorem gather_misplaced (p : Profile) (hpos : 0 < len) {offset : Nat}
    (hlba : lba.toNat = offset / ns.blockSize.toNat) (hfit : lba.toNat + len < 2 ^ 64)
    (h : ¬ (ns.blockSize.toNat ∣ offset ∧ (len ≤ 8192 ∨ ns.blockSize.toNat ≤ 8192))) :
    ∃ j x, j < len ∧ x ≠ offset + j ∧ ∀ image,
      ((ns.transfer p lba none).gather image (chunkLens 8192 len) 0)[j]? = some (image x) := by
  have hstart : ∀ s ≤ len, (ns.transfer p lba none).start s = offset / ns.blockSize.toNat + s :=
    fun s hs => hlba ▸ toNat_lba (by omega)
  by_cases hdvd : ns.blockSize.toNat ∣ offset
  · have hlen : 8192 < len ∧ 8192 < ns.blockSize.toNat := by
      omega
    have hone : ns.blocksOf 8192 = 1 := by
      have hroom := ns.le_blocksOf_mul 8192
      have hblock := ns.blocksOf_pos (show 0 < 8192 by decide)
      by_contra hne
      have := mul_le_mul_right ns.blockSize.toNat (show 2 ≤ ns.blocksOf 8192 by omega)
      omega
    refine ⟨8192, (offset / ns.blockSize.toNat + 1) * ns.blockSize.toNat, hlen.1, ?_, fun image => ?_⟩
    · rw [Nat.add_mul, Nat.div_mul_cancel hdvd]
      omega
    · have hsecond : ∃ n rest, 0 < n ∧ chunkLens 8192 (len - 8192) = n :: rest := by
        cases hrest : chunkLens 8192 (len - 8192) with
        | nil => exact absurd (chunkLens_eq_nil hrest) (by omega)
        | cons n rest =>
          have hmem : n ∈ chunkLens 8192 (len - 8192) := by rw [hrest]; simp
          exact ⟨n, rest, pos_of_mem_chunkLens (by decide) hmem, rfl⟩
      obtain ⟨n, rest, hn, hrest⟩ := hsecond
      rw [chunkLens_of_le (by decide) (by omega), hrest, gather, gather,
        getElem?_append_right (by rw [length_bytes]), length_bytes,
        getElem?_append_left (by rw [length_bytes]; omega), getElem?_bytes (by omega),
        show 0 + (ns.transfer p lba none).blocks 8192 = 1 from (zero_add _).trans hone,
        hstart 1 (by omega)]
      rfl
  · refine ⟨0, offset / ns.blockSize.toNat * ns.blockSize.toNat, hpos, fun heq => hdvd ?_,
      fun image => ?_⟩
    · rw [add_zero] at heq
      rw [← heq]
      exact Nat.dvd_mul_left _ _
    · cases hlens : chunkLens 8192 len with
      | nil => exact absurd (chunkLens_eq_nil hlens) (by omega)
      | cons n =>
        have hmem : n ∈ chunkLens 8192 len := by rw [hlens]; simp
        have hn : 0 < n := pos_of_mem_chunkLens (by decide) hmem
        rw [gather, getElem?_append_left (by rw [length_bytes]; exact hn), getElem?_bytes hn,
          hstart 0 (zero_le _)]
        rfl

end NvmeNamespace

open NvmeNamespace

namespace Nvmed

variable {p : Profile} {ns : NvmeNamespace} {blocks len : Nat} {offset : U64}

theorem blockSize_ne_zero (ns : NvmeNamespace) : ns.blockSize ≠ 0 := by
  intro h
  have := ns.blockSize_ge
  rw [h] at this
  exact absurd this (by decide)

theorem lba_eq (ns : NvmeNamespace) (offset : U64) :
    (offset / ns.blockSize).toNat = offset.toNat / ns.blockSize.toNat := BitVec.toNat_udiv

theorem lba_add_lt (hlen : len < 2 ^ 63) : (offset / ns.blockSize).toNat + len < 2 ^ 64 := by
  have hdiv : offset.toNat / ns.blockSize.toNat ≤ offset.toNat / 512 :=
    div_le_div_left ns.blockSize_ge (by decide)
  rw [lba_eq]
  omega

/-- The blocks of a transfer are on the medium. -/
def InRange (ns : NvmeNamespace) (blocks : Nat) (offset : U64) (len : Nat) : Prop :=
  len = 0 ∨ (offset / ns.blockSize).toNat + ns.span len ≤ blocks

/-- For which offsets and lengths reads of a namespace are right. -/
theorem reads_right_iff (hlen : len < 2 ^ 63) :
    ReadsRight (2 ^ 32) (driver p) ns ns.id ns.blockSize.toNat blocks offset len ↔
      len = 0 ∨ (ns.blockSize.toNat ∣ offset.toNat ∧ (len ≤ 8192 ∨ ns.blockSize.toNat ≤ 8192)) ∨
        blocks < offset.toNat / ns.blockSize.toNat + ns.span len := by
  rw [readsRight_iff (InRange ns blocks offset len) (by decide) rfl
    (blockSize_ne_zero ns) (fun image =>
      (ns.transfer p (offset / ns.blockSize) none).gather image (chunkLens 8192 len) 0)
    (fun E buf rig hbuf hblocks hfault hrange => by
      subst hbuf hblocks
      exact ends_read p ns _ buf rig (lba_add_lt hlen) hfault hrange), InRange, lba_eq]
  constructor
  · intro h
    by_contra hcond
    simp only [not_or, not_lt] at hcond
    obtain ⟨hpos, hbad, hrange⟩ := hcond
    -- On a disk that marks the byte that a misplaced byte should be, the read is wrong.
    obtain ⟨j, x, hj, hx, hgather⟩ := gather_misplaced p (by omega)
      (lba_eq ns offset) (lba_add_lt hlen) hbad
    have hmisplaced := hgather (marked (offset.toNat + j))
    have hin := (List.getElem?_eq_some_iff.mp hmisplaced).1
    rw [(h (.inr hrange) _).2, getElem?_bytes hin, Option.some_inj] at hmisplaced
    exact marked_ne hx hmisplaced.symm
  · intro hcond hrange image
    rcases hcond with rfl | ⟨hdvd, hchunks⟩ | hout
    · exact ⟨le_refl _, rfl⟩
    · rw [gather_eq (lba_starts p none (lba_add_lt hlen))
        (full_of_mem_dropLast hchunks), sum_chunkLens, length_bytes, add_zero, lba_eq]
      exact ⟨Nat.le_refl _, congrArg (bytes _ · _) (Nat.div_mul_cancel hdvd)⟩
    · rw [hrange.resolve_right (by omega)]
      exact ⟨le_refl _, rfl⟩

/-- A byte on the blocks of a write that is not of the request. -/
theorem exists_outside (hpos : 0 < len) {offset : Nat}
    (hbad : ¬ (ns.blockSize.toNat ∣ offset ∧ ns.blockSize.toNat ∣ len ∧ ns.blockSize.toNat ≤ 8192)) :
    ∃ y, offset / ns.blockSize.toNat * ns.blockSize.toNat ≤ y ∧
      y < (offset / ns.blockSize.toNat + ns.span len) * ns.blockSize.toNat ∧
        (y < offset ∨ offset + len ≤ y) := by
  by_cases hdvd : ns.blockSize.toNat ∣ offset
  · have hlt := ns.lt_span_mul hpos (by
      by_cases hlen : ns.blockSize.toNat ∣ len
      · exact .inr (by simpa [hdvd, hlen] using hbad)
      · exact .inl hlen)
    refine ⟨offset + len, ?_, ?_, .inr (le_refl _)⟩
    · rw [Nat.div_mul_cancel hdvd]
      omega
    · rw [Nat.add_mul, Nat.div_mul_cancel hdvd]
      omega
  · have hspan := ns.le_span_mul len
    refine ⟨offset / ns.blockSize.toNat * ns.blockSize.toNat, le_refl _, ?_, .inl ?_⟩
    · rw [Nat.add_mul]
      omega
    · exact lt_of_le_of_ne (div_mul_le_self _ _) fun heq =>
        hdvd (heq ▸ Nat.dvd_mul_left _ _)

/-- For which offsets and lengths writes to a namespace are right. -/
theorem writes_right_iff (hlen : len < 2 ^ 63) :
    WritesRight (2 ^ 32) (driver p) ns ns.id ns.blockSize.toNat blocks offset len ↔
      len = 0 ∨ (ns.blockSize.toNat ∣ offset.toNat ∧ ns.blockSize.toNat ∣ len ∧
          ns.blockSize.toNat ≤ 8192) ∨
        blocks < offset.toNat / ns.blockSize.toNat + ns.span len := by
  rw [writesRight_iff (InRange ns blocks offset len) (by decide) rfl
    (blockSize_ne_zero ns) (le_refl len) buffer (fun buf image held =>
      (ns.transfer p (offset / ns.blockSize) (some buf)).scatter buf image held
        (chunkLens 8192 len) 0 0)
    (fun E buf rig hbuf hblocks hfault hrange => by
      subst hbuf hblocks
      exact ends_write p ns _ buf rig (lba_add_lt hlen) hfault hrange), InRange, lba_eq]
  constructor
  · intro h
    by_contra hcond
    simp only [not_or, not_lt] at hcond
    obtain ⟨hpos, hbad, hrange⟩ := hcond
    obtain ⟨y, hlo, hhi, hy⟩ := exists_outside (by omega) hbad
    -- It should be kept on every disk, but gets a value that does not depend on the disk.
    have hkept : ∀ image : Nat → U8, _ = image y := fun image =>
      (congrFun (h (.inr hrange) (replicate len 0) image (fun _ => 0) length_replicate) y).trans
        (by
          rw [take_of_length_le (by simp)]
          rcases hy with hlt | hge
          · exact store_of_lt hlt
          · exact store_of_le (by rw [length_replicate]; exact hge))
    have hsame := scatter_inside (y := y)
      (lba_starts p (some (replicate len 0)) (lba_add_lt hlen))
      (replicate len 0) (fun _ => 0) (fun _ => 1) (fun _ => 0) 0
      (by rw [add_zero, lba_eq]; exact hlo) (by rw [add_zero, lba_eq]; exact hhi)
    rw [hkept, hkept] at hsame
    exact absurd hsame (by decide)
  · intro hcond hrange buf image held hbuf
    subst hbuf
    rw [take_length]
    have hnil : buf.length = 0 → (ns.transfer p (offset / ns.blockSize) (some buf)).scatter buf image
        held (chunkLens 8192 buf.length) 0 0 = store image offset.toNat buf := by
      intro hzero
      rw [length_eq_zero_iff.mp hzero, store_nil]
      rfl
    rcases hcond with hzero | ⟨hdvd, hwhole, hsize⟩ | hout
    · exact hnil hzero
    · rw [scatter_eq (lba_starts p (some buf) (lba_add_lt hlen)) (fun n hn => ?_)
        (by rw [sum_chunkLens, zero_add]), sum_chunkLens, drop_zero, take_length,
        add_zero, lba_eq]
      · exact congrArg (store _ · buf) (Nat.div_mul_cancel hdvd)
      · exact blocksOf_mul_of_dvd
          (dvd_of_mem_chunkLens (blockSize_dvd hsize) hwhole hn)
    · exact hnil (hrange.resolve_right (by omega))

end Nvmed

open Nvmed

/-! ### SATA disks -/

namespace Ahcid

variable {E : Prop} {p : Profile} {disk : DiskATA} {blocks len : Nat} {offset : U64} {buf : List U8}
  {block : U64} {rig : Rig}

section Ends

variable (p : Profile) (disk : DiskATA) (block : U64) (buf : List U8) (rig : Rig)
  (hfault : rig.faults ≠ [] → E)
  (hroom : block.toNat + buf.length / 512 ≤ (rig.media disk.unit).blocks)
  (hlimit : (rig.media disk.unit).blocks ≤ 2 ^ 48)

include hfault hroom hlimit

theorem ends_read :
    Act.Ends (fun data _ => data = bytes (rig.media disk.unit).image (block.toNat * 512)
        (buf.length / 512 * 512)) E (disk.read p block buf rig) := by
  have hlba := lba_starts p disk block (.read buf) fun k (hk : 255 * k < buf.length / 512) => by
    omega
  have hpass := ends_whole hlba (fun _ => pos_of_mem) (fun _ _ _ _ => quiet_pure) hfault
    (fun hout => absurd (.inr (by rw [sum_blocks]; exact hroom)) hout)
      fun _ n hn => le_of_eq (blocks_mul hn).symm
  refine ends_bind (ends_run (Q := fun last _ => last.filled = bytes
    (rig.media disk.unit).image (block.toNat * 512) (buf.length / 512 * 512))
      (hpass.imp fun data after h => ?_) fun _ _ _ h => h) fun _ _ h => ends_pure h
  rw [h.2.2.1 rfl, gather_eq hlba fun n hn => blocks_mul (mem_of_mem_dropLast hn), sum_chunkLens]
  rfl

theorem ends_write :
    Act.Ends (fun n after => n = buf.length / 512 * 512 ∧ (after.media disk.unit).image =
        store (rig.media disk.unit).image (block.toNat * 512) (buf.take (buf.length / 512 * 512))) E
      (disk.write p block buf rig) := by
  have hlba := lba_starts p disk block (.write buf) fun k (hk : 255 * k < buf.length / 512) => by
    omega
  have hpass := ends_whole hlba (fun _ => pos_of_mem) (fun _ _ _ _ => quiet_pure) hfault
    (fun hout => absurd (.inr (by rw [sum_blocks]; exact hroom)) hout) nofun
  refine ends_bind (ends_run (Q := fun last after => last.sector = buf.length / 512 ∧
    (after.media disk.unit).image = store (rig.media disk.unit).image (block.toNat * 512)
      (buf.take (buf.length / 512 * 512))) (hpass.imp fun data after h => ⟨rfl, (h.2.2.2 buf rfl).trans ?_⟩)
        fun _ _ _ h => h) fun _ _ h => ends_pure ⟨congrArg (· * 512) h.1, h.2⟩
  refine (scatter_eq hlba (fun n hn => blocks_mul hn) ?_ _ _).trans ?_
  · rw [sum_chunkLens, zero_add]
    exact div_mul_le_self _ _
  · rw [sum_chunkLens]
    rfl

end Ends

theorem block_eq (offset : U64) : (offset / 512).toNat = offset.toNat / 512 := BitVec.toNat_udiv

/-- Whole sectors of a request are on the disk if the request is. -/
theorem room_of_fit (hfit : offset.toNat + len ≤ blocks * 512) :
    (offset / 512).toNat + len / 512 ≤ blocks := by
  rw [block_eq]
  omega

theorem sectors_ne {offset : Nat} (h : ¬ 512 ∣ offset) : offset / 512 * 512 ≠ offset :=
  fun heq => h (heq ▸ Nat.dvd_mul_left _ _)

/-- For which offsets and lengths reads of a SATA disk are right. -/
theorem reads_right_iff (hlimit : blocks ≤ 2 ^ 48) (hfit : offset.toNat + len ≤ blocks * 512) :
    ReadsRight (2 ^ 64) (driver p) (.ata disk) disk.unit 512 blocks offset len ↔
      len < 512 ∨ 512 ∣ offset.toNat := by
  rw [readsRight_iff True (by decide) rfl (by decide)
    (fun image => bytes image ((offset / 512).toNat * 512) (len / 512 * 512))
    (fun E buf rig hbuf hblocks hfault _ => by
      subst hbuf hblocks
      exact (ends_read p disk _ buf rig hfault (room_of_fit hfit) hlimit).imp fun _ _ h => ⟨h, trivial⟩),
    block_eq]
  constructor
  · intro h
    by_contra hcond
    simp only [not_or, not_lt] at hcond
    have hbytes := (h trivial (marked offset.toNat)).2
    have hin : 0 < len / 512 * 512 := by omega
    have hfirst := congrArg (fun data : List U8 => data[0]?) hbytes
    rw [length_bytes, getElem?_bytes hin, getElem?_bytes hin, Option.some_inj, add_zero,
      add_zero] at hfirst
    exact marked_ne (sectors_ne hcond.2) hfirst
  · intro hcond _ image
    rw [length_bytes]
    refine ⟨div_mul_le_self _ _, ?_⟩
    rcases hcond with hlt | hdvd
    · rw [div_eq_of_lt hlt]
      rfl
    · rw [Nat.div_mul_cancel hdvd]

/-- For which offsets and lengths writes to a SATA disk are right. -/
theorem writes_right_iff (hlimit : blocks ≤ 2 ^ 48) (hfit : offset.toNat + len ≤ blocks * 512) :
    WritesRight (2 ^ 64) (driver p) (.ata disk) disk.unit 512 blocks offset len ↔
      len < 512 ∨ 512 ∣ offset.toNat := by
  rw [writesRight_iff True (by decide) rfl (by decide)
    (div_mul_le_self len 512) disk.unit
    (fun buf image _ => store image ((offset / 512).toNat * 512) (buf.take (len / 512 * 512)))
    (fun E buf rig hbuf hblocks hfault _ => by
      subst hbuf hblocks
      exact (ends_write p disk _ buf rig hfault (room_of_fit hfit) hlimit).imp fun _ _ h =>
        ⟨h.1, h.2, trivial⟩), block_eq]
  constructor
  · intro h
    by_contra hcond
    simp only [not_or, not_lt] at hcond
    have hne := sectors_ne hcond.2
    -- The byte at the front of the block is overwritten, and should be kept.
    have hstore := h trivial (replicate len 0) (fun _ => 1) (fun _ => 0) length_replicate
    rw [take_replicate, min_eq_left (div_mul_le_self _ _)] at hstore
    exact hne (eq_of_store_zeros (by omega) hstore).1
  · intro hcond _ buf image _ _
    rcases hcond with hlt | hdvd
    · rw [div_eq_of_lt hlt, zero_mul, take_zero, store_nil, store_nil]
    · rw [Nat.div_mul_cancel hdvd]

end Ahcid

/-! ### `virtio-blkd` -/

namespace VirtioBlk

/-- The handle on the disk reads what it should, for every device with this configuration. -/
def ReadsRight (p : Profile) (cfg : BlockDeviceConfig) (offset : U64) (len : Nat) : Prop :=
  ∀ (s : DiskScheme) id buf, s.device.cfg = cfg → s.handles.lookup id = some .disk →
    buf.length = len →
      ReadsBytes s.device.image offset.toNat len (Aligned cfg.blockSize.toNat offset.toNat len)
        (DiskScheme.read p id buf offset s).1

def WritesRight (cfg : BlockDeviceConfig) (offset : U64) (len : Nat) : Prop :=
  ∀ (s : DiskScheme) id buf, s.device.cfg = cfg → s.handles.lookup id = some .disk →
    buf.length = len →
      WritesBytes s.device.image (DiskScheme.write id buf offset s).2.device.image offset.toNat buf
        (Aligned cfg.blockSize.toNat offset.toNat len) (DiskScheme.write id buf offset s).1

/-- The device takes the request that an access makes. -/
def Accepted (cfg : BlockDeviceConfig) (offset len : Nat) : Prop :=
  len % 2 ^ 32 % 512 = 0 ∧ offset / cfg.blockSize.toNat + len % 2 ^ 32 / 512 ≤ cfg.capacity.toNat

section Contracts

variable {p : Profile} {cfg : BlockDeviceConfig} {offset : U64} {len : Nat} {s : DiskScheme}

section

variable (h : s.device.cfg = cfg)

include h

/-- There are blocks if something is a whole number of them. -/
theorem blockSize_ne_zero (hdvd : cfg.blockSize.toNat ∣ len) (hlen : len ≠ 0) :
    s.blockSize ≠ 0 := by
  intro hzero
  rw [← DiskScheme.blockSize_eq h, hzero] at hdvd
  exact hlen (Nat.eq_zero_of_zero_dvd hdvd)

theorem sector_eq : (offset / s.blockSize).toNat = offset.toNat / cfg.blockSize.toNat := by
  rw [BitVec.toNat_udiv, DiskScheme.blockSize_eq h]

theorem serves_iff : s.device.Serves (offset / s.blockSize) (len % 2 ^ 32) ↔
      s.device.faults.headD false = false ∧ Accepted cfg offset.toNat len := by
  rw [Device.Serves, Device.InRange, sector_eq h, h]
  rfl

end

/-- A device that fails makes the driver panic. -/
theorem aligned_of_reads_right (h : ReadsRight p cfg offset len) :
    Aligned cfg.blockSize.toNat offset.toNat len := by
  by_contra hun
  have hread := h (withDisk cfg (fun _ => 0) [true]) 0 (replicate len 0) rfl rfl length_replicate
  refine hread.refused hun ?_
  rw [DiskScheme.read_disk rfl]
  split
  · exact ⟨_, rfl⟩
  · rw [Device.read_eq p _ (.inr rfl), if_neg fun hserves => nomatch hserves.1]
    exact ⟨_, rfl⟩

theorem aligned_of_writes_right (h : WritesRight cfg offset len) :
    Aligned cfg.blockSize.toNat offset.toNat len := by
  by_contra hun
  have hwrite := h (withDisk cfg (fun _ => 0) [true]) 0 (replicate len 0) rfl rfl length_replicate
  refine hwrite.refused hun ?_
  rw [DiskScheme.write_disk rfl]
  split
  · exact ⟨_, rfl⟩
  · rw [Device.write_eq _ (.inr rfl), if_neg fun hserves => nomatch hserves.1]
    exact ⟨_, rfl⟩

/-- For which offsets and lengths reads are right. -/
theorem reads_right_iff : ReadsRight p cfg offset len ↔
    Aligned cfg.blockSize.toNat offset.toNat len ∧ (Accepted cfg offset.toNat len → len < 2 ^ 32 →
      len = 0 ∨ offset.toNat / cfg.blockSize.toNat * 512 = offset.toNat) := by
  constructor
  · intro h
    refine ⟨aligned_of_reads_right h, fun haccepted hlen => ?_⟩
    by_contra hcond
    simp only [not_or] at hcond
    have hbs := blockSize_ne_zero (s := withDisk cfg (marked offset.toNat) []) rfl
      (aligned_of_reads_right h).2 hcond.1
    have hread := h (withDisk cfg (marked offset.toNat) []) 0 (replicate len 0) rfl rfl length_replicate
    rw [DiskScheme.read_disk rfl, if_neg hbs, Device.read_eq p _ (.inr rfl), length_replicate,
      if_pos ((serves_iff rfl).mpr ⟨rfl, haccepted⟩), if_pos hlen, sector_eq rfl] at hread
    obtain ⟨-, heq⟩ := hread.right _ rfl
    rw [length_bytes] at heq
    have hfirst := congrArg (fun data => data[0]?) heq
    rw [getElem?_bytes (by omega), getElem?_bytes (by omega), Option.some_inj, add_zero,
      add_zero] at hfirst
    exact marked_ne hcond.2 hfirst
  · rintro ⟨haligned, hcond⟩ s id buf hcfg hopen rfl
    refine ⟨fun data hok => ?_, fun hun => absurd haligned hun⟩
    rw [DiskScheme.read_disk hopen] at hok
    split at hok
    · cases hok
    · by_cases hdma : buf ≠ [] ∨ s.device.emptyDma = true
      · rw [Device.read_eq p _ hdma] at hok
        split at hok
        · rename_i hserves
          split at hok
          · rename_i hlen
            cases hok
            rw [length_bytes, sector_eq hcfg]
            refine ⟨le_refl _, ?_⟩
            rcases hcond ((serves_iff hcfg).mp hserves).2 hlen with hzero | heq
            · rw [hzero]
              rfl
            · rw [heq]
          · cases hok
        · cases hok
      · simp only [not_or, ne_eq, not_not, Bool.not_eq_true] at hdma
        -- Without memory for an empty buffer, the driver panics before it asks for anything.
        have hpanic : Device.read p (offset / s.blockSize) [] s.device = (_, _) :=
          bind_error (if_pos ⟨rfl, hdma.2⟩)
        rw [hdma.1, hpanic] at hok
        cases hok

/-- For which offsets and lengths writes are right. -/
theorem writes_right_iff : WritesRight cfg offset len ↔
    Aligned cfg.blockSize.toNat offset.toNat len ∧ (Accepted cfg offset.toNat len →
      len < 2 ^ 32 ∧ (len = 0 ∨ offset.toNat / cfg.blockSize.toNat * 512 = offset.toNat)) := by
  constructor
  · intro h
    refine ⟨aligned_of_writes_right h, fun haccepted => ?_⟩
    rcases Nat.eq_zero_or_pos len with rfl | hpos
    · exact ⟨by decide, .inl rfl⟩
    · have hbs := blockSize_ne_zero (s := withDisk cfg (fun _ => 1) []) rfl
        (aligned_of_writes_right h).2 (by omega)
      have hwrite := h (withDisk cfg (fun _ => 1) []) 0 (replicate len 0) rfl rfl length_replicate
      rw [DiskScheme.write_disk rfl, if_neg hbs, Device.write_eq _ (.inr rfl), length_replicate,
        if_pos ((serves_iff rfl).mpr ⟨rfl, haccepted⟩)] at hwrite
      obtain ⟨-, heq⟩ := hwrite.right _ rfl
      rw [take_replicate, take_replicate, min_eq_left (mod_le _ _), min_self,
        sector_eq rfl] at heq
      obtain ⟨hplace, hlen⟩ := eq_of_store_zeros hpos heq
      refine ⟨?_, .inr hplace⟩
      rw [← hlen]
      exact mod_lt _ (by decide)
  · rintro ⟨haligned, hcond⟩ s id buf hcfg hopen rfl
    refine ⟨fun n hok => ?_, fun hun => absurd haligned hun⟩
    rw [DiskScheme.write_disk hopen] at hok ⊢
    split at hok
    · cases hok
    · rw [if_neg ‹_›]
      by_cases hdma : buf ≠ [] ∨ s.device.emptyDma = true
      · rw [Device.write_eq _ hdma] at hok ⊢
        by_cases hserves : s.device.Serves (offset / s.blockSize) (buf.length % 2 ^ 32)
        · rw [if_pos hserves] at hok ⊢
          cases hok
          obtain ⟨hlen, hplace⟩ := hcond ((serves_iff hcfg).mp hserves).2
          refine ⟨le_refl _, ?_⟩
          rw [mod_eq_of_lt hlen, sector_eq hcfg, take_length]
          rcases hplace with hzero | heq
          · rw [length_eq_zero_iff.mp hzero, store_nil, store_nil]
          · rw [heq]
        · rw [if_neg hserves] at hok
          cases hok
      · simp only [not_or, ne_eq, not_not, Bool.not_eq_true] at hdma
        have hpanic : Device.write (offset / s.blockSize) [] s.device = (_, _) :=
          bind_error (if_pos ⟨rfl, hdma.2⟩)
        rw [hdma.1, hpanic] at hok
        cases hok

end Contracts

end VirtioBlk

open VirtioBlk

/-! ### All three drivers -/

/-- **Byte semantics.** For each of the drivers, the offsets and lengths on the disk for which reads and
writes of a handle on it are right, for every content and whatever commands fail. -/
theorem byte_semantics (p : Profile) (offset : U64) (len : Nat) (hlen : len < 2 ^ 63) :
    (∀ (ns : NvmeNamespace) (blocks : Nat), offset.toNat + len ≤ blocks * ns.blockSize.toNat →
        (ReadsRight (2 ^ 32) (driver p) ns ns.id ns.blockSize.toNat blocks offset len ↔
          len = 0 ∨ (ns.blockSize.toNat ∣ offset.toNat ∧ (len ≤ 8192 ∨ ns.blockSize.toNat ≤ 8192)) ∨
            blocks < offset.toNat / ns.blockSize.toNat + ns.span len) ∧
        (WritesRight (2 ^ 32) (driver p) ns ns.id ns.blockSize.toNat blocks offset len ↔
          len = 0 ∨ (ns.blockSize.toNat ∣ offset.toNat ∧ ns.blockSize.toNat ∣ len ∧
              ns.blockSize.toNat ≤ 8192) ∨
            blocks < offset.toNat / ns.blockSize.toNat + ns.span len)) ∧
      (∀ (disk : DiskATA) (blocks : Nat), blocks ≤ 2 ^ 48 → offset.toNat + len ≤ blocks * 512 →
        (ReadsRight (2 ^ 64) (Ahcid.driver p) (.ata disk) disk.unit 512 blocks offset len ↔
          len < 512 ∨ 512 ∣ offset.toNat) ∧
        (WritesRight (2 ^ 64) (Ahcid.driver p) (.ata disk) disk.unit 512 blocks offset len ↔
          len < 512 ∨ 512 ∣ offset.toNat)) ∧
      ∀ cfg : BlockDeviceConfig, offset.toNat + len ≤ cfg.capacity.toNat * 512 →
        (ReadsRight p cfg offset len ↔
          Aligned cfg.blockSize.toNat offset.toNat len ∧
            (Accepted cfg offset.toNat len → len < 2 ^ 32 →
              len = 0 ∨ offset.toNat / cfg.blockSize.toNat * 512 = offset.toNat)) ∧
        (WritesRight cfg offset len ↔
          Aligned cfg.blockSize.toNat offset.toNat len ∧
            (Accepted cfg offset.toNat len → len < 2 ^ 32 ∧
              (len = 0 ∨ offset.toNat / cfg.blockSize.toNat * 512 = offset.toNat))) :=
  ⟨fun _ _ _ => ⟨reads_right_iff hlen, writes_right_iff hlen⟩,
    fun _ _ hlimit hfit =>
      ⟨Ahcid.reads_right_iff hlimit hfit, Ahcid.writes_right_iff hlimit hfit⟩,
    fun _ _ => ⟨reads_right_iff, writes_right_iff⟩⟩

/-- Two blocks of a namespace with blocks of 512 bytes. -/
theorem two_blocks_right :
    ReadsRight (2 ^ 32) (driver .release) smallNamespace 0 512 8 512
        1024 ∧
      WritesRight (2 ^ 32) (driver .release) smallNamespace 0 512 8
        512 1024 := by
  obtain ⟨hread, hwrite⟩ := (byte_semantics .release 512 1024 (by decide)).1
    smallNamespace 8 (by decide)
  exact ⟨hread.mpr (.inr (.inl ⟨by decide, .inl (by decide)⟩)),
    hwrite.mpr (.inr (.inl ⟨by decide, by decide, by decide⟩))⟩

/-- A scheme of `nvmed` with a disk whose bytes 0 and 1 differ. -/
def markedDisk : Nvmed.DiskScheme :=
  oneDisk (by decide) smallNamespace (healthy 8 (marked 1))

/-- The byte at offset 1 is read as the byte at offset 0. -/
theorem odd_offset_misread : ¬ ReadsBytes (markedDisk.hardware.media 0).image 1 1 (Aligned 512 1 1)
      (read (Nvmed.driver .release) 0 [0] 1 markedDisk).1 := by
  intro h
  have hread : (read (Nvmed.driver .release) 0 [0] 1 markedDisk).1.toOption = some [0] := by
    decide +kernel
  obtain ⟨-, heq⟩ := h.right [0] (toOption_eq_some.mp hread)
  exact absurd heq (by decide)

end RedoxDrivers.Disk
