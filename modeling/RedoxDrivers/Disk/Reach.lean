import RedoxDrivers.Disk.Passes

/-!
What transfers ask the disks for.

The loops below the schemes cut a transfer into commands. `Rig.Extends` says of all commands that
are sent from some point on what holds of each of them, and is kept by code whose every command is
of this kind. For each disk, the commands of a transfer that starts at a block are for this block
and a number of blocks after it (`span`), as long as these blocks can be addressed. `Reach` collects
what is known of the disks of a driver, with the proofs.
-/

namespace RedoxDrivers.Disk

open Lib Lib.Image Rig BitVec List Profile Nat
open Act (Keeps Meets keeps_bind keeps_pure keeps_lift keeps_bind_of_meets meets_bind meets_pure meets_lift)

/-- A command for blocks of `[lo, hi)`. -/
structure Asked.Within (unit lo hi : Nat) (a : Asked) : Prop where
  unit_eq : a.unit = unit
  le_lba : lo ≤ a.lba
  end_le : a.lba + a.count ≤ hi

/-- `ok` holds of the commands for `n` blocks from `block` on. -/
def Allowed (ok : Asked → Prop) (unit block n : Nat) : Prop :=
  ∀ a : Asked, a.Within unit block (block + n) → ok a

namespace Rig

/-- The commands since `r` are all such that `ok` holds of them. -/
structure Extends (ok : Asked → Prop) (r rig : Rig) : Prop where
  capacities : rig.capacities = r.capacities
  asked : ∃ new, rig.asked = r.asked ++ new ∧ ∀ a ∈ new, ok a

section Commands

variable {ok : Asked → Prop} {r : Rig} {unit buffer blockSize lba count : Nat} {write : Bool}

theorem extends_snoc {rig rig' : Rig} {a : Asked} (h : Extends ok r rig) (ha : ok a)
    (hcap : rig'.capacities = rig.capacities) (hasked : rig'.asked = rig.asked ++ [a]) :
    Extends ok r rig' := by
  obtain ⟨new, hnew, hall⟩ := h.asked
  refine ⟨hcap.trans h.capacities, new ++ [a], ?_, ?_⟩
  · rw [hasked, hnew, List.append_assoc]
  · intro b hb
    rcases mem_append.mp hb with hb | hb
    · exact hall b hb
    · rw [mem_singleton.mp hb]
      exact ha

theorem move_asked (unit buffer blockSize lba count : Nat) (write : Bool) (rig : Rig) :
    (move unit buffer blockSize lba count write rig).capacities = rig.capacities ∧
      (move unit buffer blockSize lba count write rig).asked = rig.asked := by
  unfold move
  split
  all_goals exact ⟨rfl, rfl⟩

theorem keeps_command (h : ok ⟨unit, lba, count, write⟩) :
    Keeps (Extends ok r) (command unit buffer blockSize lba count write) := by
  intro rig hrig
  unfold command
  dsimp only
  split
  · exact extends_snoc hrig h rfl rfl
  · cases rig.faults.headD none with
    | none =>
      obtain ⟨hcap, hasked⟩ := move_asked unit buffer blockSize lba count write
        { rig with faults := rig.faults.tail, asked := rig.asked ++ [⟨unit, lba, count, write⟩] }
      exact extends_snoc hrig h hcap hasked
    | some done =>
      obtain ⟨hcap, hasked⟩ := move_asked unit buffer blockSize lba (min done count) write
        { rig with faults := rig.faults.tail, asked := rig.asked ++ [⟨unit, lba, count, write⟩] }
      exact extends_snoc hrig h hcap hasked

theorem keeps_query : Keeps (Extends ok r) query := by
  intro rig hrig
  unfold query
  dsimp only
  split
  all_goals exact ⟨hrig.capacities, hrig.asked⟩

theorem keeps_fromBuffer (buffer n : Nat) : Keeps (Extends ok r) (fromBuffer buffer n) :=
  Act.keeps_read _

end Commands

end Rig

open Rig

namespace Transfer

variable {ok : Asked → Prop} {r : Rig} {t : Transfer} {base span offset sector : Nat} {ns : List Nat}

/-- A pass asks for the blocks of its chunks. -/
theorem keeps_pass (hok : Allowed ok t.unit base span)
    (hlba : ∀ s ∈ starts (ns.map t.blocks) sector, t.lba s = .ok (base + s))
    (hspan : (ns.map t.blocks).sum + sector ≤ span)
    (hcheck : ∀ s n, Keeps (Extends ok r) (t.check s n)) :
    Keeps (Extends ok r) (t.pass ns offset sector) := by
  induction ns generalizing offset sector with
  | nil => exact keeps_pure _
  | cons n ns ih =>
    rw [map_cons, starts, forall_mem_cons] at hlba
    rw [map_cons, sum_cons] at hspan
    refine keeps_bind ?_ fun data => keeps_bind (ih hlba.2 (by omega)) fun rest => keeps_pure _
    have hfill : Keeps (Extends ok r) (t.fill offset n) := by
      unfold fill
      split
      · exact fun _ hrig => ⟨hrig.capacities, hrig.asked⟩
      · exact keeps_pure _
    have hfetch : Keeps (Extends ok r) (t.fetch n) := by
      unfold fetch
      split
      · exact keeps_pure _
      · exact keeps_fromBuffer _ _
    unfold chunk
    simp only [hlba.1, Act.lift_ok_bind]
    refine keeps_bind hfill fun _ => keeps_bind (keeps_command (hok _ ⟨rfl, ?_, ?_⟩)) fun _ =>
      keeps_bind (hcheck _ _) fun _ => hfetch
    · exact le_add_right _ _
    · show base + sector + t.blocks n ≤ base + span
      omega

end Transfer

/-! ### NVMe namespaces -/

namespace NvmeNamespace

variable {ok : Asked → Prop} {r : Rig} {p : Profile} {ns : NvmeNamespace} {lba : U64}

/-- The blocks that a transfer takes. -/
def span (ns : NvmeNamespace) (len : Nat) : Nat := ((chunkLens 8192 len).map ns.blocksOf).sum

theorem keeps_pass {len : Nat} (source : Option (List U8))
    (hok : Allowed ok ns.id lba.toNat (ns.span len)) (hlimit : lba.toNat + ns.span len ≤ 2 ^ 64) :
    Keeps (Extends ok r) ((ns.transfer p lba source).pass (chunkLens 8192 len) 0 0) := by
  refine Transfer.keeps_pass hok (fun s hs => ?_) (le_refl _) fun _ _ => keeps_lift _
  have hlt : s < 0 + ns.span len := lt_of_mem_starts (fun n hn => ?_) hs
  · exact congrArg Except.ok (toNat_lba (by omega))
  · obtain ⟨m, hm, rfl⟩ := mem_map.mp hn
    exact ns.blocksOf_pos (pos_of_mem_chunkLens (by decide) hm)

end NvmeNamespace

/-! ### SATA disks -/

namespace DiskATA

variable {ok : Asked → Prop} {r : Rig} {p : Profile} {disk : DiskATA} {block : U64}

theorem keeps_run {kind : BufferKind} (hok : Allowed ok disk.unit block.toNat (kind.len / 512))
    (hlimit : block.toNat + kind.len / 512 ≤ 2 ^ 48) :
    Keeps (Extends ok r) (disk.run p block kind) := by
  have hpass : Keeps (Extends ok r) ((disk.transfer p block kind).pass
      (chunkLens 130560 (kind.len / 512 * 512)) 0 0) := by
    refine Transfer.keeps_pass hok (lba_starts p disk block kind (by omega)) ?_ fun _ _ => keeps_pure _
    rw [sum_blocks]
    exact le_refl _
  intro rig hrig
  obtain ⟨waits, hrun⟩ := run_eq p disk block kind rig
  have h := keeps_bind hpass (fun data => keeps_pure (Request.mk (kind.len / 512) (kind.len / 512)
    none data)) rig hrig
  rw [hrun]
  exact ⟨h.capacities, h.asked⟩

end DiskATA

/-! ### IDE disks -/

namespace AtaDisk

variable {ok : Asked → Prop} {r : Rig} {p : Profile} {disk : AtaDisk} {block : U64}

/-- The number of block addresses. -/
def limit (disk : AtaDisk) : Nat := if disk.lba48 then 2 ^ 48 else 2 ^ 24

theorem register_of_lt {block : U64} (h : block.toNat < disk.limit) :
    disk.register block = block.toNat := by
  unfold register limit at *
  split
  · rename_i h48
    rw [if_pos h48] at h
    exact mod_eq_of_lt h
  · rename_i h48
    rw [if_neg h48] at h
    exact mod_eq_of_lt h

theorem limit_le (disk : AtaDisk) : disk.limit ≤ 2 ^ 48 := by
  unfold limit
  split
  · exact le_refl _
  · decide

theorem lbaOf_of_lt {s : Nat} (h : block.toNat + s < disk.limit) :
    disk.lbaOf p block s = .ok (block.toNat + s) := by
  have hmax := disk.limit_le
  have hadd : p.add block (.ofNat 64 s) = .ok (block + .ofNat 64 s) := by
    refine add_eq_ok.mpr ⟨fun ⟨_, hle⟩ => ?_, rfl⟩
    rw [toNat_ofNat] at hle
    omega
  have hsum := toNat_of_add_eq_ok hadd (by omega)
  rw [lbaOf, hadd, checked_ok, ok_bind, if_pos (by rw [lt_def, hsum]; exact lt_of_lt_of_le h hmax),
    register_of_lt (by rw [hsum]; exact h), hsum]

theorem keeps_pass {len : Nat} (source : Option (List U8))
    (hok : Allowed ok disk.unit block.toNat ((len + 511) / 512))
    (hlimit : block.toNat + (len + 511) / 512 ≤ disk.limit) :
    Keeps (Extends ok r) ((disk.passOf p block source).pass (chunkLens 65536 len) 0 0) := by
  have hsum : ((chunkLens 65536 len).map (disk.passOf p block source).blocks).sum = (len + 511) / 512 := by
    show ((chunkLens 65536 len).map fun n => (n + 511) / 512).sum = _
    rw [chunkLens, map_append, map_replicate, sum_append_nat, sum_replicate_nat]
    split
    · rw [map_nil, sum_nil]
      omega
    · rw [map_singleton, sum_singleton]
      omega
  refine Transfer.keeps_pass hok (fun s hs => lbaOf_of_lt ?_) (le_of_eq hsum) fun _ n => ?_
  · have := lt_of_mem_starts (fun n hn => ?_) hs
    · omega
    · obtain ⟨m, hm, rfl⟩ := mem_map.mp hn
      have := pos_of_mem_chunkLens (by decide) hm
      show 0 < (m + 511) / 512
      omega
  · cases source with
    | none => exact keeps_lift _
    | some => exact keeps_bind (keeps_lift _) fun _ => keeps_query

end AtaDisk

/-! ### ATAPI drives -/

namespace DiskATAPI

variable {ok : Asked → Prop} {r : Rig} {p : Profile} {disk : DiskATAPI} {block : U64}
  {blkLen sectors bufLen bufSize sector : U32}

theorem meets_readCapacity (p : Profile) (disk : DiskATAPI) :
    Meets (Extends ok r) (disk.readCapacity p)
      fun (_, blkSize) => blkSize = (r.capacities disk.unit).2 := by
  refine meets_bind keeps_query.meets fun _ _ => ?_
  have hread : Meets (Extends ok r) (Act.read fun rig => rig.capacities disk.unit)
      fun capacity => capacity = r.capacities disk.unit := by
    intro rig hrig
    refine ⟨hrig, fun capacity hcapacity => ?_⟩
    cases hcapacity
    exact congrFun hrig.capacities disk.unit
  refine meets_bind hread fun capacity hcapacity => ?_
  cases hcapacity
  exact meets_bind (keeps_lift _).meets fun _ _ => meets_pure rfl

theorem meets_blockLength (p : Profile) (disk : DiskATAPI) :
    Meets (Extends ok r) (disk.blockLength p)
      fun blkSize => blkSize = (r.capacities disk.unit).2 :=
  meets_bind (meets_readCapacity p disk) fun _ h => meets_pure h

/-- A command inside the range. -/
theorem keeps_read10 {count : U32} (hok : Allowed ok disk.unit block.toNat sectors.toNat)
    (hlimit : block.toNat + sectors.toNat ≤ 2 ^ 32)
    (hin : sector.toNat + count.toNat ≤ sectors.toNat) (hpos : 0 < count.toNat) :
    Keeps (Extends ok r) (disk.read10 p blkLen block sector count bufSize) := by
  refine keeps_bind_of_meets (meets_lift fun _ h => h) fun lba hadd => ?_
  refine keeps_bind (keeps_lift _) fun _ => ?_
  obtain ⟨-, rfl⟩ := add_eq_ok.mp (checked_eq_ok.mp hadd)
  have hlba : (block.setWidth 32 + sector).toNat = block.toNat + sector.toNat := by
    rw [toNat_add, toNat_setWidth]
    omega
  refine keeps_command (hok _ ⟨rfl, ?_, ?_⟩)
  · show block.toNat ≤ (block.setWidth 32 + sector).toNat
    omega
  · show (block.setWidth 32 + sector).toNat + (count.setWidth 16).toNat ≤ _
    rw [toNat_setWidth]
    omega

/-- The rest behind the full buffers is less than a buffer, in a build in which the loop does not
stop at an underflow. -/
def Orderly (p : Profile) (sectors blkLen bufLen : Nat) : Prop :=
  p = .debug ∨ sectors % blkLen < bufLen

theorem meets_readFull (hok : Allowed ok disk.unit block.toNat sectors.toNat)
    (hlimit : block.toNat + sectors.toNat ≤ 2 ^ 32)
    (hord : Orderly p sectors.toNat blkLen.toNat bufLen.toNat) (hsize : bufLen = 0 → bufSize = 0)
    (fuel : Nat) (memory : Nat → U8) (hle : sector.toNat ≤ sectors.toNat)
    (hmul : sector.toNat % blkLen.toNat = 0) :
    Meets (Extends ok r) (disk.readFull p blkLen block sectors bufLen bufSize fuel sector memory)
      fun (sector, _) => sector.toNat ≤ sectors.toNat := by
  induction fuel generalizing sector memory with
  | zero => exact meets_lift fun _ h => by cases h
  | succ fuel ih =>
    refine meets_bind (meets_lift fun _ h => h) fun left hsub => ?_
    obtain ⟨-, rfl⟩ := sub_eq_ok.mp (checked_eq_ok.mp hsub)
    have hleft : (sectors - sector).toNat = sectors.toNat - sector.toNat :=
      toNat_sub_of_le (le_def.mpr hle)
    split
    · rename_i hfull
      rw [le_def, hleft] at hfull
      have hcommand : Keeps (Extends ok r)
          (disk.read10 p blkLen block sector bufLen bufSize) := by
        rcases eq_or_ne bufLen 0 with hzero | hne
        · rcases hord with rfl | hlt
          · rw [hsize hzero]
            -- in a build with overflow checks, no command is sent without a buffer
            exact keeps_bind (keeps_lift _) fun _ => fun _ hrig => hrig
          · rw [hzero] at hlt
            exact absurd hlt (not_lt_zero _)
        · have hpos : 0 < bufLen.toNat := by
            rw [Nat.pos_iff_ne_zero]
            exact fun h => hne (eq_of_toNat_eq h)
          exact keeps_read10 hok hlimit (by omega) hpos
      refine meets_bind hcommand.meets fun _ _ => ?_
      refine meets_bind (keeps_fromBuffer _ _).meets fun data _ => ?_
      refine meets_bind (meets_lift fun _ h => h) fun sector' hadd => ?_
      obtain ⟨hflow, rfl⟩ := add_eq_ok.mp (checked_eq_ok.mp hadd)
      rcases lt_or_ge sectors.toNat (sector.toNat + blkLen.toNat) with hover | hnext
      · -- The loop runs past the end. It stops at the subtraction, or does not get here.
        rcases hord with rfl | hlt
        · have hsum : (sector + blkLen).toNat = sector.toNat + blkLen.toNat := by
            have : ¬ 2 ^ 32 ≤ sector.toNat + blkLen.toNat := fun h => hflow ⟨rfl, h⟩
            exact mod_eq_of_lt (by omega)
          have herr : debug.sub sectors (sector + blkLen) = .error .overflow :=
            sub_eq_overflow.mpr ⟨rfl, by omega⟩
          cases fuel with
          | zero => exact meets_lift fun _ h => by cases h
          | succ =>
            rw [readFull, herr]
            exact fun rig hrig => ⟨hrig, fun _ h => by cases h⟩
        · have hrest : sectors.toNat % blkLen.toNat = sectors.toNat - sector.toNat := by
            obtain ⟨k, hk⟩ := dvd_of_mod_eq_zero hmul
            have hsplit : sectors.toNat = (sectors.toNat - sector.toNat) + blkLen.toNat * k := by
              omega
            rw [hsplit, add_mul_mod_self_left, mod_eq_of_lt (by omega)]
            omega
          omega
      · have hsum : (sector + blkLen).toNat = sector.toNat + blkLen.toNat := by
          exact mod_eq_of_lt (by omega)
        refine ih _ (by omega) ?_
        rw [hsum, add_mod_right]
        exact hmul
    · exact meets_pure hle

/-- The sectors that a transfer takes. -/
def span (disk : DiskATAPI) (r : Rig) (len : Nat) : Nat :=
  len % 2 ^ 32 / (r.capacities disk.unit).2.toNat

theorem keeps_read {buf : List U8} (hok : Allowed ok disk.unit block.toNat (disk.span r buf.length))
    (hlimit : block.toNat + disk.span r buf.length ≤ 2 ^ 32)
    (hord : Orderly p (disk.span r buf.length) (r.capacities disk.unit).2.toNat
      (256 * 512 / (r.capacities disk.unit).2.toNat)) :
    Keeps (Extends ok r) (disk.read p block buf) := by
  refine keeps_bind_of_meets (meets_blockLength p disk) fun blkLen hblk => ?_
  rw [span, ← hblk] at hok hlimit hord
  refine keeps_bind_of_meets (meets_lift fun _ h => h) fun sectors hsectors => ?_
  obtain ⟨-, rfl⟩ := div_eq_ok.mp (checked_eq_ok.mp hsectors)
  refine keeps_bind_of_meets (meets_lift fun _ h => h) fun bufLen hbufLen => ?_
  obtain ⟨-, rfl⟩ := div_eq_ok.mp (checked_eq_ok.mp hbufLen)
  refine keeps_bind_of_meets (meets_lift fun _ h => h) fun bufSize hbufSize => ?_
  obtain ⟨-, rfl⟩ := mul_eq_ok.mp (checked_eq_ok.mp hbufSize)
  have hcount : (BitVec.ofNat 32 buf.length / blkLen).toNat = buf.length % 2 ^ 32 / blkLen.toNat := by
    rw [toNat_udiv, toNat_ofNat]
  rw [← hcount] at hok hlimit hord
  refine keeps_bind_of_meets (meets_readFull hok hlimit hord ?_ _ _ (zero_le _) (zero_mod _))
    fun loop hle => ?_
  · intro hzero
    rw [hzero]
    exact zero_mul
  · dsimp only at hle ⊢
    split
    · rename_i hlt
      rw [lt_def] at hlt
      have hleft := toNat_sub_of_le (le_def.mpr hle)
      refine keeps_bind (keeps_read10 hok hlimit (by omega) (by omega)) fun _ => ?_
      exact keeps_bind (keeps_fromBuffer _ _) fun _ =>
        keeps_bind (keeps_lift _) fun _ => keeps_pure _
    · exact keeps_bind (keeps_lift _) fun _ => keeps_pure _

end DiskATAPI

/-! ### The disks of a driver -/

/-- Where the transfers of the disks of a driver go. -/
structure Extent (δ : Type) where
  unit : δ → Nat
  blockSize : δ → Rig → Nat
  /-- The blocks that a transfer takes. -/
  span : δ → Rig → Nat → Nat
  /-- The number of block addresses. -/
  limit : δ → Nat
  limit_le : ∀ disk, limit disk ≤ 2 ^ 64
  /-- The blocks of a transfer are gone through without a jump. -/
  Orderly : δ → Rig → Nat → Prop
  /-- Writes are not refused. -/
  Writable : δ → Prop

/-- The blocks of a transfer from `block` on can be addressed, and `ok` holds of commands for them. -/
structure Extent.Room {δ : Type} (extent : Extent δ) (r : Rig) (len : Nat) (ok : Asked → Prop)
    (disk : δ) (block : U64) : Prop where
  allowed : Allowed ok (extent.unit disk) block.toNat (extent.span disk r len)
  limit : block.toNat + extent.span disk r len ≤ extent.limit disk
  orderly : extent.Orderly disk r len

/-- What is known of the disks of a driver. -/
structure Reach {δ : Type} (drv : Driver δ Rig) extends Extent δ where
  meets_blockLength : ∀ disk r ok, Meets (Extends ok r) (drv.blockLength disk)
    fun n => n.toNat = blockSize disk r
  absBlock_eq_ok : ∀ part relBlock block, drv.absBlock part relBlock = .ok block →
    relBlock.toNat < part.size.toNat ∧ block = part.startLba + relBlock
  keeps_read : ∀ disk r ok block buf, toExtent.Room r buf.length ok disk block →
    Keeps (Extends ok r) (drv.read disk block buf)
  keeps_write : ∀ disk r ok block buf,
    (Writable disk → toExtent.Room r buf.length ok disk block) →
      Keeps (Extends ok r) (drv.write disk block buf)

section AbsBlock

variable {p : Profile} {part : Partition} {relBlock block : U64}

theorem checkedAbsBlock_eq_ok (h : checkedAbsBlock p part relBlock = .ok block) :
    relBlock.toNat < part.size.toNat ∧ block = part.startLba + relBlock := by
  unfold checkedAbsBlock at h
  split at h
  · cases h
  · rename_i hlt
    rw [le_def] at hlt
    exact ⟨by omega, (add_eq_ok.mp (checked_eq_ok.mp h)).2.symm⟩

theorem summedAbsBlock_eq_ok (h : summedAbsBlock p part relBlock = .ok block) :
    relBlock.toNat < part.size.toNat ∧ block = part.startLba + relBlock := by
  obtain ⟨absBlock, hadd, hrest⟩ := bind_eq_ok.mp h
  split at hrest
  · cases hrest
  · rename_i hlt
    rw [le_def] at hlt
    cases hrest
    exact ⟨by omega, (add_eq_ok.mp (checked_eq_ok.mp hadd)).2.symm⟩

end AbsBlock

def Nvmed.reach (p : Profile) : Reach (Nvmed.driver p) where
  unit ns := ns.id
  blockSize ns _ := ns.blockSize.toNat
  span ns _ len := ns.span len
  limit _ := 2 ^ 64
  limit_le _ := le_refl _
  Orderly _ _ _ := True
  Writable _ := True
  meets_blockLength _ _ _ := meets_pure rfl
  absBlock_eq_ok _ _ _ h := checkedAbsBlock_eq_ok h
  keeps_read ns _ _ block buf room := by
    show Keeps _ (ns.read p block buf)
    rw [NvmeNamespace.read_eq]
    exact NvmeNamespace.keeps_pass none room.allowed room.limit
  keeps_write ns _ _ block buf room := by
    show Keeps _ (ns.write p block buf)
    rw [NvmeNamespace.write_eq]
    exact keeps_bind (NvmeNamespace.keeps_pass _ (room trivial).allowed (room trivial).limit)
      fun _ => keeps_pure _

namespace Ahcid

def PortDisk.unit : PortDisk → Nat
  | .ata disk => disk.unit
  | .atapi disk => disk.unit

def PortDisk.blockSize : PortDisk → Rig → Nat
  | .ata _, _ => 512
  | .atapi disk, r => (r.capacities disk.unit).2.toNat

def PortDisk.span : PortDisk → Rig → Nat → Nat
  | .ata _, _, len => len / 512
  | .atapi disk, r, len => disk.span r len

def PortDisk.limit : PortDisk → Nat
  | .ata _ => 2 ^ 48
  | .atapi _ => 2 ^ 32

theorem PortDisk.limit_le (disk : PortDisk) : disk.limit ≤ 2 ^ 64 := by
  cases disk with
  | ata | atapi => exact Nat.pow_le_pow_right (by decide) (by decide)

def PortDisk.Orderly (p : Profile) : PortDisk → Rig → Nat → Prop
  | .ata _, _, _ => True
  | .atapi disk, r, len => DiskATAPI.Orderly p (disk.span r len) (r.capacities disk.unit).2.toNat
      (256 * 512 / (r.capacities disk.unit).2.toNat)

/-- ATAPI drives answer a write with `EBADF`. -/
def PortDisk.Writable : PortDisk → Prop
  | .ata _ => True
  | .atapi _ => False

def reach (p : Profile) : Reach (Ahcid.driver p) where
  unit := PortDisk.unit
  blockSize := PortDisk.blockSize
  span := PortDisk.span
  limit := PortDisk.limit
  limit_le := PortDisk.limit_le
  Orderly := PortDisk.Orderly p
  Writable := PortDisk.Writable
  meets_blockLength disk r ok := by
    cases disk with
    | ata disk => exact meets_pure rfl
    | atapi disk =>
      refine meets_bind (DiskATAPI.meets_blockLength p disk) fun n hn => meets_pure ?_
      rw [toNat_setWidth, hn]
      exact mod_eq_of_lt (lt_of_lt_of_le (BitVec.isLt _) (by decide))
  absBlock_eq_ok _ _ _ h := summedAbsBlock_eq_ok h
  keeps_read disk r ok block buf room := by
    cases disk with
    | ata => exact keeps_bind (DiskATA.keeps_run room.allowed room.limit) fun _ => keeps_pure _
    | atapi => exact DiskATAPI.keeps_read room.allowed room.limit room.orderly
  keeps_write disk r ok block buf room := by
    cases disk with
    | ata =>
      exact keeps_bind (DiskATA.keeps_run (room trivial).allowed (room trivial).limit) fun _ => keeps_pure _
    | atapi => exact keeps_lift _

end Ahcid

def Ided.reach (p : Profile) : Reach (Ided.driver p) where
  unit := AtaDisk.unit
  blockSize _ _ := 512
  span _ _ len := (len + 511) / 512
  limit := AtaDisk.limit
  limit_le disk := le_trans disk.limit_le (by decide)
  Orderly _ _ _ := True
  Writable _ := True
  meets_blockLength _ _ _ := meets_pure rfl
  absBlock_eq_ok _ _ _ h := summedAbsBlock_eq_ok h
  keeps_read disk _ _ block buf room := by
    show Keeps _ (disk.read p block buf)
    rw [AtaDisk.read_eq]
    exact AtaDisk.keeps_pass none room.allowed room.limit
  keeps_write disk _ _ block buf room := by
    show Keeps _ (disk.write p block buf)
    rw [AtaDisk.write_eq]
    exact keeps_bind (AtaDisk.keeps_pass _ (room trivial).allowed (room trivial).limit)
      fun _ => keeps_pure _

end RedoxDrivers.Disk
