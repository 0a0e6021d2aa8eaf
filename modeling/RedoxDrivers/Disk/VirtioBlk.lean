import Mathlib.Algebra.Group.Int.Defs
import RedoxDrivers.Disk.BlockRead
import RedoxDrivers.Disk.Scheme
import RedoxDrivers.Lib.Image

/-!
The disk scheme of `virtio-blkd` (`virtio-blkd/src/scheme.rs`).

It is not one of the three copies in `Disk.Scheme`: there is one disk, nobody asks for the uid,
nothing is locked, and paths that name nothing make it panic. A virtio block device is addressed
in sectors of 512 bytes, whatever block size its configuration names, and its capacity is counted
in them. The scheme divides offsets by the configured block size for the disk and by 512 for a
partition; the shim through which the partition table is read divides by 512 but takes the
configured block size for the end of the disk.

`sectors_agree_iff`: the three ways to a byte of the disk agree exactly if the block size is 512.
-/

namespace RedoxDrivers.Disk.VirtioBlk

open Lib Lib.Image Text BitVec Nat Act
open Act (lift bind_ok keeps_pure keeps_bind read_bind)

/-! ### The device -/

/-- The fields of the device configuration that the driver reads. -/
structure BlockDeviceConfig where
  capacity : U64
  blockSize : U32
deriving DecidableEq, Repr

/-- A request for `size` bytes from a sector on. -/
structure Asked where
  sector : U64
  size : Nat
  write : Bool
deriving DecidableEq, Repr

structure Device where
  cfg : BlockDeviceConfig
  image : Nat → U8
  /-- For each request to come, whether it fails. Requests beyond the list do not. -/
  faults : List Bool
  /-- Whether the kernel gives out a DMA region of no pages. -/
  emptyDma : Bool
  /-- The requests so far. -/
  asked : List Asked

/-- What comes back for a chain: the status byte, the number of bytes the device has written,
and the data buffer. -/
structure Answer where
  status : U8
  used : U32
  data : List U8

variable (p : Profile)

namespace Device

/-- Whole sectors that the device has. -/
def InRange (cfg : BlockDeviceConfig) (sector : U64) (size : Nat) : Prop :=
  size % 512 = 0 ∧ sector.toNat + size / 512 ≤ cfg.capacity.toNat

instance (cfg : BlockDeviceConfig) (sector : U64) (size : Nat) : Decidable (InRange cfg sector size) :=
  inferInstanceAs (Decidable (_ ∧ _))

/-- The bookkeeping for a request: `true` if it is served. -/
def accept (sector : U64) (size : Nat) (write : Bool) : Act Device Bool := fun dev =>
  let fault := dev.faults.headD false
  (.ok (!fault && decide (InRange dev.cfg sector size)),
    { dev with faults := dev.faults.tail, asked := dev.asked ++ [⟨sector, size, write⟩] })

/-- An `In` request. The data buffer has `len` bytes and is zeroed; its descriptor has 32 bits for
the length. -/
def sendIn (sector : U64) (len : Nat) : Act Device Answer := do
  let size := len % 2 ^ 32
  if ← accept sector size false then
    let data ← read fun dev => bytes dev.image (sector.toNat * 512) size
    return ⟨0, .ofNat 32 (size + 1), data ++ List.replicate (len - size) 0⟩
  else return ⟨1, 1, List.replicate len 0⟩

/-- An `Out` request. -/
def sendOut (sector : U64) (buf : List U8) : Act Device Answer := do
  let size := buf.length % 2 ^ 32
  if ← accept sector size true then
    modify fun dev =>
      { dev with image := store dev.image (sector.toNat * 512) (buf.take size) }
    return ⟨0, 1, buf⟩
  else return ⟨1, 1, buf⟩

/-- `Dma::zeroed_slice(len).unwrap()`. -/
def allocate (len : Nat) : Act Device Unit := fun dev =>
  if len = 0 ∧ dev.emptyDma = false then (.error (.panic .unwrapNone), dev) else (.ok (), dev)

/-- `BlkExtension::read`. -/
def read (block : U64) (target : List U8) : Act Device (List U8) := do
  allocate target.length
  let answer ← sendIn block target.length
  let written ← lift (checked (p.sub (answer.used.setWidth 64) 1))
  if answer.status ≠ 0 then lift (.error (.panic .assertFailed))
  else if target.length < written.toNat ∨ written.toNat ≠ answer.data.length then
    lift (.error (.panic .outOfBounds))
  else return answer.data

/-- `BlkExtension::write`. -/
def write (block : U64) (target : List U8) : Act Device Nat := do
  allocate target.length
  let answer ← sendOut block target
  if answer.status ≠ 0 then lift (.error (.panic .assertFailed)) else return target.length

end Device

open Device

/-! ### The shim that reads the partition table -/

namespace Shim

/-- The closure `read_block`: one sector, copied to the front of the scratch buffer. -/
def readBlock {n : Nat} (block : U64) (blockBytes : Vector U8 n) : Act Device (Vector U8 n) := do
  let answer ← sendIn block 512
  if answer.status ≠ 0 then lift (.error (.panic .assertFailed))
  else return blockBytes.mapIdx fun i byte => answer.data[i]?.getD byte

/-- `Read::read` at an offset of the shim: the bytes read and the offset after them. -/
def read (offset : U64) (len : Nat) : Act Device (List U8 × U64) := do
  let (bytesRead, buf) ← blockRead p offset 512 (List.replicate len 0) (Vector.replicate 4096 0) readBlock
  let offset ← lift (checked (p.add offset (.ofNat 64 bytesRead)))
  return (buf.take bytesRead, offset)

inductive SeekFrom where
  | start (pos : U64)
  | current (distance : Int)
  | fromEnd (distance : Int)

/-- `a + b` of `i64`s. -/
def addI64 (a b : Int) : Except Fault Int :=
  if p = .debug ∧ ¬ (-2 ^ 63 ≤ a + b ∧ a + b < 2 ^ 63) then .error .overflow
  else .ok (Int.bmod (a + b) (2 ^ 64))

/-- `Seek::seek`: the new offset, or `none` for the error on disks of 2^63 bytes or more. -/
def seek (cfg : BlockDeviceConfig) (offset : U64) (pos : SeekFrom) : Except Fault (Option U64) := do
  let sizeU ← p.mul cfg.capacity (cfg.blockSize.setWidth 64)
  if 2 ^ 63 ≤ sizeU.toNat then return none
  else
    match pos with
    | .start newPos => return some (if newPos ≤ sizeU then newPos else sizeU)
    | .current distance => do
      let sum ← addI64 p offset.toInt distance
      return some (.ofInt 64 (max 0 (min sizeU.toNat sum)))
    | .fromEnd distance => do
      let sum ← addI64 p sizeU.toNat distance
      return some (.ofInt 64 (max 0 (min sum sizeU.toNat)))

end Shim

/-! ### The scheme -/

inductive Handle where
  | partition (number : Nat)
  | list (entries : List U8)
  | disk
deriving DecidableEq, Repr

structure DiskScheme where
  device : Device
  nextId : U64
  handles : AList fun _ : U64 => Handle
  partTable : Option PartitionTable

namespace DiskScheme

section

variable (partTable : Option PartitionTable)

def names : List (List Char) :=
  decimal 0 ::
    match partTable with
    | none => []
    | some pt =>
      (List.range pt.partitions.length).map fun part =>
        decimal 0 ++ 'p' :: decimal part

/-- The text of the directory. -/
def listing : List Char := (names partTable).flatMap fun name => name ++ ['\n']

/-- A path with a `p` at character `pPos`. The text before the `p` is cut out and not looked
at. -/
def resolvePartition (pathStr : List Char) (pPos : Nat) : Except Stop Handle := do
  let _ ← checked (sliceTo pathStr pPos)
  if len pathStr ≤ pPos + 1 then .error (.errno .enoent)
  else
    let partStr ← checked (sliceFrom pathStr (pPos + 1))
    let part ← checked (unwrap (parse (2 ^ 32) partStr))
    let pt ← checked (unwrap partTable)
    let _ ← checked (unwrap pt.partitions[part]?)
    .ok (.partition part)

/-- A path without a `p`. -/
def resolveDisk (pathStr : List Char) : Except Stop Handle := do
  let nsid ← checked (unwrap (parse (2 ^ 32) pathStr))
  if nsid = 0 then .ok .disk else .error (.panic .assertFailed)

/-- What `xopen` makes of a path. -/
def resolve (path : List Char) (flags : U64) : Except Stop Handle :=
  let pathStr := trimMatches '/' path
  if pathStr = [] then
    if flags &&& DiskScheme.O_DIRECTORY = DiskScheme.O_DIRECTORY ∨
        flags &&& DiskScheme.O_STAT = DiskScheme.O_STAT then
      .ok (.list (intoBytes (listing partTable)))
    else .error (.errno .eisdir)
  else
    match position 'p' pathStr with
    | some pPos => resolvePartition partTable pathStr pPos
    | none => resolveDisk pathStr

end

def xopen (path : List Char) (flags : U64) : Act DiskScheme U64 := do
  let s ← read fun s => s
  let handle ← lift (resolve s.partTable path flags)
  let next ← lift (checked (p.add s.nextId 1))
  modify fun s => { s with nextId := next, handles := s.handles.insert s.nextId handle }
  return s.nextId

/-- Code that runs on the device. -/
def onDevice {α : Type} (x : Act Device α) : Act DiskScheme α := fun s =>
  match x s.device with
  | (result, device) => (result, { s with device })

def handleOf (id : U64) : Act DiskScheme Handle := do
  let s ← read fun s => s
  lift (okOr (s.handles.lookup id) .ebadf)

/-- The sector of the disk at an offset: it is counted in blocks of the configured size. -/
def diskSector (offset : U64) : Act DiskScheme U64 := do
  let cfg ← read fun s => s.device.cfg
  lift (checked (div offset (cfg.blockSize.setWidth 64)))

/-- The sector at an offset of a partition. There is no check that it is in the partition. -/
def partitionSector (number : Nat) (offset : U64) : Act DiskScheme U64 := do
  let s ← read fun s => s
  let pt ← lift (checked (unwrap s.partTable))
  let part ← lift (okOr pt.partitions[number]? .ebadf)
  lift (checked (p.add part.startLba (offset / 512)))

def read (id : U64) (buf : List U8) (offset : U64) : Act DiskScheme (List U8) := do
  match ← handleOf id with
  | .list entries => return (entries.drop offset.toNat).take buf.length
  | .partition number => do
    let sector ← partitionSector p number offset
    onDevice (Device.read p sector buf)
  | .disk => do
    let sector ← diskSector offset
    onDevice (Device.read p sector buf)

def write (id : U64) (buf : List U8) (offset : U64) : Act DiskScheme Nat := do
  match ← handleOf id with
  | .disk => do
    let sector ← diskSector offset
    onDevice (Device.write sector buf)
  -- `todo!()`
  | .list _ => lift (.error (.panic .unreachable))
  | .partition _ => lift (.error (.panic .unreachable))

def fsize (id : U64) : Act DiskScheme U64 := do
  match ← handleOf id with
  | .list entries => return .ofNat 64 entries.length
  | .partition number => do
    let s ← Act.read fun s => s
    let pt ← lift (checked (unwrap s.partTable))
    let part ← lift (okOr pt.partitions[number]? .ebadf)
    lift (checked (p.mul part.size 512))
  | .disk => do
    let cfg ← Act.read fun s => s.device.cfg
    lift (checked (p.mul cfg.capacity (cfg.blockSize.setWidth 64)))

/-- `todo!()`. -/
def fpath : Act DiskScheme Nat := lift (.error (.panic .unreachable))

def fstat (id : U64) : Act DiskScheme Nat := do
  match ← handleOf id with
  | .list _ => return 0
  -- `todo!()`
  | .disk => lift (.error (.panic .unreachable))
  | .partition _ => lift (.error (.panic .unreachable))

def close (id : U64) : Act DiskScheme Nat := do
  let s ← Act.read fun s => s
  let _ ← lift (okOr (s.handles.lookup id) .ebadf)
  Act.modify fun s => { s with handles := s.handles.erase id }
  return 0

inductive Call where
  | xopen (path : List Char) (flags : U64)
  | close (id : U64)
  | read (id : U64) (buf : List U8) (offset : U64)
  | write (id : U64) (buf : List U8) (offset : U64)
  | fsize (id : U64)
  | fstat (id : U64)
  | fpath

/-- A call, without its result. -/
def perform : Call → Act DiskScheme Unit
  | .xopen path flags => do let _ ← xopen p path flags
  | .close id => do let _ ← close id
  | .read id buf offset => do let _ ← read p id buf offset
  | .write id buf offset => do let _ ← write id buf offset
  | .fsize id => do let _ ← fsize p id
  | .fstat id => do let _ ← fstat id
  | .fpath => do let _ ← fpath

/-- A call ends with `Ok` or with an error code; after a panic there is no further state. -/
def step (s : DiskScheme) (call : Call) : Option DiskScheme :=
  match perform p call s with
  | (.error (.panic _), _) => none
  | (_, s') => some s'

end DiskScheme

open VirtioBlk.DiskScheme

/-! ### What a call asks the device for -/

namespace Device

variable {p : Profile} {dev : Device} {block : U64} {target : List U8}

/-- The device does what the request says. -/
def Serves (dev : Device) (sector : U64) (size : Nat) : Prop :=
  dev.faults.headD false = false ∧ InRange dev.cfg sector size

instance (dev : Device) (sector : U64) (size : Nat) : Decidable (dev.Serves sector size) :=
  inferInstanceAs (Decidable (_ ∧ _))

/-- The device after it has looked at a request. -/
def after (dev : Device) (sector : U64) (size : Nat) (write : Bool) : Device :=
  { dev with faults := dev.faults.tail, asked := dev.asked ++ [⟨sector, size, write⟩] }

theorem accept_eq (sector : U64) (size : Nat) (write : Bool) (dev : Device) :
    accept sector size write dev =
      (.ok (decide (dev.Serves sector size)), dev.after sector size write) := by
  have hserves : (!dev.faults.headD false && decide (InRange dev.cfg sector size)) =
      decide (dev.Serves sector size) := by
    rw [Bool.eq_iff_iff, decide_eq_true_iff, Serves]
    simp
  unfold accept
  dsimp only
  rw [hserves]
  rfl

theorem sendIn_eq (sector : U64) (len : Nat) (dev : Device) : sendIn sector len dev =
      (.ok (if dev.Serves sector (len % 2 ^ 32) then
          ⟨0, .ofNat 32 (len % 2 ^ 32 + 1), bytes dev.image (sector.toNat * 512) (len % 2 ^ 32) ++
            List.replicate (len - len % 2 ^ 32) 0⟩
        else ⟨1, 1, List.replicate len 0⟩), dev.after sector (len % 2 ^ 32) false) := by
  unfold sendIn
  rw [bind_ok (accept_eq sector (len % 2 ^ 32) false dev)]
  by_cases h : dev.Serves sector (len % 2 ^ 32)
  · rw [if_pos (by simpa using h), if_pos h]
    rfl
  · rw [if_neg (by simpa using h), if_neg h]
    rfl

theorem allocate_eq (h : target ≠ [] ∨ dev.emptyDma = true) :
    allocate target.length dev = (.ok (), dev) := by
  refine if_neg ?_
  rintro ⟨hlen, hempty⟩
  rcases h with h | h
  · exact h (List.length_eq_zero_iff.mp hlen)
  · rw [hempty] at h
    cases h

/-- A read of one request or none of the data. -/
theorem read_eq (p : Profile) (block : U64) (h : target ≠ [] ∨ dev.emptyDma = true) :
    read p block target dev =
      (if dev.Serves block (target.length % 2 ^ 32) then
          if target.length < 2 ^ 32 then .ok (bytes dev.image (block.toNat * 512) target.length)
          else .error (.panic .outOfBounds)
        else .error (.panic .assertFailed), dev.after block (target.length % 2 ^ 32) false) := by
  unfold read
  rw [bind_ok (allocate_eq h), bind_ok (sendIn_eq block target.length dev)]
  by_cases hserves : dev.Serves block (target.length % 2 ^ 32)
  · -- Whole sectors: the count with the status byte fits into 32 bits.
    have hmod := hserves.2.1
    have hused : ((BitVec.ofNat 32 (target.length % 2 ^ 32 + 1)).setWidth 64).toNat =
        target.length % 2 ^ 32 + 1 := by
      rw [toNat_setWidth, toNat_ofNat]
      omega
    have hsub : p.sub ((BitVec.ofNat 32 (target.length % 2 ^ 32 + 1)).setWidth 64) 1 =
        .ok (.ofNat 64 (target.length % 2 ^ 32)) := by
      have : (BitVec.ofNat 32 (target.length % 2 ^ 32 + 1)).setWidth 64 =
          BitVec.ofNat 64 (target.length % 2 ^ 32 + 1) := by
        rw [← toNat_inj, hused, toNat_ofNat]
        omega
      rw [this]
      exact Profile.sub_ofNat (y := 1) (by omega) (by omega)
    simp only [if_pos hserves]
    rw [hsub, checked_ok, lift_ok_bind, if_neg (by decide),
      toNat_ofNat_of_lt (by omega : target.length % 2 ^ 32 < 2 ^ 64), List.length_append,
      length_bytes, List.length_replicate]
    by_cases hlen : target.length < 2 ^ 32
    · rw [Nat.mod_eq_of_lt hlen, if_neg (by omega), if_pos hlen, Nat.sub_self]
      simp
    · rw [if_pos (by omega), if_neg hlen]
      rfl
  · have hsub : p.sub ((1 : U32).setWidth 64) 1 = .ok (0 : U64) := by cases p <;> rfl
    simp only [if_neg hserves]
    rw [hsub, checked_ok, lift_ok_bind, if_pos (by decide)]
    rfl

theorem write_eq (block : U64) (h : target ≠ [] ∨ dev.emptyDma = true) : write block target dev =
      if dev.Serves block (target.length % 2 ^ 32) then
        (.ok target.length, { dev.after block (target.length % 2 ^ 32) true with
          image := store dev.image (block.toNat * 512) (target.take (target.length % 2 ^ 32)) })
      else (.error (.panic .assertFailed), dev.after block (target.length % 2 ^ 32) true) := by
  unfold write sendOut
  rw [bind_ok (allocate_eq h), bind_apply,
    bind_ok (accept_eq block (target.length % 2 ^ 32) true dev)]
  by_cases hserves : dev.Serves block (target.length % 2 ^ 32)
  · rw [if_pos (by simpa using hserves), if_pos hserves]
    rfl
  · rw [if_neg (by simpa using hserves), if_neg hserves]
    rfl

end Device

namespace DiskScheme

variable {p : Profile} {s : DiskScheme} {id offset : U64} {buf : List U8} {handle : Handle}
  {α : Type}

theorem handleOf_bind {f : Handle → Act DiskScheme α} (h : s.handles.lookup id = some handle) :
    (handleOf id >>= f) s = f handle s := by
  have hget : handleOf id s = (.ok handle, s) := by
    rw [handleOf, read_bind, h]
    rfl
  exact bind_ok hget

/-- The block size by which the offset of an access to the disk is divided. -/
abbrev blockSize (s : DiskScheme) : U64 := s.device.cfg.blockSize.setWidth 64

theorem blockSize_eq {cfg : BlockDeviceConfig} (h : s.device.cfg = cfg) :
    s.blockSize.toNat = cfg.blockSize.toNat := by
  rw [blockSize, h, toNat_setWidth]
  exact mod_eq_of_lt (by omega)

/-- An access to the disk gets to the device if there are blocks. -/
theorem onDisk_apply {access : U64 → Act Device α} (s : DiskScheme) (offset : U64) :
    (diskSector offset >>= fun sector => onDevice (access sector)) s =
      if s.blockSize = 0 then (.error (.panic .divideByZero), s)
      else ((access (offset / s.blockSize) s.device).1,
        { s with device := (access (offset / s.blockSize) s.device).2 }) := by
  have hget : diskSector offset s = (checked (div offset s.blockSize), s) := rfl
  rw [bind_apply, hget, div]
  by_cases hzero : s.blockSize = 0
  · rw [if_pos hzero, if_pos hzero]
    rfl
  · rw [if_neg hzero, if_neg hzero]
    rfl

section

variable (hopen : s.handles.lookup id = some .disk)

include hopen

theorem read_disk : read p id buf offset s = if s.blockSize = 0 then (.error (.panic .divideByZero), s)
      else ((Device.read p (offset / s.blockSize) buf s.device).1,
        { s with device := (Device.read p (offset / s.blockSize) buf s.device).2 }) := by
  rw [read, handleOf_bind hopen]
  exact onDisk_apply s offset

theorem write_disk : write id buf offset s = if s.blockSize = 0 then (.error (.panic .divideByZero), s)
      else ((Device.write (offset / s.blockSize) buf s.device).1,
        { s with device := (Device.write (offset / s.blockSize) buf s.device).2 }) := by
  rw [write, handleOf_bind hopen]
  exact onDisk_apply s offset

end

theorem read_partition {number : Nat} {pt : PartitionTable} {part : Partition}
    (hopen : s.handles.lookup id = some (.partition number)) (hpt : s.partTable = some pt)
    (hpart : pt.partitions[number]? = some part) : read p id buf offset s =
      (lift (checked (p.add part.startLba (offset / 512))) >>= fun sector =>
        onDevice (Device.read p sector buf)) s := by
  have hget : partitionSector p number offset s =
      (checked (p.add part.startLba (offset / 512)), s) := by
    rw [partitionSector, read_bind, hpt]
    change (lift (okOr pt.partitions[number]? .ebadf) >>= _) s = _
    rw [hpart]
    rfl
  rw [read, handleOf_bind hopen]
  dsimp only
  rw [bind_apply, bind_apply, hget]
  rfl

end DiskScheme

/-! ### Sectors -/

/-- The request that a call made first. -/
def firstAsked (before after : Device) : Option Asked := (after.asked.drop before.asked.length).head?

/-- Every way to a byte of the disk asks for its sector, and the disk has the size that its
sectors make. -/
structure SectorsAgree (cfg : BlockDeviceConfig) : Prop where
  read : ∀ (s : DiskScheme) id buf (pos : U64), s.device.cfg = cfg →
    s.handles.lookup id = some .disk → pos.toNat < cfg.capacity.toNat * 512 → buf ≠ [] →
      (firstAsked s.device (read p id buf pos s).2.device).map Asked.sector = some (pos / 512)
  write : ∀ (s : DiskScheme) id buf (pos : U64), s.device.cfg = cfg →
    s.handles.lookup id = some .disk → pos.toNat < cfg.capacity.toNat * 512 → buf ≠ [] →
      (firstAsked s.device (write id buf pos s).2.device).map Asked.sector = some (pos / 512)
  partition : ∀ (s : DiskScheme) id number pt part buf (pos : U64), s.device.cfg = cfg →
    s.handles.lookup id = some (.partition number) → s.partTable = some pt →
    pt.partitions[number]? = some part → part.startLba.toNat * 512 ≤ pos.toNat →
    pos.toNat < (part.startLba.toNat + part.size.toNat) * 512 →
    pos.toNat < cfg.capacity.toNat * 512 → buf ≠ [] →
      (firstAsked s.device (DiskScheme.read p id buf (pos - part.startLba * 512) s).2.device).map
        Asked.sector = some (pos / 512)
  shim : ∀ (dev : Device) offset offset' len (pos : U64), dev.cfg = cfg →
    pos.toNat < cfg.capacity.toNat * 512 → 0 < len →
    Shim.seek p cfg offset (.start pos) = .ok (some offset') →
      (firstAsked dev (Shim.read p offset' len dev).2).map Asked.sector = some (pos / 512)
  fsize : ∀ (s : DiskScheme) id, s.device.cfg = cfg → s.handles.lookup id = some .disk →
    ∃ n, (fsize p id s).1 = .ok n ∧ n.toNat = cfg.capacity.toNat * 512

section Agreement

variable {p : Profile} {cfg : BlockDeviceConfig} {dev dev' : Device} {s : DiskScheme}
  {id pos : U64} {buf : List U8} {a : Asked} {rest : List Asked}

theorem firstAsked_eq (h : dev'.asked = dev.asked ++ a :: rest) : firstAsked dev dev' = some a := by
  rw [firstAsked, h, List.drop_left]
  rfl

theorem firstAsked_read (p : Profile) (sector : U64) (hbuf : buf ≠ []) :
    (firstAsked dev (read p sector buf dev).2).map Asked.sector = some sector := by
  rw [read_eq p sector (.inl hbuf), firstAsked_eq rfl]
  rfl

/-- The requests in `asked` were made first. -/
def Began (asked : List Asked) (dev : Device) : Prop := asked <+: dev.asked

theorem began_readBlock {asked : List Asked} {block : U64} {n : Nat} {blockBytes : Vector U8 n}
    (h : Began asked (sendIn block 512 dev).2) :
    Began asked (Shim.readBlock block blockBytes dev).2 := by
  refine inv_bind h fun answer => ?_
  split
  · exact keeps_lift _
  · exact keeps_pure _

theorem keeps_readBlocks (asked : List Asked) {n : Nat} (blocks : List Nat) (blockBytes : Vector U8 n) :
    Keeps (Began asked) (readBlocks 512 Shim.readBlock blocks blockBytes) := by
  induction blocks generalizing blockBytes with
  | nil => exact keeps_pure _
  | cons block blocks ih =>
    refine keeps_bind (fun dev h => began_readBlock ?_) fun _ => keeps_bind (ih _) fun _ => keeps_pure _
    rw [sendIn_eq]
    exact h.trans (List.prefix_append _ _)

/-- A read through the shim asks first for the sector of its offset. -/
theorem firstAsked_shim (p : Profile) {offset : U64} {len : Nat} (hlen : 0 < len)
    (hoffset : offset.toNat < 2 ^ 64 - 1) :
    (firstAsked dev (Shim.read p offset len dev).2).map Asked.sector = some (offset / 512) := by
  have hcopy : reachable offset (List.replicate len (0 : U8)).length ≠ 0 ∧
      offset.toNat + reachable offset (List.replicate len (0 : U8)).length < 2 ^ 64 := by
    rw [List.length_replicate, reachable]
    omega
  have hsector : BitVec.ofNat 64 (offset.toNat / 512) = offset / 512 := by
    rw [← toNat_inj, toNat_udiv, toNat_ofNat]
    exact mod_eq_of_lt (by omega)
  have hsend : Began (dev.asked ++ [⟨offset / 512, 512, false⟩])
      (sendIn (offset / 512) 512 dev).2 := by
    rw [sendIn_eq]
    exact List.prefix_rfl
  have hbegan : Began (dev.asked ++ [⟨offset / 512, 512, false⟩]) (Shim.read p offset len dev).2 := by
    refine inv_bind ?_ fun _ => keeps_bind (keeps_lift _) fun _ => keeps_pure _
    rw [blockRead, if_neg (by simp; omega), blockReadFrom_eq (by decide) (by decide) _
      (lt_succ_self _) hcopy.2, touched_cons (by decide) hcopy.1]
    refine inv_bind (inv_bind ?_ fun _ => keeps_pure _) fun _ => keeps_pure _
    refine inv_bind (began_readBlock ?_) fun _ => keeps_bind (keeps_readBlocks _ _ _) fun _ => keeps_pure _
    exact hsector ▸ hsend
  obtain ⟨rest, hrest⟩ := hbegan
  rw [firstAsked_eq (hrest.symm.trans (List.append_assoc _ _ _))]
  rfl

/-- The offset that `seek` sets, if the disk size does not overflow. -/
theorem seek_start {offset offset' : U64}
    (hsize : cfg.capacity.toNat * cfg.blockSize.toNat < 2 ^ 64)
    (hpos : pos.toNat < cfg.capacity.toNat * cfg.blockSize.toNat)
    (h : Shim.seek p cfg offset (.start pos) = .ok (some offset')) : offset' = pos := by
  have hbs : (cfg.blockSize.setWidth 64).toNat = cfg.blockSize.toNat := by
    rw [toNat_setWidth]
    exact mod_eq_of_lt (by omega)
  have hmul : p.mul cfg.capacity (cfg.blockSize.setWidth 64) =
      .ok (cfg.capacity * cfg.blockSize.setWidth 64) := by
    refine if_neg fun h => ?_
    rw [hbs] at h
    omega
  have hnat : (cfg.capacity * cfg.blockSize.setWidth 64).toNat =
      cfg.capacity.toNat * cfg.blockSize.toNat := by
    rw [toNat_mul, hbs, mod_eq_of_lt hsize]
  rw [Shim.seek, hmul, ok_bind] at h
  dsimp only at h
  split at h
  · cases h
  · rw [if_pos (by rw [le_def, hnat]; omega)] at h
    cases h
    rfl

theorem fsize_disk (hopen : s.handles.lookup id = some .disk) :
    (fsize p id s).1 = checked (p.mul s.device.cfg.capacity s.blockSize) := by
  rw [fsize, handleOf_bind hopen]
  rfl

theorem toNat_512 : (512 : U64).toNat = 512 := by decide

theorem blockSize_512 (hcfg : s.device.cfg = cfg) (hbs : cfg.blockSize = 512) : s.blockSize = 512 := by
  rw [blockSize, hcfg, hbs]
  rfl

theorem sectorsAgree_of_blockSize (hbs : cfg.blockSize = 512)
    (hsize : cfg.capacity.toNat * 512 < 2 ^ 64) : SectorsAgree p cfg where
  read := by
    intro s id buf pos hcfg hopen hpos hbuf
    have hblock := blockSize_512 hcfg hbs
    rw [read_disk hopen, hblock, if_neg (by decide)]
    exact firstAsked_read p _ hbuf
  write := by
    intro s id buf pos hcfg hopen hpos hbuf
    have hblock := blockSize_512 hcfg hbs
    rw [write_disk hopen, hblock, if_neg (by decide), write_eq _ (.inl hbuf)]
    split
    all_goals
      rw [firstAsked_eq rfl]
      rfl
  partition := by
    intro s id number pt part buf pos hcfg hopen hpt hpart hstart hend hpos hbuf
    have hoffset : (pos - part.startLba * 512).toNat = pos.toNat - part.startLba.toNat * 512 := by
      have := pos.isLt
      have hmul : (part.startLba * 512).toNat = part.startLba.toNat * 512 := by
        rw [toNat_mul, toNat_512, mod_eq_of_lt (lt_of_le_of_lt hstart this)]
      rw [toNat_sub, hmul]
      omega
    have hsum : p.add part.startLba ((pos - part.startLba * 512) / 512) = .ok (pos / 512) := by
      refine Profile.add_eq_ok.mpr ⟨fun h => ?_, ?_⟩
      · rw [toNat_udiv, hoffset, toNat_512] at h
        omega
      · rw [← toNat_inj, toNat_add, toNat_udiv, toNat_udiv, hoffset,
          toNat_512]
        omega
    rw [read_partition hopen hpt hpart, hsum, checked_ok, lift_ok_bind]
    exact firstAsked_read p _ hbuf
  shim := by
    intro dev offset offset' len pos hcfg hpos hlen hseek
    have hblock : cfg.blockSize.toNat = 512 := by
      rw [hbs]
      rfl
    rw [seek_start (by rw [hblock]; exact hsize) (by rw [hblock]; exact hpos) hseek]
    exact firstAsked_shim p hlen (by omega)
  fsize := by
    intro s id hcfg hopen
    have hblock := blockSize_512 hcfg hbs
    refine ⟨cfg.capacity * 512, ?_, ?_⟩
    · rw [fsize_disk hopen, hblock, hcfg, checked_eq_ok]
      refine if_neg fun h => ?_
      rw [toNat_512] at h
      omega
    · rw [toNat_mul, toNat_512, mod_eq_of_lt hsize]

theorem sectorsAgree_of_empty (hcap : cfg.capacity = 0) : SectorsAgree p cfg := by
  have hnone (pos : U64) : ¬ pos.toNat < cfg.capacity.toNat * 512 := by
    rw [hcap]
    exact not_lt_zero _
  refine ⟨fun _ _ _ pos _ _ hpos => absurd hpos (hnone pos),
    fun _ _ _ pos _ _ hpos => absurd hpos (hnone pos),
    fun _ _ _ _ _ _ pos _ _ _ _ _ _ hpos => absurd hpos (hnone pos),
    fun _ _ _ _ pos _ hpos => absurd hpos (hnone pos),
    fun s id hcfg hopen => ⟨0, ?_, by rw [hcap]; rfl⟩⟩
  rw [fsize_disk hopen, hcfg, hcap, checked_eq_ok]
  cases p <;> simp [Profile.mul]

/-- A scheme with a handle on its disk. -/
def withDisk (cfg : BlockDeviceConfig) (image : Nat → U8) (faults : List Bool) : DiskScheme :=
  ⟨⟨cfg, image, faults, true, []⟩, 1, AList.singleton 0 .disk, none⟩

/-- What agreement says about the block size, at one byte of the disk. -/
theorem SectorsAgree.div_eq (agree : SectorsAgree p cfg) (pos : Nat)
    (hpos : pos < cfg.capacity.toNat * 512) (hlt : pos < 2 ^ 64) :
    cfg.blockSize.toNat ≠ 0 ∧ pos / cfg.blockSize.toNat = pos / 512 := by
  have hnat : (BitVec.ofNat 64 pos).toNat = pos := toNat_ofNat_of_lt hlt
  have hbs : (withDisk cfg (fun _ => 0) []).blockSize.toNat = cfg.blockSize.toNat := blockSize_eq rfl
  have hread := agree.read (withDisk cfg (fun _ => 0) []) 0 [0] (.ofNat 64 pos) rfl rfl (by rwa [hnat])
    (by simp)
  rw [read_disk rfl] at hread
  split at hread
  · rw [firstAsked, List.drop_length] at hread
    cases hread
  · rename_i hne
    rw [firstAsked_read p _ (by simp), Option.some_inj, ← toNat_inj, toNat_udiv, toNat_udiv, hnat, hbs,
      toNat_512] at hread
    refine ⟨fun hzero => hne ?_, hread⟩
    rw [← toNat_inj, hbs, hzero]
    rfl

/-- **Sector addressing.** Sectors and size are those of the device exactly if the configured
block size is that of a sector. -/
theorem sectors_agree_iff (p : Profile) (cfg : BlockDeviceConfig) : SectorsAgree p cfg ↔
      cfg.capacity = 0 ∨ (cfg.blockSize = 512 ∧ cfg.capacity.toNat * 512 < 2 ^ 64) := by
  constructor
  · intro agree
    -- The size alone excludes a disk that is too large; the bytes 511 and 512 fix the block size.
    obtain ⟨n, hn, hsize⟩ := agree.fsize (withDisk cfg (fun _ => 0) []) 0 rfl rfl
    rw [fsize_disk rfl, checked_eq_ok] at hn
    rcases eq_or_ne cfg.capacity 0 with hcap | hcap
    · exact .inl hcap
    · refine .inr ⟨?_, by omega⟩
      have hpos : 0 < cfg.capacity.toNat := by
        rw [Nat.pos_iff_ne_zero]
        exact fun h => hcap (by rw [← toNat_inj, h]; rfl)
      obtain ⟨hbs, hdiv⟩ := agree.div_eq 511 (by omega) (by decide)
      have hge : 512 ≤ cfg.blockSize.toNat := by
        by_contra hlt
        have := div_pos (show cfg.blockSize.toNat ≤ 511 by omega) (by omega)
        omega
      rw [← toNat_inj]
      change cfg.blockSize.toNat = 512
      rcases lt_or_ge 1 cfg.capacity.toNat with hmany | hone
      · obtain ⟨-, hdiv⟩ := agree.div_eq 512 (by omega) (by decide)
        have := div_mul_le_self 512 cfg.blockSize.toNat
        rw [hdiv] at this
        omega
      · -- A disk of one sector is as long as its block.
        have hcap : cfg.capacity = 1#64 := by
          rw [← toNat_inj]
          change cfg.capacity.toNat = 1
          omega
        have hprod : cfg.capacity * (withDisk cfg (fun _ => 0) []).blockSize = n :=
          (Profile.mul_eq_ok.mp hn).2
        rw [hcap, BitVec.one_mul] at hprod
        have hbs' := blockSize_eq (s := withDisk cfg (fun _ => 0) []) rfl
        rw [hprod, hsize, hcap] at hbs'
        exact hbs'.symm
  · rintro (hcap | ⟨hbs, hsize⟩)
    · exact sectorsAgree_of_empty hcap
    · exact sectorsAgree_of_blockSize hbs hsize

/-- A disk with blocks of 4096 bytes: its byte 4096 is in sector 8, and the driver asks for
sector 1. -/
theorem large_blocks_misplaced : ¬ SectorsAgree .release ⟨16, 4096⟩ := by
  intro agree
  have := (agree.div_eq 4096 (by decide) (by decide)).2
  revert this
  decide

end Agreement

end RedoxDrivers.Disk.VirtioBlk
