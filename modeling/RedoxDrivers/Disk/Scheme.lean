import Mathlib.Data.List.AList
import RedoxDrivers.Lib.Act
import RedoxDrivers.Lib.Runs
import RedoxDrivers.Lib.Text

/-!
The disk schemes of `nvmed`, `ahcid` and `ided` (`scheme.rs` of each).

The three drivers carry copies of one scheme. A client opens the directory, a disk or a
partition by its path and gets a handle, and reads and writes go through the handle to the
disk. The copies differ in the integer type that numbers the disks, in the order of two
statements when a block of a partition is located, and in what `fstat` fills in. The scheme is
written once here, over `Driver`, which holds what differs, and over the type `δ` of a disk and
the type `σ` of the hardware state that the disk's functions work on.

Partition tables come from `partitionlib`; any table is possible.
-/

namespace RedoxDrivers.Disk

open Lib Text List Act

/-! ### Disks -/

/-- A partition, in blocks of its disk. -/
structure Partition where
  startLba : U64
  size : U64
deriving DecidableEq, Repr

/-- A partition table. The entries of a GPT are counted by a `u32`, those of an MBR are four. -/
structure PartitionTable where
  partitions : List Partition
  length_le : partitions.length ≤ 2 ^ 32
deriving DecidableEq

structure DiskWrapper (δ : Type) where
  inner : δ
  pt : Option PartitionTable

/-- The disks by number, in the order in which they are listed. Numbers are integers below
`bound`: `u32` namespace ids for `nvmed`, `usize` indices for `ahcid` and `ided`. -/
structure Disks (bound : Nat) (δ : Type) where
  table : AList fun _ : Nat => DiskWrapper δ
  lt_bound : ∀ i ∈ table, i < bound

def Disks.get {bound : Nat} {δ : Type} (disks : Disks bound δ) (number : Nat) :
    Option (DiskWrapper δ) :=
  disks.table.lookup number

/-- The disks of a boxed slice, by index. -/
def Disks.ofSlice {bound : Nat} {δ : Type} (disks : List (DiskWrapper δ))
    (length_le : disks.length ≤ bound) : Disks bound δ where
  table := ⟨disks.zipIdx.map fun (disk, i) => ⟨i, disk⟩, by
    rw [List.NodupKeys, List.keys, map_map]
    exact nodup_zipIdx_map_snd disks⟩
  lt_bound := by
    intro i hi
    obtain ⟨entry, hentry, rfl⟩ := mem_map.mp hi
    obtain ⟨⟨disk, j⟩, hmem, rfl⟩ := mem_map.mp hentry
    exact Nat.lt_of_lt_of_le (mem_zipIdx' hmem).1 length_le

/-- `disks.get(disk).pt.partitions.get(part)`. -/
def Disks.partition {bound : Nat} {δ : Type} (disks : Disks bound δ) (number part : Nat) :
    Option Partition := do
  let disk ← disks.get number
  let pt ← disk.pt
  pt.partitions[part]?

/-! ### Handles -/

inductive Handle where
  | list (entries : List U8)
  | disk (number : Nat)
  | partition (disk part : Nat)
deriving DecidableEq, Repr

/-- The test `check_locks` makes on one open handle. -/
def Handle.locks (diskI : Nat) (partIOpt : Option Nat) : Handle → Bool
  | .disk i => diskI == i
  | .partition i p =>
    diskI == i &&
      match partIOpt with
      | some partI => partI == p
      | none => true
  | .list _ => false

/-- The open handles, by id. -/
abbrev Handles := AList fun _ : U64 => Handle

def Handles.checkLocks (handles : Handles) (diskI : Nat) (partIOpt : Option Nat) :
    Except Errno Unit :=
  if handles.entries.any fun entry => entry.2.locks diskI partIOpt then .error .enolck else .ok ()

/-! ### What the drivers do differently -/

inductive FileMode where
  | dir
  | file
deriving DecidableEq, Repr

/-- The fields of `Stat` that `fstat` may set. -/
structure Stat where
  mode : FileMode
  size : U64
  blksize : U32
  blocks : U64
deriving DecidableEq, Repr

structure Driver (δ σ : Type) where
  /-- The block size, as the `u64` that offsets are divided by. -/
  blockLength : δ → Act σ U64
  size : δ → Act σ U64
  /-- Reads from a block on into a buffer. What it returns are the first `n` bytes of the buffer,
  for the `n` that the source returns. -/
  read : δ → U64 → List U8 → Act σ (List U8)
  write : δ → U64 → List U8 → Act σ Nat
  /-- The block of the disk for a block of a partition. -/
  absBlock : Partition → U64 → Except Stop U64
  statDisk : δ → Stat → Act σ Stat
  statPartition : δ → Partition → Stat → Act σ Stat

structure DiskScheme (bound : Nat) (δ σ : Type) where
  schemeName : List Char
  disks : Disks bound δ
  handles : Handles
  nextId : U64
  hardware : σ

namespace DiskScheme

variable {bound : Nat} {δ σ : Type}

def new (schemeName : List Char) (disks : Disks bound δ) (hardware : σ) : DiskScheme bound δ σ :=
  ⟨schemeName, disks, ∅, 0, hardware⟩

/-! ### Opening -/

def O_DIRECTORY : U64 := 0x10000000

def O_STAT : U64 := 0x20000000

/-- The names the directory lists for one disk. -/
def names (number : Nat) (disk : DiskWrapper δ) : List (List Char) :=
  decimal number ::
    match disk.pt with
    | none => []
    | some pt =>
      (List.range pt.partitions.length).map fun part =>
        decimal number ++ 'p' :: decimal part

section

variable (disks : Disks bound δ)

/-- The text of the directory: one name a line. -/
def listing : List Char :=
  disks.table.entries.flatMap fun entry =>
    (names entry.1 entry.2).flatMap fun name => name ++ ['\n']

/-- A path with a `p` at character `pPos`. The position is used as an index of bytes. -/
def resolvePartition (pathStr : List Char) (pPos : Nat) : Except Stop Handle := do
  let diskStr ← checked (sliceTo pathStr pPos)
  if len pathStr ≤ pPos + 1 then .error (.errno .enoent)
  else
    let partStr ← checked (sliceFrom pathStr (pPos + 1))
    let i ← okOr (parse bound diskStr) .enoent
    let p ← okOr (parse (2 ^ 32) partStr) .enoent
    let _ ← okOr (disks.partition i p) .enoent
    .ok (.partition i p)

/-- A path without a `p`. -/
def resolveDisk (pathStr : List Char) : Except Stop Handle := do
  let i ← okOr (parse bound pathStr) .enoent
  let _ ← okOr (disks.get i) .enoent
  .ok (.disk i)

/-- What a path stands for, up to the locks. -/
def resolve (path : List Char) (flags : U64) : Except Stop Handle :=
  let pathStr := trimMatches '/' path
  if pathStr = [] then
    if flags &&& O_DIRECTORY = O_DIRECTORY ∨ flags &&& O_STAT = O_STAT then
      .ok (.list (intoBytes (listing disks)))
    else .error (.errno .eisdir)
  else
    match position 'p' pathStr with
    | some pPos => resolvePartition disks pathStr pPos
    | none => resolveDisk disks pathStr

end

/-- The call of `check_locks` for what is to be opened. -/
def lockFor (handles : Handles) : Handle → Except Errno Unit
  | .list _ => .ok ()
  | .disk i => handles.checkLocks i none
  | .partition i p => handles.checkLocks i (some p)

/-- A new handle gets the next id. -/
def install (p : Profile) (handle : Handle) : Act (DiskScheme bound δ σ) U64 := do
  let id ← read nextId
  let next ← lift (checked (p.add id 1))
  modify fun s => { s with nextId := next, handles := s.handles.insert id handle }
  return id

def xopen (p : Profile) (path : List Char) (flags : U64) (uid : U32) :
    Act (DiskScheme bound δ σ) U64 :=
  if uid ≠ 0 then lift (.error (.errno .eacces))
  else do
    let s ← read fun s => s
    let handle ← lift (resolve s.disks path flags)
    lift (propagate (lockFor s.handles handle))
    install p handle

def close (id : U64) : Act (DiskScheme bound δ σ) Nat := do
  let s ← read fun s => s
  let _ ← lift (okOr (s.handles.lookup id) .ebadf)
  modify fun s => { s with handles := s.handles.erase id }
  return 0

/-! ### Access -/

/-- Code that runs on the hardware. -/
def device {α : Type} (x : Act σ α) : Act (DiskScheme bound δ σ) α := fun s =>
  match x s.hardware with
  | (result, hardware) => (result, { s with hardware })

def handleOf (id : U64) : Act (DiskScheme bound δ σ) Handle := do
  let s ← read fun s => s
  lift (okOr (s.handles.lookup id) .ebadf)

def diskOf (number : Nat) : Act (DiskScheme bound δ σ) (DiskWrapper δ) := do
  let s ← read fun s => s
  lift (okOr (s.disks.get number) .ebadf)

def partitionOf (disk : DiskWrapper δ) (part : Nat) : Except Stop Partition := do
  let pt ← okOr disk.pt .ebadf
  okOr pt.partitions[part]? .ebadf

section Calls

variable (drv : Driver δ σ)

/-- The block of the disk at which an access to a partition starts. -/
def locate (disk : DiskWrapper δ) (part : Nat) (offset : U64) : Act (DiskScheme bound δ σ) U64 := do
  let blksize ← device (drv.blockLength disk.inner)
  let relBlock ← lift (checked (div offset blksize))
  let partition ← lift (partitionOf disk part)
  lift (drv.absBlock partition relBlock)

/-- The block of the disk at which an access to the whole disk starts. -/
def blockAt (disk : DiskWrapper δ) (offset : U64) : Act (DiskScheme bound δ σ) U64 := do
  let blksize ← device (drv.blockLength disk.inner)
  lift (checked (div offset blksize))

def read (id : U64) (buf : List U8) (offset : U64) : Act (DiskScheme bound δ σ) (List U8) := do
  match ← handleOf id with
  | .list entries => return (entries.drop offset.toNat).take buf.length
  | .disk number => do
    let disk ← diskOf number
    let block ← blockAt drv disk offset
    device (drv.read disk.inner block buf)
  | .partition number part => do
    let disk ← diskOf number
    let absBlock ← locate drv disk part offset
    device (drv.read disk.inner absBlock buf)

def write (id : U64) (buf : List U8) (offset : U64) : Act (DiskScheme bound δ σ) Nat := do
  match ← handleOf id with
  | .list _ => lift (.error (.errno .ebadf))
  | .disk number => do
    let disk ← diskOf number
    let block ← blockAt drv disk offset
    device (drv.write disk.inner block buf)
  | .partition number part => do
    let disk ← diskOf number
    let absBlock ← locate drv disk part offset
    device (drv.write disk.inner absBlock buf)

def fsize (p : Profile) (id : U64) : Act (DiskScheme bound δ σ) U64 := do
  match ← handleOf id with
  | .list entries => return .ofNat 64 entries.length
  | .disk number => do
    let disk ← diskOf number
    device (drv.size disk.inner)
  | .partition number part => do
    let disk ← diskOf number
    let partition ← lift (partitionOf disk part)
    let blksize ← device (drv.blockLength disk.inner)
    lift (checked (p.mul blksize partition.size))

def fstat (id : U64) (stat : Stat) : Act (DiskScheme bound δ σ) Stat := do
  match ← handleOf id with
  | .list entries => return { stat with mode := .dir, size := .ofNat 64 entries.length }
  | .disk number => do
    let disk ← diskOf number
    device (drv.statDisk disk.inner { stat with mode := .file })
  | .partition number part => do
    let disk ← diskOf number
    let partition ← lift (partitionOf disk part)
    device (drv.statPartition disk.inner partition { stat with mode := .file })

/-- The path of a handle, as far as it fits into a buffer of `len` bytes. -/
def fpath (id : U64) (len : Nat) : Act (DiskScheme bound δ σ) (List U8) := do
  let handle ← handleOf id
  let schemeName ← Act.read schemeName
  let name :=
    match handle with
    | .list _ => []
    | .disk number => decimal number
    | .partition number part => decimal number ++ 'p' :: decimal part
  return (intoBytes (schemeName ++ ':' :: name)).take len

/-! ### Runs -/

inductive Call where
  | xopen (path : List Char) (flags : U64) (uid : U32)
  | close (id : U64)
  | read (id : U64) (buf : List U8) (offset : U64)
  | write (id : U64) (buf : List U8) (offset : U64)
  | fsize (id : U64)
  | fstat (id : U64) (stat : Stat)
  | fpath (id : U64) (len : Nat)

/-- A call, without its result. -/
def perform (p : Profile) : Call → Act (DiskScheme bound δ σ) Unit
  | .xopen path flags uid => do let _ ← xopen p path flags uid
  | .close id => do let _ ← close id
  | .read id buf offset => do let _ ← read drv id buf offset
  | .write id buf offset => do let _ ← write drv id buf offset
  | .fsize id => do let _ ← fsize drv p id
  | .fstat id stat => do let _ ← fstat drv id stat
  | .fpath id len => do let _ ← fpath id len

/-- A call ends with `Ok` or with an error code; after a panic there is no further state. -/
def step (p : Profile) (s : DiskScheme bound δ σ) (call : Call) : Option (DiskScheme bound δ σ) :=
  match perform drv p call s with
  | (.error (.panic _), _) => none
  | (_, s') => some s'

end Calls

end DiskScheme

end RedoxDrivers.Disk
