import RedoxDrivers.Disk.Scheme
import RedoxDrivers.Lib.Image

/-!
The disks below the schemes: NVMe namespaces (`nvmed/src/nvme/mod.rs`), SATA disks and ATAPI
drives behind an AHCI port (`ahcid/src/ahci/disk_ata.rs`, `disk_atapi.rs`) and IDE disks
(`ided/src/ide.rs`).

Each of them cuts a transfer into chunks that fit its DMA buffer, and sends one command for each
chunk. `Rig` is the hardware: the media, the DMA buffers, and how each command to come will end.
It also remembers the commands that were sent. A device refuses a command for blocks it does not
have.
-/

namespace RedoxDrivers.Disk

open Lib Lib.Image Act

/-! ### Hardware -/

/-- What a unit stores, by byte, and how many blocks it has. -/
structure Medium where
  blocks : Nat
  image : Nat → U8

/-- A command for blocks of a unit. -/
structure Asked where
  unit : Nat
  lba : Nat
  count : Nat
  write : Bool
deriving DecidableEq, Repr

structure Rig where
  media : Nat → Medium
  /-- The DMA buffers. What lies behind the end of one is whatever the device is led to there. -/
  buffers : Nat → Nat → U8
  /-- What ATAPI units answer to READ CAPACITY: their last block and the length of a block. -/
  capacities : Nat → U32 × U32
  /-- For each command to come: `none` if it succeeds, or the number of blocks it moves before it
  fails. Commands beyond the list succeed. -/
  faults : List (Option Nat)
  /-- For each look at an AHCI port to come, whether the driver has to wait. -/
  waits : List Bool
  /-- The commands so far. -/
  asked : List Asked

namespace Rig

/-- Moves the first `count` blocks from `lba` on between a unit and a buffer. -/
def move (unit buffer blockSize lba count : Nat) (write : Bool) (rig : Rig) : Rig :=
  let medium := rig.media unit
  if write then
    let data := bytes (rig.buffers buffer) 0 (count * blockSize)
    { rig with
      media := Function.update rig.media unit
        { medium with image := store medium.image (lba * blockSize) data } }
  else
    let data := bytes medium.image (lba * blockSize) (count * blockSize)
    { rig with buffers := Function.update rig.buffers buffer (store (rig.buffers buffer) 0 data) }

/-- One command, from when it is sent until it has ended. -/
def command (unit buffer blockSize lba count : Nat) (write : Bool) : Act Rig Unit := fun rig =>
  let fault := rig.faults.headD none
  let rig := { rig with
    faults := rig.faults.tail
    asked := rig.asked ++ [⟨unit, lba, count, write⟩] }
  if (rig.media unit).blocks < lba + count then (.error (.errno .eio), rig)
  else
    match fault with
    | some done => (.error (.errno .eio), move unit buffer blockSize lba (min done count) write rig)
    | none => (.ok (), move unit buffer blockSize lba count write rig)

/-- A command that is not about blocks. -/
def query : Act Rig Unit := fun rig =>
  let fault := rig.faults.headD none
  let rig := { rig with faults := rig.faults.tail }
  match fault with
  | some _ => (.error (.errno .eio), rig)
  | none => (.ok (), rig)

/-- Whether the driver has to wait. -/
def mustWait : Act Rig Bool := fun rig =>
  (.ok (rig.waits.headD false), { rig with waits := rig.waits.tail })

/-- The bytes at the front of a DMA buffer. -/
def fromBuffer (buffer n : Nat) : Act Rig (List U8) := read fun rig => bytes (rig.buffers buffer) 0 n

/-- `buffer[..data.len()].copy_from_slice(data)`. -/
def toBuffer (buffer : Nat) (data : List U8) : Act Rig Unit := modify fun rig =>
  { rig with buffers := Function.update rig.buffers buffer (store (rig.buffers buffer) 0 data) }

end Rig

open Rig

/-- `assert!`. -/
def assert (h : Prop) [Decidable h] : Act Rig Unit :=
  lift (if h then .ok () else .error (.panic .assertFailed))

variable (p : Profile)

/-! ### NVMe namespaces -/

/-- A namespace. Its block size is a power of two between 2^9 and 2^31 (`lba_data_size`). -/
structure NvmeNamespace where
  id : Nat
  blocks : U64
  log : Nat
  le_log : 9 ≤ log
  log_lt : log < 32

namespace NvmeNamespace

variable (ns : NvmeNamespace)

def blockSize : U64 := 1 <<< ns.log

/-- The controller has one DMA buffer. -/
def buffer : Nat := 0

/-- `namespace_rw`. -/
def rw (lba : U64) (blocks1 : U16) (write : Bool) : Act Rig Unit :=
  command ns.id buffer ns.blockSize.toNat lba.toNat (blocks1.toNat + 1) write

/-- The number of blocks for a chunk, with the assertions on it. -/
def blocksFor (len : Nat) : Act Rig Nat := do
  let blocks := (len + ns.blockSize.toNat - 1) / ns.blockSize.toNat
  assert (blocks > 0)
  assert (blocks ≤ 0x10000)
  return blocks

def readChunks : List Nat → U64 → Act Rig (List U8)
  | [], _ => return []
  | len :: lens, lba => do
    let blocks ← ns.blocksFor len
    ns.rw lba (.ofNat 16 (blocks - 1)) false
    let chunk ← fromBuffer buffer len
    let lba ← lift (checked (p.add lba (.ofNat 64 blocks)))
    let rest ← readChunks lens lba
    return chunk ++ rest

/-- `namespace_read`. -/
def read (lba : U64) (buf : List U8) : Act Rig (List U8) :=
  ns.readChunks p (chunkLens 8192 buf.length) lba

def writeChunks : List (List U8) → U64 → Act Rig Unit
  | [], _ => return ()
  | chunk :: chunks, lba => do
    let blocks ← ns.blocksFor chunk.length
    toBuffer buffer chunk
    ns.rw lba (.ofNat 16 (blocks - 1)) true
    let lba ← lift (checked (p.add lba (.ofNat 64 blocks)))
    writeChunks chunks lba

/-- `namespace_write`. -/
def write (lba : U64) (buf : List U8) : Act Rig Nat := do
  ns.writeChunks p (chunks 8192 buf) lba
  return buf.length

end NvmeNamespace

/-! ### SATA disks -/

/-- A SATA disk. It has a DMA buffer of its own, and blocks of 512 bytes. -/
structure DiskATA where
  unit : Nat
  size : U64

namespace DiskATA

inductive BufferKind where
  | read (buf : List U8)
  | write (buf : List U8)

def BufferKind.len : BufferKind → Nat
  | .read buf => buf.length
  | .write buf => buf.length

def BufferKind.isWrite : BufferKind → Bool
  | .read _ => false
  | .write _ => true

/-- A request that is served. The command that is running, if one is, has its sectors and how it
is going to end. -/
structure Request where
  totalSectors : Nat
  sector : Nat
  running : Option (Nat × Except Stop Unit)
  /-- The part of the caller's buffer that has been filled. -/
  filled : List U8

inductive Progress where
  | pending (request : Request)
  | done (request : Request)

variable (disk : DiskATA)

/-- `ata_dma`: a command with a 48-bit block address, if a slot is free for it. -/
def ataDma (block : U64) (sectors : Nat) (write : Bool) : Act Rig (Option (Except Stop Unit)) := do
  assert (0 < sectors ∧ sectors < 256)
  if ← mustWait then return none
  else
    let result ← attempt
      (command disk.unit disk.unit 512 (block.toNat % 2 ^ 48) sectors write)
    return some result

/-- Finishes the command that is running; `none` if it is not at its end. -/
def finish (kind : BufferKind) (request : Request) : Act Rig (Option Request) := do
  match request.running with
  | none => return some request
  | some (sectors, result) =>
    if ← mustWait then return none
    else
      lift result
      let request := { request with running := none, sector := request.sector + sectors }
      match kind with
      | .read _ =>
        let data ← fromBuffer disk.unit (sectors * 512)
        return some { request with filled := request.filled ++ data }
      | .write _ => return some request

/-- Starts the next command, or ends the request. -/
def start (block : U64) (kind : BufferKind) (request : Request) : Act Rig Progress := do
  if request.sector < request.totalSectors then
    let sectors := min 255 (request.totalSectors - request.sector)
    match kind with
    | .read _ => pure ()
    | .write buf => toBuffer disk.unit ((buf.drop (request.sector * 512)).take (sectors * 512))
    let block ← lift (checked (p.add block (.ofNat 64 request.sector)))
    match ← disk.ataDma block sectors kind.isWrite with
    | some result => return .pending { request with running := some (sectors, result) }
    | none => return .pending request
  else return .done request

/-- One call of `request`. -/
def request (block : U64) (kind : BufferKind) (request : Request) : Act Rig Progress := do
  match ← disk.finish kind request with
  | none => return .pending request
  | some request => disk.start p block kind request

/-- The loop of `read` and `write` around `request`. A request is served to its end before
another one is made, so that it need not be kept in the disk between calls. -/
def serve (block : U64) (kind : BufferKind) : Nat → Request → Act Rig Request
  | 0, _ => lift (.error (.panic .diverges))
  | fuel + 1, r => do
    match ← disk.request p block kind r with
    | .done r => return r
    | .pending r => serve block kind fuel r

/-- The request of a call, with enough rounds for it: each round waits or ends a command. -/
def run (block : U64) (kind : BufferKind) : Act Rig Request := do
  let rounds ← read fun rig => rig.waits.length
  let sectors := kind.len / 512
  disk.serve p block kind (rounds + sectors + 2) ⟨sectors, 0, none, []⟩

def read (block : U64) (buf : List U8) : Act Rig (List U8) := do
  let request ← disk.run p block (.read buf)
  return request.filled

def write (block : U64) (buf : List U8) : Act Rig Nat := do
  let request ← disk.run p block (.write buf)
  return request.sector * 512

end DiskATA

/-! ### ATAPI drives -/

structure DiskATAPI where
  unit : Nat

namespace DiskATAPI

variable (disk : DiskATAPI)

def readCapacity : Act Rig (U32 × U32) := do
  query
  let (last, blkSize) ← read fun rig => rig.capacities disk.unit
  let blkCount ← lift (checked (p.add last 1))
  return (blkCount, blkSize)

def blockLength : Act Rig U32 := do
  return (← disk.readCapacity p).2

def size : Act Rig U64 := do
  match ← attempt (disk.readCapacity p) with
  | .ok (blkCount, blkSize) => return blkCount.setWidth 64 * blkSize.setWidth 64
  | .error (.errno _) => return 0
  | .error (.panic fault) => lift (.error (.panic fault))

/-- A READ(10) command: a 32-bit block address and a 16-bit count. -/
def read10 (blkLen : U32) (block : U64) (sector : U32)
    (count : U32) (bufSize : U32) : Act Rig Unit := do
  let lba ← lift (checked (p.add (block.setWidth 32) sector))
  let _ ← lift (checked (p.sub bufSize 1))
  command disk.unit disk.unit blkLen.toNat lba.toNat (count.setWidth 16).toNat false

/-- The loop over full DMA buffers. It goes on by `blkLen` sectors where `bufLen` were read. -/
def readFull (blkLen : U32) (block : U64)
    (sectors bufLen bufSize : U32) : Nat → U32 → (Nat → U8) → Act Rig (U32 × (Nat → U8))
  | 0, _, _ => lift (.error (.panic .diverges))
  | fuel + 1, sector, memory => do
    let left ← lift (checked (p.sub sectors sector))
    if bufLen ≤ left then
      disk.read10 p blkLen block sector bufLen bufSize
      let data ← fromBuffer disk.unit bufSize.toNat
      let sector' ← lift (checked (p.add sector blkLen))
      readFull blkLen block sectors bufLen bufSize fuel sector'
        (store memory (sector.toNat * blkLen.toNat) data)
    else return (sector, memory)

def read (block : U64) (buf : List U8) : Act Rig (List U8) := do
  let blkLen ← disk.blockLength p
  let sectors ← lift (checked (div (.ofNat 32 buf.length) blkLen))
  let bufLen ← lift (checked (div (256 * 512) blkLen))
  let bufSize ← lift (checked (p.mul bufLen blkLen))
  let (sector, memory) ← disk.readFull p blkLen block sectors bufLen bufSize
    (sectors.toNat + 2) 0 fun i => buf.getD i 0
  if sector < sectors then
    let left := sectors - sector
    disk.read10 p blkLen block sector left bufSize
    let data ← fromBuffer disk.unit (left.toNat * blkLen.toNat)
    let n ← lift (checked (p.mul sectors blkLen))
    return bytes (store memory (sector.toNat * blkLen.toNat) data) 0 n.toNat
  else
    let n ← lift (checked (p.mul sector blkLen))
    return bytes memory 0 n.toNat

end DiskATAPI

/-! ### IDE disks -/

/-- An IDE disk. The disks of a channel share its DMA buffer. -/
structure AtaDisk where
  chan : Nat
  dev : Nat
  size : U64
  dma : Bool
  lba48 : Bool

namespace AtaDisk

variable (disk : AtaDisk)

/-- `id`: the channel and the device on it. -/
def unit : Nat := 2 * disk.chan + disk.dev

/-- Where the data of a transfer pass: the DMA buffer of the channel, or its data register. -/
def port : Nat := if disk.dma then 2 * disk.chan else 2 * disk.chan + 1

/-- The block address that the address registers hold. Without 48-bit addresses only their low
three bytes are set. -/
def register (block : U64) : Nat :=
  if disk.lba48 then block.toNat % 2 ^ 48 else block.toNat % 2 ^ 24

/-- The command for a chunk, and the checks before it. -/
def transfer (startBlock : U64) (count len : Nat) (write : Bool) : Act Rig Unit := do
  let block ← lift (checked (p.add startBlock (.ofNat 64 (count / 512))))
  assert (block < 0x1000000000000)
  let sectors := (len + 511) / 512
  assert (sectors ≤ 128)
  command disk.unit disk.port 512 (disk.register block) sectors write
  -- Through the data register go whole sectors of the chunk.
  lift (if disk.dma ∨ len % 512 = 0 then .ok () else .error (.panic .outOfBounds))

def readChunks (startBlock : U64) : List Nat → Nat → Act Rig (List U8)
  | [], _ => return []
  | len :: lens, count => do
    disk.transfer p startBlock count len false
    let chunk ← fromBuffer disk.port len
    let rest ← readChunks startBlock lens (count + len)
    return chunk ++ rest

def read (startBlock : U64) (buf : List U8) : Act Rig (List U8) :=
  disk.readChunks p startBlock (chunkLens 65536 buf.length) 0

def writeChunks (startBlock : U64) : List (List U8) → Nat → Act Rig Nat
  | [], count => return count
  | chunk :: chunks, count => do
    toBuffer disk.port chunk
    disk.transfer p startBlock count chunk.length true
    -- The cache is flushed after each chunk.
    query
    writeChunks startBlock chunks (count + chunk.length)

def write (startBlock : U64) (buf : List U8) : Act Rig Nat :=
  disk.writeChunks p startBlock (chunks 65536 buf) 0

end AtaDisk

/-! ### The three drivers -/

/-- `abs_block` of `nvmed`: the bound is checked before the sum is made. -/
def checkedAbsBlock (partition : Partition) (relBlock : U64) : Except Stop U64 :=
  if partition.size ≤ relBlock then .error (.errno .eoverflow)
  else checked (p.add partition.startLba relBlock)

/-- `abs_block` of `ahcid` and `ided`: the sum is made before the bound is checked. -/
def summedAbsBlock (partition : Partition) (relBlock : U64) : Except Stop U64 := do
  let absBlock ← checked (p.add partition.startLba relBlock)
  if partition.size ≤ relBlock then .error (.errno .eoverflow) else .ok absBlock

namespace Nvmed

def statDisk (ns : NvmeNamespace) (stat : Stat) : Act Rig Stat := do
  let size ← lift (checked (p.mul ns.blocks ns.blockSize))
  return { stat with blocks := ns.blocks, blksize := ns.blockSize.setWidth 32, size }

def statPartition (ns : NvmeNamespace) (partition : Partition) (stat : Stat) : Act Rig Stat := do
  let size ← lift (checked (p.mul partition.size ns.blockSize))
  return { stat with size, blocks := partition.size, blksize := ns.blockSize.setWidth 32 }

def driver : Driver NvmeNamespace Rig where
  blockLength ns := return ns.blockSize
  size ns := lift (checked (p.mul ns.blocks ns.blockSize))
  read := NvmeNamespace.read p
  write := NvmeNamespace.write p
  absBlock := checkedAbsBlock p
  statDisk := statDisk p
  statPartition := statPartition p

abbrev DiskScheme := Disk.DiskScheme (2 ^ 32) NvmeNamespace Rig

def DiskScheme.read : U64 → List U8 → U64 → Act DiskScheme (List U8) :=
  Disk.DiskScheme.read (driver p)

def DiskScheme.write : U64 → List U8 → U64 → Act DiskScheme Nat :=
  Disk.DiskScheme.write (driver p)

end Nvmed

/-- `fstat` of a disk behind the trait `Disk`. -/
def statDisk {δ : Type} (blockLength : δ → Act Rig U64) (size : δ → Act Rig U64) (disk : δ)
    (stat : Stat) : Act Rig Stat := do
  let size ← size disk
  let blksize ← blockLength disk
  return { stat with size, blksize := blksize.setWidth 32 }

/-- `fstat` of a partition of a disk behind the trait `Disk`. -/
def statPartition {δ : Type} (blockLength : δ → Act Rig U64) (disk : δ)
    (partition : Partition) (stat : Stat) : Act Rig Stat := do
  let blksize ← blockLength disk
  let size ← lift (checked (p.mul partition.size blksize))
  let blksize ← blockLength disk
  return { stat with size, blksize := blksize.setWidth 32, blocks := partition.size }

namespace Ahcid

/-- What can stand behind a port. -/
inductive PortDisk where
  | ata (disk : DiskATA)
  | atapi (disk : DiskATAPI)

def PortDisk.blockLength : PortDisk → Act Rig U64
  | .ata _ => return 512
  | .atapi disk => return (← disk.blockLength p).setWidth 64

def PortDisk.size : PortDisk → Act Rig U64
  | .ata disk => return disk.size
  | .atapi disk => disk.size p

def PortDisk.read : PortDisk → U64 → List U8 → Act Rig (List U8)
  | .ata disk => disk.read p
  | .atapi disk => disk.read p

def PortDisk.write : PortDisk → U64 → List U8 → Act Rig Nat
  | .ata disk => disk.write p
  | .atapi _ => fun _ _ => lift (.error (.errno .ebadf))

def driver : Driver PortDisk Rig where
  blockLength := PortDisk.blockLength p
  size := PortDisk.size p
  read := PortDisk.read p
  write := PortDisk.write p
  absBlock := summedAbsBlock p
  statDisk := statDisk (PortDisk.blockLength p) (PortDisk.size p)
  statPartition := statPartition p (PortDisk.blockLength p)

abbrev DiskScheme := Disk.DiskScheme (2 ^ 64) PortDisk Rig

def DiskScheme.read : U64 → List U8 → U64 → Act DiskScheme (List U8) :=
  Disk.DiskScheme.read (driver p)

def DiskScheme.write : U64 → List U8 → U64 → Act DiskScheme Nat :=
  Disk.DiskScheme.write (driver p)

end Ahcid

namespace Ided

def driver : Driver AtaDisk Rig where
  blockLength _ := return 512
  size disk := return disk.size
  read := AtaDisk.read p
  write := AtaDisk.write p
  absBlock := summedAbsBlock p
  statDisk := statDisk (fun _ => return 512) fun disk => return disk.size
  statPartition := statPartition p fun _ => return 512

abbrev DiskScheme := Disk.DiskScheme (2 ^ 64) AtaDisk Rig

def DiskScheme.read : U64 → List U8 → U64 → Act DiskScheme (List U8) :=
  Disk.DiskScheme.read (driver p)

def DiskScheme.write : U64 → List U8 → U64 → Act DiskScheme Nat :=
  Disk.DiskScheme.write (driver p)

end Ided

end RedoxDrivers.Disk
