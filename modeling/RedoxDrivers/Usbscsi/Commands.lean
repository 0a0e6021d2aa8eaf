import RedoxDrivers.Lib.Plain

/-!
The commands that `usbscsid` sends and the data it gets back (`usbscsid/src/scsi/cmds.rs`).

A command is its bytes in memory, since it is a packed structure that is sent as it is. Numbers
are big-endian on the wire, so they have to be converted; `Write16::new` does not convert. What
comes back is read in place: a structure is a view of the first bytes of a buffer, and there is
none if the buffer is too short.
-/

namespace RedoxDrivers.Usbscsi.Cmds

open Lib Lib.Endian

/-! ### Command blocks -/

namespace Opcode

def requestSense : U8 := 0x03
def inquiry : U8 := 0x12
def readCapacity10 : U8 := 0x25
def modeSense10 : U8 := 0x5A
def read16 : U8 := 0x88
def write16 : U8 := 0x8A

end Opcode

namespace Inquiry

def new (evpd : Bool) (pageCode : U8) (allocLen : U16) (control : U8) : List U8 :=
  [Opcode.inquiry, if evpd then 1 else 0, pageCode] ++ leBytes 2 (toBe allocLen).toNat ++ [control]

end Inquiry

namespace RequestSense

def new (desc : Bool) (allocLen control : U8) : List U8 :=
  [Opcode.requestSense, if desc then 1 else 0, 0, 0, allocLen, control]

end RequestSense

namespace ReadCapacity10

def new (control : U8) : List U8 := [Opcode.readCapacity10, 0, 0, 0, 0, 0, 0, 0, 0, control]

end ReadCapacity10

namespace ModeSense10

/-- `ModePageControl::CurrentValues`. -/
def currentValues : U8 := 0

def new (dbd llbaa : Bool) (pageCode pc subpageCode : U8) (allocLen : U16) (control : U8) :
    List U8 :=
  [Opcode.modeSense10, ((if dbd then 1 else 0) <<< 3) ||| ((if llbaa then 1 else 0) <<< 4),
    pageCode ||| (pc <<< 6), subpageCode, 0, 0, 0] ++ leBytes 2 (toBe allocLen).toNat ++ [control]

def getBlockDesc (allocLen : U16) (control : U8) : List U8 :=
  new false true 0x3F currentValues 0x00 allocLen control

end ModeSense10

/-- The layout that `Read16` and `Write16` share. -/
def blockCommand (opcode : U8) (lba : U64) (transferLen : U32) (control : U8) : List U8 :=
  [opcode, 0] ++ (leBytes 8 lba.toNat ++ (leBytes 4 transferLen.toNat ++ [0, control]))

namespace Read16

def new (lba : U64) (transferLen : U32) (control : U8) : List U8 :=
  blockCommand Opcode.read16 (toBe lba) (toBe transferLen) control

end Read16

namespace Write16

/-- Unlike `Read16::new` it takes the numbers as they are. -/
def new (lba : U64) (transferLen : U32) (control : U8) : List U8 :=
  blockCommand Opcode.write16 lba transferLen control

end Write16

@[simp] theorem length_blockCommand (opcode : U8) (lba : U64) (transferLen : U32) (control : U8) :
    (blockCommand opcode lba transferLen control).length = 16 := by
  simp [blockCommand]

/-! ### Views of the data -/

section

variable (bytes : List U8) (i : Nat)

/-- A `u16` of a structure. -/
def u16At : U16 := .ofNat 16 (ofLe (field bytes i 2))

/-- A `u32` of a structure. -/
def u32At : U32 := .ofNat 32 (ofLe (field bytes i 4))

/-- A `u64` of a structure. -/
def u64At : U64 := .ofNat 64 (ofLe (field bytes i 8))

/-- A `u8` of a structure. -/
def u8At : U8 := bytes.getD i 0

/-- `u24_be_to_u32`. -/
def u24BeToU32 : U32 :=
  ((u8At bytes i).setWidth 32 <<< 16) ||| ((u8At bytes (i + 1)).setWidth 32 <<< 8) |||
    (u8At bytes (i + 2)).setWidth 32

end

namespace StandardInquiryData

def size : Nat := 96

def periphDevTy (data : List U8) : U8 := u8At data 0 &&& 0x1F

def version (data : List U8) : U8 := u8At data 2

def additionalLen (data : List U8) : U8 := u8At data 4

end StandardInquiryData

namespace FixedFormatSenseData

def size : Nat := 18

end FixedFormatSenseData

namespace ModeParamHeader10

def size : Nat := 8

def modeDataLen (header : List U8) : U16 := toBe (u16At header 0)

def longlba (header : List U8) : Bool := u8At header 4 &&& 0x01 ≠ 0

def blockDescLen (header : List U8) : U16 := toBe (u16At header 6)

end ModeParamHeader10

/-- The three layouts of a block descriptor. -/
inductive BlkDesc where
  | short (desc : List U8)
  | general (desc : List U8)
  | long (desc : List U8)
deriving DecidableEq, Repr

namespace BlkDesc

def blockSize : BlkDesc → U32
  | .short desc => u24BeToU32 desc 5
  | .general desc => u24BeToU32 desc 5
  | .long desc => toBe (u32At desc 12)

def blockCount : BlkDesc → U64
  | .short desc => (toBe (u32At desc 0)).setWidth 64
  | .general desc => (u24BeToU32 desc 1).setWidth 64
  | .long desc => toBe (u64At desc 0)

end BlkDesc

namespace ReadCapacity10ParamData

def size : Nat := 8

def blockCount (data : List U8) : U32 := toBe (u32At data 0)

def logicalBlockLen (data : List U8) : U32 := toBe (u32At data 4)

end ReadCapacity10ParamData

/-! ### Mode pages -/

inductive AnyModePage where
  | rwErrorRecovery (page : List U8)
  | caching (page : List U8)
deriving DecidableEq, Repr

/-- `ModePageIterRaw::next`: the next page and the rest of the buffer. The length of a sub-page is
read from a slice of one byte, which is not enough for a `u16`. -/
def nextRaw (buffer : List U8) : Except Fault (Option (List U8 × List U8)) :=
  if buffer.length < 2 then .ok none
  else if u8At buffer 0 &&& (1 <<< 6) = 0 then
    let pageLen := (u8At buffer 1).toNat + 1
    if buffer.length < pageLen then .ok none
    else .ok (some (buffer.take pageLen, buffer.drop pageLen))
  else if buffer.length < 3 then .error .outOfBounds
  else .ok none

/-- `ModePageIter::next`, given what the raw iterator yields. -/
def decodePage (page : List U8) : Option AnyModePage :=
  if u8At page 0 &&& (1 <<< 6) = 0 then
    if u8At page 0 &&& 0x1F = 0x01 then (Plain.fromBytes 10 page).map .rwErrorRecovery
    else if u8At page 0 &&& 0x1F = 0x08 then (Plain.fromBytes 2 page).map .caching
    else none
  else none

/-- The `for` loop over the pages. It ends at the first one that is not known. -/
def pagesFrom : Nat → List U8 → Except Fault (List AnyModePage)
  | 0, _ => .error .diverges
  | fuel + 1, buffer => do
    match ← nextRaw buffer with
    | none => return []
    | some (page, rest) =>
      match decodePage page with
      | none => return []
      | some any => return any :: (← pagesFrom fuel rest)

/-- Every page takes a byte at least. -/
def pages (buffer : List U8) : Except Fault (List AnyModePage) := pagesFrom (buffer.length + 1) buffer

end RedoxDrivers.Usbscsi.Cmds
