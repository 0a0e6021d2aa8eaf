import RedoxDrivers.Lib.Endian
import RedoxDrivers.Lib.Image

/-!
How `acpid` reads the ACPI tables (`acpid/src/main.rs`, `daemon`, and `acpid/src/acpi.rs`).

The RSDT or XSDT lists the physical addresses of the other tables, in 4 or 8 bytes each. Every table
is copied from memory and checked (`Sdt`), and the one with the signature FACP, the FADT, says where
the DSDT is: in a field of 32 bits and, in its newer forms, in one of 64 bits behind it.

`loadFromPhysical_eq_ok` is what the copy of a table amounts to. `ingested_iff` says which firmware is
read as it should be. The interpreter that parses the AML of the DSDT and the SSDTs is a parameter
(`Aml`), and that it gets through them is one of the conditions (`Firmware.Parses`).
-/

namespace RedoxDrivers.Acpid

open Lib Lib.Endian Lib.Image List Option

def PAGE_SIZE : Nat := 4096

/-- The sizes of `SdtHeader`, `FadtStruct` and `FadtAcpi2Struct`. -/
def SDT_HEADER_SIZE : Nat := 36
def FADT_SIZE : Nat := 116
def FADT_ACPI2_SIZE : Nat := 128

/-! ### Tables -/

inductive InvalidSdtError where
  | invalidSize
  | badChecksum
deriving DecidableEq, Repr

inductive TablePhysLoadError where
  | io
  | validity (error : InvalidSdtError)
deriving DecidableEq, Repr

/-- The sum that is zero in a valid table. -/
def checksum (bytes : List U8) : U8 := bytes.foldl (· + ·) 0

/-- The field `length` of the header. -/
def headerLength (bytes : List U8) : Nat := ofLe (field bytes 4 4)

/-- A table that was checked. -/
structure Sdt where
  bytes : List U8
  header_le : SDT_HEADER_SIZE ≤ bytes.length
  length_eq : headerLength bytes = bytes.length
  checksum_eq : checksum bytes = 0
deriving DecidableEq

structure SdtSignature where
  signature : List U8
  oemId : List U8
  oemTableId : List U8
deriving DecidableEq, Repr

namespace Sdt

def new (slice : List U8) : Except InvalidSdtError Sdt :=
  if hheader : slice.length < SDT_HEADER_SIZE then .error .invalidSize
  else if hlength : headerLength slice ≠ slice.length then .error .invalidSize
  else if hsum : checksum slice ≠ 0 then .error .badChecksum
  else .ok ⟨slice, Nat.not_lt.mp hheader, not_not.mp hlength, not_not.mp hsum⟩

theorem new_bytes (t : Sdt) : new t.bytes = .ok t := by
  rw [new, dif_neg (Nat.not_lt.mpr t.header_le), dif_neg (not_not.mpr t.length_eq),
    dif_neg (not_not.mpr t.checksum_eq)]

theorem new_eq_ok {slice : List U8} {t : Sdt} : new slice = .ok t ↔ t.bytes = slice := by
  constructor
  · intro h
    unfold new at h
    split at h
    · cases h
    · split at h
      · cases h
      · split at h
        · cases h
        · cases h
          rfl
  · rintro rfl
    exact t.new_bytes

def signature (t : Sdt) : List U8 := field t.bytes 0 4

def fullSignature (t : Sdt) : SdtSignature := ⟨t.signature, field t.bytes 10 6, field t.bytes 16 8⟩

def data (t : Sdt) : List U8 := t.bytes.drop SDT_HEADER_SIZE

end Sdt

/-! ### Physical memory -/

/-- Memory of so many pages, all of whose addresses are `usize`s. -/
structure PhysMem where
  byte : Nat → U8
  pages : Nat
  fits : pages * PAGE_SIZE < 2 ^ 64

namespace PhysMem

variable (phys : PhysMem)

def limit : Nat := phys.pages * PAGE_SIZE

/-- `PhysmapGuard::map`. `physmap` refuses page 0, and the kernel what is not memory. -/
def map (page pageCount : Nat) : Except TablePhysLoadError (List U8) :=
  if page = 0 ∨ phys.limit < page + pageCount * PAGE_SIZE then .error .io
  else .ok (bytes phys.byte page (pageCount * PAGE_SIZE))

/-- The loop of `load_from_physical`, at most `fuel` turns of it. -/
def loadMore : Nat → Nat → Nat → List U8 → Except TablePhysLoadError (List U8)
  | 0, _, _, loaded => .ok loaded
  | fuel + 1, left, offset, loaded =>
    if 0 < left then do
      let toCopy := min left (PAGE_SIZE * 4)
      let additionalPages ← phys.map offset ((toCopy + PAGE_SIZE - 1) / PAGE_SIZE)
      loadMore fuel (left - toCopy) (offset + toCopy) (loaded ++ additionalPages.take toCopy)
    else .ok loaded

/-- The pages that the header is in. -/
def headerPages (physaddr : Nat) : Nat :=
  1 + if PAGE_SIZE - physaddr % PAGE_SIZE < SDT_HEADER_SIZE then 1 else 0

/-- Every turn of the loop copies something, so that as many turns as there are bytes left are
enough. -/
def loadFromPhysical (physaddr : Nat) : Except TablePhysLoadError Sdt := do
  let startPage := physaddr / PAGE_SIZE * PAGE_SIZE
  let pageTableCount := headerPages physaddr
  let pages ← phys.map startPage pageTableCount
  let sdtMem := pages.drop (physaddr % PAGE_SIZE)
  let totalLength := headerLength sdtMem
  let baseLength := min totalLength sdtMem.length
  let extendedLength := totalLength - baseLength
  let loaded ← phys.loadMore extendedLength extendedLength (startPage + pageTableCount * PAGE_SIZE)
    (sdtMem.take baseLength)
  (Sdt.new loaded).mapError .validity

/-- There is a valid table at this address. -/
def Holds (physaddr : Nat) (t : Sdt) : Prop :=
  PAGE_SIZE ≤ physaddr ∧ physaddr + t.bytes.length ≤ phys.limit ∧
    t.bytes = bytes phys.byte physaddr t.bytes.length

section Load

variable {phys} {physaddr left offset fuel : Nat} {loaded : List U8}

theorem map_eq_ok {page pageCount : Nat} (hpage : 0 < page)
    (h : page + pageCount * PAGE_SIZE ≤ phys.limit) :
    phys.map page pageCount = .ok (bytes phys.byte page (pageCount * PAGE_SIZE)) :=
  if_neg (not_or.mpr ⟨Nat.ne_of_gt hpage, Nat.not_lt.mpr h⟩)

theorem loadMore_zero (fuel offset : Nat) (loaded : List U8) :
    phys.loadMore fuel 0 offset loaded = .ok loaded := by
  cases fuel with
  | zero | succ => rfl

/-- The loop copies what is left, if it is there. -/
theorem loadMore_eq (hoffset : PAGE_SIZE ∣ offset) (hpos : 0 < offset) (hfuel : left ≤ fuel)
    (hleft : 0 < left) : phys.loadMore fuel left offset loaded =
      if offset + left ≤ phys.limit then .ok (loaded ++ bytes phys.byte offset left)
      else .error .io := by
  induction fuel generalizing left offset loaded with
  | zero => omega
  | succ fuel ih =>
    have hcopy : offset + (min left (PAGE_SIZE * 4) + PAGE_SIZE - 1) / PAGE_SIZE * PAGE_SIZE ≤ phys.limit ↔
        offset + min left (PAGE_SIZE * 4) ≤ phys.limit := by
      -- all mappings end at page boundaries, as the memory does
      obtain ⟨o, rfl⟩ := hoffset
      unfold limit PAGE_SIZE
      omega
    rw [loadMore, if_pos hleft]
    dsimp only
    by_cases hmapped : offset + min left (PAGE_SIZE * 4) ≤ phys.limit
    · rw [map_eq_ok hpos (hcopy.mpr hmapped), ok_bind, take_bytes (by unfold PAGE_SIZE; omega)]
      by_cases hlast : left ≤ PAGE_SIZE * 4
      · rw [Nat.min_eq_left hlast] at hmapped ⊢
        rw [Nat.sub_self, loadMore_zero, if_pos hmapped]
      · have hwhole : min left (PAGE_SIZE * 4) = PAGE_SIZE * 4 := Nat.min_eq_right (by omega)
        rw [hwhole] at hmapped ⊢
        have hturn : PAGE_SIZE * 4 = 16384 := rfl
        rw [ih (Nat.dvd_add hoffset (Nat.dvd_mul_right _ _)) (by omega) (by omega) (by omega),
          show offset + PAGE_SIZE * 4 + (left - PAGE_SIZE * 4) = offset + left by omega,
          append_assoc, ← bytes_add, show PAGE_SIZE * 4 + (left - PAGE_SIZE * 4) = left by omega]
    · rw [map, if_pos (.inr (Nat.not_le.mp (mt hcopy.mp hmapped))), error_bind, if_neg]
      omega

/-- The first mapping begins at the page of the table and has the whole header. -/
theorem header_mapped (phys : PhysMem) (physaddr : Nat) :
    physaddr + SDT_HEADER_SIZE ≤ physaddr / PAGE_SIZE * PAGE_SIZE + headerPages physaddr * PAGE_SIZE ∧
      (physaddr / PAGE_SIZE * PAGE_SIZE + headerPages physaddr * PAGE_SIZE ≤ phys.limit ↔
        physaddr + SDT_HEADER_SIZE ≤ phys.limit) := by
  unfold headerPages limit PAGE_SIZE SDT_HEADER_SIZE
  constructor
  all_goals split <;> omega

theorem headerLength_bytes {image : Nat → U8} {a n m : Nat} (hn : 8 ≤ n) (hm : 8 ≤ m) :
    headerLength (bytes image a n) = headerLength (bytes image a m) := by
  have hfield : ∀ n, 8 ≤ n → field (bytes image a n) 4 4 = bytes image (a + 4) 4 := by
    intro n hn
    rw [field, drop_bytes, take_bytes (by omega)]
  rw [headerLength, headerLength, hfield n hn, hfield m hm]

/-- The table is copied from its address on, as many bytes as its header says. -/
theorem loadFromPhysical_eq (haddr : PAGE_SIZE ≤ physaddr)
    (hheader : physaddr + SDT_HEADER_SIZE ≤ phys.limit) {length : Nat}
    (hlength : headerLength (bytes phys.byte physaddr SDT_HEADER_SIZE) = length) :
    phys.loadFromPhysical physaddr = if physaddr + length ≤ phys.limit then
      (Sdt.new (bytes phys.byte physaddr length)).mapError .validity else .error .io := by
  obtain ⟨hmapped, hlimit⟩ := header_mapped phys physaddr
  have hfirst := hlimit.mpr hheader
  have hpage : 0 < physaddr / PAGE_SIZE * PAGE_SIZE :=
    Nat.mul_pos (Nat.div_pos haddr (by decide)) (by decide)
  have hsplit := Nat.div_add_mod' physaddr PAGE_SIZE
  have hsize : SDT_HEADER_SIZE = 36 := rfl
  -- `avail` bytes of the table are in the first mapping.
  obtain ⟨avail, havail⟩ : ∃ avail, physaddr / PAGE_SIZE * PAGE_SIZE + headerPages physaddr * PAGE_SIZE =
      physaddr + avail := ⟨_, (Nat.add_sub_of_le (by omega)).symm⟩
  have hmem : (bytes phys.byte (physaddr / PAGE_SIZE * PAGE_SIZE) (headerPages physaddr * PAGE_SIZE)).drop
      (physaddr % PAGE_SIZE) = bytes phys.byte physaddr avail := by
    rw [drop_bytes, hsplit]
    congr 1
    omega
  have htotal : headerLength (bytes phys.byte physaddr avail) = length := by
    rw [← hlength]
    exact headerLength_bytes (by omega) (by omega)
  unfold loadFromPhysical
  dsimp only
  rw [map_eq_ok hpage hfirst, ok_bind, hmem, htotal, length_bytes, havail]
  rcases Nat.lt_or_ge avail length with hlong | hshort
  · have hdvd : PAGE_SIZE ∣ physaddr + avail :=
      havail ▸ Nat.dvd_add (Nat.dvd_mul_left _ _) (Nat.dvd_mul_left _ _)
    rw [Nat.min_eq_right (Nat.le_of_lt hlong), take_bytes (Nat.le_refl _),
      loadMore_eq hdvd (by omega) (Nat.le_refl _) (by omega),
      show physaddr + avail + (length - avail) = physaddr + length by omega, ← bytes_add,
      show avail + (length - avail) = length by omega]
    split
    · rfl
    · rfl
  · rw [Nat.min_eq_left hshort, Nat.sub_self, loadMore_zero, ok_bind, take_bytes hshort, if_pos (by omega)]

/-- A table is loaded exactly if there is a valid one at the address. -/
theorem loadFromPhysical_eq_ok {t : Sdt} :
    phys.loadFromPhysical physaddr = .ok t ↔ phys.Holds physaddr t := by
  constructor
  · intro h
    -- Where there is no memory for a header, or on page 0, nothing is loaded.
    obtain ⟨haddr, hheader⟩ : PAGE_SIZE ≤ physaddr ∧ physaddr + SDT_HEADER_SIZE ≤ phys.limit := by
      obtain ⟨pages, hmap, -⟩ := bind_eq_ok.mp h
      unfold map at hmap
      split at hmap
      · cases hmap
      · rename_i hrange
        obtain ⟨hpage, hfits⟩ := not_or.mp hrange
        refine ⟨?_, (header_mapped phys physaddr).2.mp (Nat.not_lt.mp hfits)⟩
        unfold PAGE_SIZE at *
        omega
    rw [loadFromPhysical_eq haddr hheader rfl] at h
    split at h
    · rename_i hlimit
      have hnew : t.bytes = bytes phys.byte physaddr _ := Sdt.new_eq_ok.mp (mapError_eq_ok.mp h)
      have hlength := congrArg List.length hnew
      rw [length_bytes] at hlength
      rw [← hlength] at hlimit hnew
      exact ⟨haddr, hlimit, hnew⟩
    · cases h
  · rintro ⟨haddr, hlimit, hbytes⟩
    have hsize : SDT_HEADER_SIZE ≤ t.bytes.length := t.header_le
    have hle : 8 ≤ SDT_HEADER_SIZE := by decide
    have hlength : headerLength (bytes phys.byte physaddr SDT_HEADER_SIZE) = t.bytes.length := by
      rw [headerLength_bytes hle (Nat.le_trans hle hsize), ← hbytes, t.length_eq]
    rw [loadFromPhysical_eq haddr (by omega) hlength, if_pos hlimit, ← hbytes, t.new_bytes]
    rfl

end Load

end PhysMem

/-! ### Initialisation -/

def RSDT : List U8 := [0x52, 0x53, 0x44, 0x54]
def XSDT : List U8 := [0x58, 0x53, 0x44, 0x54]
def FACP : List U8 := [0x46, 0x41, 0x43, 0x50]
def SSDT : List U8 := [0x53, 0x53, 0x44, 0x54]

/-- What is kept of the tables. `dsdt` comes with the address that it was loaded from. -/
structure AcpiContext where
  tables : List Sdt
  dsdt : Option (Nat × Sdt)
  fadt : Option Sdt
  sdtOrder : List (Option SdtSignature)
deriving DecidableEq

namespace AcpiContext

def newIndex (ctx : AcpiContext) (signature : SdtSignature) : AcpiContext :=
  { ctx with sdtOrder := ctx.sdtOrder ++ [some signature] }

/-- The first table with this signature. -/
def takeSingleSdt (ctx : AcpiContext) (signature : List U8) : Option Sdt :=
  ctx.tables.find? (·.signature = signature)

def findMultipleSdts (ctx : AcpiContext) (signature : List U8) : List Sdt :=
  ctx.tables.filter (·.signature = signature)

def ssdts (ctx : AcpiContext) : List Sdt := ctx.findMultipleSdts SSDT

end AcpiContext

open AcpiContext

namespace Fadt

/-- A `Fadt` is an `Sdt`, a fat pointer: the length is compared with 16. -/
def new (sdt : Sdt) : Option Sdt :=
  if sdt.signature ≠ FACP ∨ sdt.bytes.length < 16 then none else some sdt

/-- The bytes of the second struct, if the table is long enough. -/
def acpi2Struct (fadt : Sdt) : Except Fault (Option (List U8)) := do
  let bytes ← tailFrom fadt.bytes FADT_SIZE
  return if bytes.length < FADT_ACPI2_SIZE then none else some bytes

/-- The field `dsdt`, through `Deref`. -/
def dsdt (fadt : Sdt) : Except Fault Nat :=
  if fadt.bytes.length < FADT_SIZE then .error .unwrapNone else .ok (ofLe (field fadt.bytes 40 4))

/-- The last part of `init`. -/
def loadDsdt (phys : PhysMem) (ctx : AcpiContext) (fadt : Sdt) (dsdtAddr : Nat) : AcpiContext :=
  match phys.loadFromPhysical dsdtAddr with
  | .error _ => ctx
  | .ok dsdtSdt =>
    { ctx with
      fadt := some fadt, dsdt := some (dsdtAddr, dsdtSdt), tables := ctx.tables ++ [dsdtSdt] }

def init (phys : PhysMem) (ctx : AcpiContext) : Except Fault AcpiContext := do
  let fadtSdt ← unwrap (ctx.takeSingleSdt FACP)
  match new fadtSdt with
  | none => return ctx
  | some fadt =>
    -- `dsdt_ptr`, which is only logged.
    let _dsdtPtr ← match ← acpi2Struct fadt with
      | some fadt2 => pure (ofLe (field fadt2 24 8))
      | none => dsdt fadt
    return loadDsdt phys ctx fadt (← dsdt fadt)

end Fadt

open Fadt

/-- The AML interpreter, which is another crate: the symbols before any table, and those after one
is parsed. An error is logged and the symbols stay as they are then. A fault is a panic, be it of the
interpreter or of the handler that accesses memory for it. -/
structure Aml (ν : Type) where
  new : ν
  parseTable : ν → List U8 → Except Fault ν

namespace AcpiContext

variable {ν : Type} (aml : Aml ν)

/-- The DSDT is parsed first, if there is one, and then every SSDT. -/
def buildAmlContext (acpi : AcpiContext) : Except Fault ν := do
  let symbols ← match acpi.dsdt with
    | some (_, dsdt) => aml.parseTable aml.new dsdt.data
    | none => pure aml.new
  acpi.ssdts.foldlM (fun symbols ssdt => aml.parseTable symbols ssdt.data) symbols

def init (phys : PhysMem) (tables : List Sdt) : Except Fault (AcpiContext × ν) := do
  let this := tables.foldl (fun ctx t => ctx.newIndex t.fullSignature) ⟨tables, none, none, []⟩
  let this ← Fadt.init phys this
  let symbols ← this.buildAmlContext aml
  return (this, symbols)

end AcpiContext

section Contexts

variable {phys : PhysMem} {ctx : AcpiContext} {fadt : Sdt}

theorem foldl_newIndex (tables : List Sdt) (ctx : AcpiContext) :
    tables.foldl (fun ctx t => ctx.newIndex t.fullSignature) ctx =
      { ctx with sdtOrder := ctx.sdtOrder ++ tables.map fun t => some t.fullSignature } := by
  induction tables generalizing ctx with
  | nil => simp
  | cons t tables ih =>
    rw [foldl_cons, ih]
    simp [newIndex]

/-- A FADT that is too short for its own struct ends the daemon. Of the others, the field of 32 bits
counts. -/
theorem Fadt.init_eq (phys : PhysMem) (hfadt : ctx.takeSingleSdt FACP = some fadt)
    (hsignature : fadt.signature = FACP) : init phys ctx = if FADT_SIZE ≤ fadt.bytes.length then
      .ok (loadDsdt phys ctx fadt (ofLe (field fadt.bytes 40 4))) else .error .outOfBounds := by
  have hlength : ¬ fadt.bytes.length < 16 := by
    have hle := fadt.header_le
    unfold SDT_HEADER_SIZE at hle
    omega
  have hnew : new fadt = some fadt := by
    rw [new, if_neg (not_or.mpr ⟨not_not.mpr hsignature, hlength⟩)]
  unfold init
  simp only [hfadt, unwrap, ok_bind, hnew, acpi2Struct, tailFrom]
  split
  · rename_i hlong
    have hdsdt : dsdt fadt = .ok (ofLe (field fadt.bytes 40 4)) := if_neg (Nat.not_lt.mpr hlong)
    rw [hdsdt]
    simp only [ok_bind, pure_eq_ok]
    split <;> rfl
  · rfl

theorem Fadt.loadDsdt_dsdt {addr : Nat} (h : ctx.dsdt = none) {addr' : Nat} {d : Sdt} :
    (loadDsdt phys ctx fadt addr).dsdt = some (addr', d) ↔ addr' = addr ∧ phys.Holds addr d := by
  rw [← PhysMem.loadFromPhysical_eq_ok]
  unfold loadDsdt
  split
  · rename_i hload
    simp [h, hload]
  · rename_i hload
    simp [hload, eq_comm]

/-- The context before the FADT is looked at. -/
def AcpiContext.indexed (tables : List Sdt) : AcpiContext where
  tables := tables
  dsdt := none
  fadt := none
  sdtOrder := tables.map fun t => some t.fullSignature

theorem AcpiContext.init_eq_ok {ν : Type} {aml : Aml ν} {tables : List Sdt} {symbols : ν} :
    init aml phys tables = .ok (ctx, symbols) ↔
      Fadt.init phys (.indexed tables) = .ok ctx ∧ ctx.buildAmlContext aml = .ok symbols := by
  have hindexed := foldl_newIndex tables ⟨tables, none, none, []⟩
  simp [init, hindexed, indexed, bind_eq_ok]

end Contexts

/-! ### The list of tables -/

/-- What becomes of an entry of the RSDT or XSDT: an address, and the table there. -/
def loadEntry (phys : PhysMem) (entrySize : Nat) (chunk : List U8) : Except Fault Sdt :=
  if chunk.length = entrySize then
    match phys.loadFromPhysical (ofLe chunk) with
    | .ok sdt => .ok sdt
    | .error _ => .error .unwrapNone
  else .error .unwrapNone

/-- The size of an address in the RSDT or XSDT. -/
def Sdt.entrySize (rxsdt : Sdt) : Nat := if rxsdt.signature = RSDT then 4 else 8

/-- The addresses that are listed. A rest that is too short for one lists nothing. -/
def Sdt.listed (rxsdt : Sdt) : List Nat :=
  ((chunks rxsdt.entrySize rxsdt.data).filter (·.length = rxsdt.entrySize)).map ofLe

/-- The memory, and an RSDT or XSDT that lists a valid FACP. -/
structure Firmware where
  phys : PhysMem
  rxsdt : Sdt
  kind : rxsdt.signature = RSDT ∨ rxsdt.signature = XSDT
  facp : ∃ addr ∈ rxsdt.listed, ∃ t, phys.Holds addr t ∧ t.signature = FACP

namespace Firmware

variable {ν : Type} (aml : Aml ν) (fw : Firmware)

/-- `daemon` up to and with `AcpiContext::init`. -/
def daemon : Except Fault (AcpiContext × ν) := do
  let tables ← (chunks fw.rxsdt.entrySize fw.rxsdt.data).mapM (loadEntry fw.phys fw.rxsdt.entrySize)
  init aml fw.phys tables

/-! ### What is claimed -/

/-- Where the DSDT should be loaded from: X_DSDT, if the table has it and it is not zero, and
otherwise the field of 32 bits. -/
def dsdtAddress (fadt : Sdt) : Option Nat :=
  if 148 ≤ fadt.bytes.length ∧ ofLe (field fadt.bytes 140 8) ≠ 0 then some (ofLe (field fadt.bytes 140 8))
  else if 44 ≤ fadt.bytes.length then some (ofLe (field fadt.bytes 40 4))
  else none

/-- The valid tables that are listed. -/
def validTables : List Sdt := fw.rxsdt.listed.filterMap fun addr => (fw.phys.loadFromPhysical addr).toOption

/-- The first FACP among them. -/
def fadt : Option Sdt := fw.validTables.find? (·.signature = FACP)

/-- `ctx` has all valid tables, and the DSDT from where it should be. -/
structure Complete (ctx : AcpiContext) : Prop where
  available : ∀ addr ∈ fw.rxsdt.listed, ∀ t, fw.phys.Holds addr t → t ∈ ctx.tables
  dsdt : ∀ addr d, ctx.dsdt = some (addr, d) →
    ∃ fadt, fw.fadt = some fadt ∧ dsdtAddress fadt = some addr ∧ fw.phys.Holds addr d

def Ingested : Prop := ∃ ctx symbols, fw.daemon aml = .ok (ctx, symbols) ∧ fw.Complete ctx

/-- What the firmware has to be like. -/
structure Readable : Prop where
  whole : fw.rxsdt.entrySize ∣ fw.rxsdt.data.length
  valid : ∀ addr ∈ fw.rxsdt.listed, ∃ t, fw.phys.Holds addr t
  long : ∀ fadt, fw.fadt = some fadt → FADT_SIZE ≤ fadt.bytes.length
  narrow : ∀ fadt, fw.fadt = some fadt → dsdtAddress fadt = some (ofLe (field fadt.bytes 40 4)) ∨
    ∀ d, ¬ fw.phys.Holds (ofLe (field fadt.bytes 40 4)) d

/-- The context whose tables are parsed: the valid tables and the DSDT of the field of 32 bits. -/
def loaded (fadt : Sdt) : AcpiContext :=
  loadDsdt fw.phys (.indexed fw.validTables) fadt (ofLe (field fadt.bytes 40 4))

/-- The AML interpreter gets through the DSDT and the SSDTs without a panic. -/
def Parses : Prop :=
  ∀ fadt, fw.fadt = some fadt → ∃ symbols, (fw.loaded fadt).buildAmlContext aml = .ok symbols

/-! ### The tables -/

section Entries

variable {fw} {tables : List Sdt}

theorem entrySize_pos (rxsdt : Sdt) : 0 < rxsdt.entrySize := by
  unfold Sdt.entrySize
  split <;> decide

theorem loadEntry_eq_ok {phys : PhysMem} {size : Nat} {chunk : List U8} {t : Sdt} :
    loadEntry phys size chunk = .ok t ↔ chunk.length = size ∧ phys.loadFromPhysical (ofLe chunk) = .ok t := by
  unfold loadEntry
  split
  · split
    all_goals simp [*]
  · simp [*]

/-- When the list has no rest, its pieces are the addresses. -/
theorem listed_eq (h : fw.rxsdt.entrySize ∣ fw.rxsdt.data.length) :
    fw.rxsdt.listed = (chunks fw.rxsdt.entrySize fw.rxsdt.data).map ofLe := by
  have hall := (length_chunks_iff (entrySize_pos fw.rxsdt)).mpr h
  rw [Sdt.listed, filter_eq_self.mpr]
  intro piece hpiece
  exact decide_eq_true (hall piece hpiece)

theorem validTables_eq (h : fw.rxsdt.entrySize ∣ fw.rxsdt.data.length) :
    fw.validTables = (chunks fw.rxsdt.entrySize fw.rxsdt.data).filterMap
      fun chunk => (loadEntry fw.phys fw.rxsdt.entrySize chunk).toOption := by
  have hall := (length_chunks_iff (entrySize_pos fw.rxsdt)).mpr h
  rw [validTables, listed_eq h, filterMap_map]
  refine filterMap_congr fun chunk hchunk => ?_
  rw [loadEntry, if_pos (hall chunk hchunk), Function.comp_apply]
  cases fw.phys.loadFromPhysical (ofLe chunk) with
  | error | ok => rfl

/-- All entries are loaded exactly if there is no rest and all tables are valid. -/
theorem mapM_loadEntry_eq_ok :
    (chunks fw.rxsdt.entrySize fw.rxsdt.data).mapM (loadEntry fw.phys fw.rxsdt.entrySize) = .ok tables ↔
      fw.rxsdt.entrySize ∣ fw.rxsdt.data.length ∧
        (∀ addr ∈ fw.rxsdt.listed, ∃ t, fw.phys.Holds addr t) ∧ fw.validTables = tables := by
  constructor
  · intro h
    have hall := exists_mapM_eq_ok_iff.mp ⟨tables, h⟩
    have hwhole : fw.rxsdt.entrySize ∣ fw.rxsdt.data.length := by
      refine (length_chunks_iff (entrySize_pos fw.rxsdt)).mp fun chunk hchunk => ?_
      obtain ⟨t, ht⟩ := hall chunk hchunk
      exact (loadEntry_eq_ok.mp ht).1
    refine ⟨hwhole, fun addr haddr => ?_, ?_⟩
    · rw [listed_eq hwhole] at haddr
      obtain ⟨chunk, hchunk, rfl⟩ := mem_map.mp haddr
      obtain ⟨t, ht⟩ := hall chunk hchunk
      exact ⟨t, PhysMem.loadFromPhysical_eq_ok.mp (loadEntry_eq_ok.mp ht).2⟩
    · rw [validTables_eq hwhole]
      exact filterMap_of_mapM_eq_ok h
  · rintro ⟨hwhole, hvalid, rfl⟩
    have hlength := (length_chunks_iff (entrySize_pos fw.rxsdt)).mpr hwhole
    have hall : ∀ chunk ∈ chunks fw.rxsdt.entrySize fw.rxsdt.data,
        ∃ t, loadEntry fw.phys fw.rxsdt.entrySize chunk = .ok t := by
      intro chunk hchunk
      obtain ⟨t, ht⟩ := hvalid (ofLe chunk) (listed_eq hwhole ▸ mem_map_of_mem hchunk)
      exact ⟨t, loadEntry_eq_ok.mpr ⟨hlength chunk hchunk, PhysMem.loadFromPhysical_eq_ok.mpr ht⟩⟩
    obtain ⟨tables, htables⟩ := exists_mapM_eq_ok_iff.mpr hall
    rw [validTables_eq hwhole, filterMap_of_mapM_eq_ok htables]
    exact htables

theorem mem_validTables {addr : Nat} {t : Sdt} (haddr : addr ∈ fw.rxsdt.listed)
    (ht : fw.phys.Holds addr t) : t ∈ fw.validTables :=
  mem_filterMap.mpr ⟨addr, haddr, toOption_eq_some.mpr (PhysMem.loadFromPhysical_eq_ok.mpr ht)⟩

theorem exists_fadt (fw : Firmware) : ∃ fadt, fw.fadt = some fadt ∧ fadt.signature = FACP := by
  obtain ⟨addr, haddr, t, ht, hsignature⟩ := fw.facp
  have hsome : (fw.validTables.find? (·.signature = FACP)).isSome :=
    List.find?_isSome.mpr ⟨t, mem_validTables haddr ht, decide_eq_true hsignature⟩
  obtain ⟨fadt, hfadt⟩ := isSome_iff_exists.mp hsome
  have hfacp := List.find?_some hfadt
  exact ⟨fadt, hfadt, of_decide_eq_true hfacp⟩

end Entries

/-! ### The condition is exact -/

section Daemon

variable {aml fw} {ctx : AcpiContext} {symbols : ν}

/-- What the daemon does once the tables are there. -/
theorem daemon_eq_ok : fw.daemon aml = .ok (ctx, symbols) ↔
    fw.rxsdt.entrySize ∣ fw.rxsdt.data.length ∧ (∀ addr ∈ fw.rxsdt.listed, ∃ t, fw.phys.Holds addr t) ∧
      ∃ fadt, fw.fadt = some fadt ∧ FADT_SIZE ≤ fadt.bytes.length ∧ fw.loaded fadt = ctx ∧
        ctx.buildAmlContext aml = .ok symbols := by
  obtain ⟨fadt, hfadt, hsignature⟩ := fw.exists_fadt
  have hfirst : (indexed fw.validTables).takeSingleSdt FACP = some fadt := hfadt
  have hinit := Fadt.init_eq fw.phys hfirst hsignature
  rw [daemon, bind_eq_ok]
  constructor
  · rintro ⟨tables, htables, hctx⟩
    obtain ⟨hwhole, hvalid, rfl⟩ := mapM_loadEntry_eq_ok.mp htables
    obtain ⟨hctx, haml⟩ := init_eq_ok.mp hctx
    rw [hinit] at hctx
    split at hctx
    · rename_i hlong
      exact ⟨hwhole, hvalid, fadt, hfadt, hlong, Except.ok.inj hctx, haml⟩
    · cases hctx
  · rintro ⟨hwhole, hvalid, fadt', hfadt', hlong, hctx, haml⟩
    cases hfadt.symm.trans hfadt'
    refine ⟨fw.validTables, mapM_loadEntry_eq_ok.mpr ⟨hwhole, hvalid, rfl⟩,
      init_eq_ok.mpr ⟨?_, haml⟩⟩
    rw [hinit, if_pos hlong, ← hctx, loaded]

end Daemon

/-- The tables are read as they should be exactly from readable firmware whose AML is parsed. -/
theorem ingested_iff (aml : Aml ν) (fw : Firmware) : fw.Ingested aml ↔ fw.Readable ∧ fw.Parses aml := by
  constructor
  · rintro ⟨ctx, symbols, hctx, hcomplete⟩
    obtain ⟨hwhole, hvalid, fadt, hfadt, hlong, rfl, haml⟩ := daemon_eq_ok.mp hctx
    have only : ∀ fadt', fw.fadt = some fadt' → fadt' = fadt := fun fadt' h =>
      some.inj (h.symm.trans hfadt)
    refine ⟨⟨hwhole, hvalid, ?_, ?_⟩, ?_⟩
    · intro fadt' hfadt'
      exact only fadt' hfadt' ▸ hlong
    · intro fadt' hfadt'
      obtain rfl := only fadt' hfadt'
      by_cases hdsdt : ∃ d, fw.phys.Holds (ofLe (field fadt'.bytes 40 4)) d
      · obtain ⟨d, hd⟩ := hdsdt
        obtain ⟨fadt, hfadt, haddr, -⟩ := hcomplete.dsdt _ d ((Fadt.loadDsdt_dsdt rfl).mpr ⟨rfl, hd⟩)
        exact Or.inl (only fadt hfadt ▸ haddr)
      · exact Or.inr (not_exists.mp hdsdt)
    · intro fadt' hfadt'
      exact ⟨symbols, only fadt' hfadt' ▸ haml⟩
  · rintro ⟨h, hparses⟩
    obtain ⟨fadt, hfadt, -⟩ := fw.exists_fadt
    obtain ⟨symbols, haml⟩ := hparses fadt hfadt
    refine ⟨_, symbols,
      daemon_eq_ok.mpr ⟨h.whole, h.valid, fadt, hfadt, h.long fadt hfadt, rfl, haml⟩, ?_, ?_⟩
    · intro addr haddr t ht
      have hmem := mem_validTables haddr ht
      unfold loaded Fadt.loadDsdt
      split
      · exact hmem
      · exact mem_append_left _ hmem
    · intro addr d hd
      obtain ⟨rfl, hholds⟩ := (Fadt.loadDsdt_dsdt rfl).mp hd
      rcases h.narrow fadt hfadt with haddr | hnone
      · exact ⟨fadt, hfadt, haddr, hholds⟩
      · exact absurd hholds (hnone d)

end Firmware

/-! ### A list with a rest -/

/-- A FACP that is a header only, at the address 4096. -/
def shortFacp : Sdt where
  bytes := FACP ++ [36, 0, 0, 0, 1, 0xC1] ++ List.replicate 26 0
  header_le := by decide
  length_eq := by decide
  checksum_eq := by decide

/-- An RSDT with this address and one more byte. -/
def oddRsdt : Sdt where
  bytes := RSDT ++ [41, 0, 0, 0, 1, 0x89] ++ List.replicate 26 0 ++ [0, 0x10, 0, 0, 0]
  header_le := by decide
  length_eq := by decide
  checksum_eq := by decide

def oddFirmware : Firmware where
  phys := ⟨store (fun _ => 0) 4096 shortFacp.bytes, 2, by decide⟩
  rxsdt := oddRsdt
  kind := Or.inl (by decide)
  facp := by
    refine ⟨4096, by decide, shortFacp, ⟨by decide, by decide, ?_⟩, by decide⟩
    exact (bytes_store _ _ _).symm

/-- However the AML is parsed, the odd byte is not. -/
theorem oddFirmware_not_ingested : ¬ ∃ (ν : Type) (aml : Aml ν), oddFirmware.Ingested aml := by
  rintro ⟨ν, aml, ctx, symbols, hctx, -⟩
  obtain ⟨hwhole, -⟩ := Firmware.daemon_eq_ok.mp hctx
  exact absurd hwhole (by decide)

end RedoxDrivers.Acpid
