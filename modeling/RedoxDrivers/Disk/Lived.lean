import RedoxDrivers.Lib.Image
import RedoxDrivers.Lib.Rust

/-!
The live disk (`storage/lived/src/main.rs`).

The image is mapped in whole pages, and the file is all that is mapped. So it is the image exactly
if that begins and ends at page boundaries: `exact_iff`.
-/

namespace RedoxDrivers.Disk.Lived

open Lib Lib.Image

def PAGE_SIZE : U64 := 4096

inductive HandleType where
  | topLevel
  | theData

def HandleType.tryFromRaw : Nat → Option HandleType
  | 0 => some .topLevel
  | 1 => some .theData
  | _ => none

/-- `the_data`: so many bytes of the physical memory. -/
structure DiskScheme where
  start : U64
  len : U64

/-- `next_multiple_of(PAGE_SIZE)`. -/
def nextMultipleOf (p : Profile) (x : U64) : Except Fault U64 :=
  if x % PAGE_SIZE = 0 then .ok x else p.add x (PAGE_SIZE - x % PAGE_SIZE)

namespace DiskScheme

/-- `new`, for the values of `DISK_LIVE_ADDR` and `DISK_LIVE_SIZE`. The mapping succeeds. -/
def new (p : Profile) (phys size : U64) : Except Fault (Option DiskScheme) :=
  if phys = 0 ∨ size = 0 ∨ 2 ^ 64 ≤ phys.toNat + size.toNat then .ok none
  else do
    let start := phys / PAGE_SIZE * PAGE_SIZE
    let size ← p.sub (← nextMultipleOf p (phys + size)) start
    return some ⟨start, size⟩

variable (s : DiskScheme) (memory : Nat → U8) (id offset : Nat)

/-- The bytes of a file. -/
def data : Option (List U8) :=
  (HandleType.tryFromRaw id).map fun
    | .topLevel => [0x30, 0x0A]
    | .theData => bytes memory s.start.toNat s.len.toNat

def fsize : Except Errno Nat :=
  match s.data memory id with
  | some data => .ok data.length
  | none => .error .ebadf

/-- `read` into a buffer of `len` bytes. Behind the end, `get(o..)` is `None` and `src` is empty. -/
def read (len : Nat) : Except Errno (List U8) :=
  match s.data memory id with
  | some data => .ok ((data.drop offset).take len)
  | none => .error .ebadf

/-- `write`, with the memory after it. -/
def write (buf : List U8) : Except Errno (Nat × (Nat → U8)) :=
  match HandleType.tryFromRaw id with
  | some .theData =>
    let byteCount := min (s.len.toNat - offset) buf.length
    .ok (byteCount, store memory (s.start.toNat + offset) (buf.take byteCount))
  | _ => .error .ebadf

end DiskScheme

open DiskScheme

/-- The file is the image, and no other memory is reached through it. -/
structure DiskScheme.Exposes (s : DiskScheme) (phys size : Nat) : Prop where
  fsize : ∀ memory, s.fsize memory 1 = .ok size
  read : ∀ memory offset len,
    s.read memory 1 offset len = .ok (bytes memory (phys + offset) (min (size - offset) len))
  write : ∀ memory offset buf, s.write memory 1 offset buf = .ok (min (size - offset) buf.length,
    store memory (phys + offset) (buf.take (size - offset)))

/-- **The live disk.** It is exposed as it is exactly if its address and size are page multiples. -/
theorem exact_iff (p : Profile) (phys size : U64) (hphys : phys ≠ 0) (hsize : size ≠ 0)
    (hsum : phys.toNat + size.toNat < 2 ^ 64) :
    (∃ s, new p phys size = .ok (some s) ∧ s.Exposes phys.toNat size.toNat) ↔
      4096 ∣ phys.toNat ∧ 4096 ∣ size.toNat := by
  have hpage : PAGE_SIZE.toNat = 4096 := rfl
  have hstart : (phys / PAGE_SIZE * PAGE_SIZE).toNat = phys.toNat / 4096 * 4096 := by
    rw [BitVec.toNat_mul, BitVec.toNat_udiv, hpage]
    omega
  have hend : (phys + size).toNat = phys.toNat + size.toNat := by
    rw [BitVec.toNat_add]
    omega
  have hmod : (phys + size) % PAGE_SIZE = 0 ↔ (phys.toNat + size.toNat) % 4096 = 0 := by
    rw [← BitVec.toNat_inj, BitVec.toNat_umod, hend, hpage]
    rfl
  have hone : 1 ≤ size.toNat := Nat.pos_of_ne_zero fun h => hsize (BitVec.eq_of_toNat_eq h)
  rw [new, if_neg (not_or.mpr ⟨hphys, not_or.mpr ⟨hsize, Nat.not_le.mpr hsum⟩⟩)]
  constructor
  · rintro ⟨s, hnew, h⟩
    obtain ⟨last, hlast, hnew⟩ := bind_eq_ok.mp hnew
    obtain ⟨len, hlen, ⟨⟩⟩ := bind_eq_ok.mp hnew
    obtain ⟨-, rfl⟩ := Profile.sub_eq_ok.mp hlen
    have hlen : (last - phys / PAGE_SIZE * PAGE_SIZE).toNat = size.toNat := by
      simpa [fsize, data, HandleType.tryFromRaw] using h.fsize fun _ => 0
    -- A memory with one byte that is not zero tells where the file starts.
    have hread := h.read (fun i => if i = phys.toNat then 1 else 0) 0 1
    have hfirst : phys.toNat / 4096 * 4096 = phys.toNat := by
      change Except.ok (((bytes _ _ _).drop 0).take 1) = _ at hread
      rw [List.drop_zero, hlen, take_bytes hone, Nat.sub_zero, Nat.min_eq_right hone,
        hstart] at hread
      simpa [bytes] using hread
    rw [BitVec.toNat_sub, hstart] at hlen
    unfold nextMultipleOf at hlast
    split at hlast
    · rename_i hwhole
      rw [hmod] at hwhole
      omega
    · obtain ⟨-, rfl⟩ := Profile.add_eq_ok.mp hlast
      rw [BitVec.toNat_add, hend, BitVec.toNat_sub, BitVec.toNat_umod, hend, hpage] at hlen
      omega
  · rintro ⟨haddr, hpages⟩
    have hlen : (phys + size - phys / PAGE_SIZE * PAGE_SIZE).toNat = size.toNat := by
      rw [BitVec.toNat_sub, hend, hstart]
      omega
    have hsub : p.sub (phys + size) (phys / PAGE_SIZE * PAGE_SIZE) = _ :=
      Profile.sub_eq_ok.mpr ⟨fun h => by omega, rfl⟩
    rw [nextMultipleOf, if_pos (hmod.mpr (by omega)), ok_bind, hsub]
    have haddr : phys.toNat / 4096 * 4096 = phys.toNat := by omega
    rw [haddr] at hstart
    refine ⟨_, rfl, fun memory => ?_, fun memory offset len => ?_, fun memory offset buf => ?_⟩
    · exact congrArg Except.ok ((length_bytes _ _ _).trans hlen)
    · change Except.ok (((bytes _ _ _).drop offset).take len) = _
      rw [drop_bytes, take_bytes_min, hstart, hlen, Nat.min_comm]
    · change Except.ok (min (_ - offset) buf.length, store _ _ (buf.take (min (_ - offset) _))) = _
      rw [hstart, hlen, ← List.take_eq_take_min]

/-- A page of memory. -/
theorem one_page_exact : ∃ s, new .debug 0x1000 0x1000 = .ok (some s) ∧
    s.Exposes 0x1000 0x1000 :=
  (exact_iff .debug 0x1000 0x1000 (by decide) (by decide) (by decide)).mpr ⟨by decide, by decide⟩

/-- The file of an image that begins in the middle of a page is larger than the image. -/
theorem odd_image_enlarged : ¬ ∃ s, new .debug 0x1800 0x1000 = .ok (some s) ∧
    s.Exposes 0x1800 0x1000 := by
  rintro ⟨s, hnew, h⟩
  have hs : some (⟨0x1000, 0x2000⟩ : DiskScheme) = some s := Except.ok.inj hnew
  cases hs
  have hsize := h.fsize fun _ => 0
  change Except.ok (bytes _ _ _).length = _ at hsize
  rw [length_bytes] at hsize
  exact absurd (Except.ok.inj hsize) (by decide)

end RedoxDrivers.Disk.Lived
