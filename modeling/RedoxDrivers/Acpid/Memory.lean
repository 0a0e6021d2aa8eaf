import RedoxDrivers.Acpid.Tables
import RedoxDrivers.Lib.Act

/-!
Tables in physical memory (`acpid/src/acpi.rs`).

A table is copied from mappings of a few pages each. `load_exact` says that all mappings are needed
and no slice of them is out of bounds. `loadFromPhysical_eq_load` says that the tables that are
listed are loaded like that.
-/

namespace RedoxDrivers.Acpid

open Lib Lib.Image PhysMem List
open Act (Ends ends_bind ends_pure)

/-! ### Tables -/

section Tables

variable (memory : Nat → U8)

/-- `PhysmapGuard::map`, where it succeeds. The state has all mappings, by their first page and the
number of pages. -/
def mapPages (page pageCount : Nat) : Act (List (Nat × Nat)) (List U8) := fun mapped =>
  (.ok (bytes memory page (pageCount * PAGE_SIZE)), mapped ++ [(page, pageCount)])

/-- `&xs[..n]`. -/
def headTo (xs : List U8) (n : Nat) : Except Fault (List U8) :=
  if n ≤ xs.length then .ok (xs.take n) else .error .outOfBounds

/-- The loop of `load_from_physical`. -/
def loadRest : Nat → Nat → Nat → List U8 → Act (List (Nat × Nat)) (List U8)
  | 0, _, _, _ => Act.lift (.error (.panic .diverges))
  | fuel + 1, left, offset, loaded =>
    if 0 < left then do
      let toCopy := min left (PAGE_SIZE * 4)
      let additionalPages ← mapPages memory offset ((toCopy + PAGE_SIZE - 1) / PAGE_SIZE)
      let part ← Act.lift (checked (headTo additionalPages toCopy))
      loadRest fuel (left - toCopy) (offset + toCopy) (loaded ++ part)
    else return loaded

/-- `load_from_physical`, with mappings that succeed. -/
def load (physaddr : Nat) : Act (List (Nat × Nat)) (Except InvalidSdtError Sdt) := do
  let startPage := physaddr / PAGE_SIZE * PAGE_SIZE
  let pageTableCount := headerPages physaddr
  let pages ← mapPages memory startPage pageTableCount
  if pages.length < SDT_HEADER_SIZE then Act.lift (.error (.panic .assertFailed))
  else
    let sdtMem ← Act.lift (checked (tailFrom pages (physaddr % PAGE_SIZE)))
    let sdt ← Act.lift (checked (headTo sdtMem SDT_HEADER_SIZE))
    let totalLength := headerLength sdt
    let baseLength := min totalLength sdtMem.length
    let extendedLength := totalLength - baseLength
    let loaded ← loadRest memory (extendedLength + 1) extendedLength
      (startPage + pageTableCount * PAGE_SIZE) (sdtMem.take baseLength)
    return Sdt.new loaded

/-- The length in the header at this address. -/
def lengthAt (physaddr : Nat) : Nat := headerLength (bytes memory physaddr SDT_HEADER_SIZE)

/-- All pages of the mapping have bytes between `lo` and `hi`. -/
def Needed (lo hi : Nat) (m : Nat × Nat) : Prop :=
  ∀ k < m.2, m.1 + k * PAGE_SIZE < hi ∧ lo < m.1 + (k + 1) * PAGE_SIZE

variable {memory} {lo hi left offset fuel : Nat} {loaded : List U8} {mapped : List (Nat × Nat)}

theorem loadRest_ends (hmapped : ∀ m ∈ mapped, Needed lo hi m) (hlo : lo ≤ offset)
    (hhi : 0 < left → offset + left ≤ hi) (hfuel : left < fuel) :
    Ends (fun data after => data = loaded ++ bytes memory offset left ∧ ∀ m ∈ after, Needed lo hi m)
      False (loadRest memory fuel left offset loaded mapped) := by
  induction fuel generalizing left offset loaded mapped with
  | zero => omega
  | succ fuel ih =>
    rw [loadRest]
    split
    · have hcopy : min left (PAGE_SIZE * 4) ≤
          (min left (PAGE_SIZE * 4) + PAGE_SIZE - 1) / PAGE_SIZE * PAGE_SIZE := by
        unfold PAGE_SIZE
        omega
      have hpart : headTo (bytes memory offset ((min left (PAGE_SIZE * 4) + PAGE_SIZE - 1) /
          PAGE_SIZE * PAGE_SIZE)) (min left (PAGE_SIZE * 4)) =
          .ok (bytes memory offset (min left (PAGE_SIZE * 4))) := by
        rw [headTo, length_bytes, if_pos hcopy, take_bytes hcopy]
      have hleft : min left (PAGE_SIZE * 4) + (left - min left (PAGE_SIZE * 4)) = left := by omega
      rw [Act.bind_ok (x := mapPages _ _ _) rfl, hpart, checked_ok, Act.lift_ok_bind]
      refine (ih ?_ (by omega) (by omega) (by unfold PAGE_SIZE; omega)).imp fun data after h => ?_
      · refine forall_mem_append.mpr ⟨hmapped, forall_mem_singleton.mpr fun k hk => ?_⟩
        unfold PAGE_SIZE at *
        dsimp only at *
        omega
      · rw [h.1, append_assoc, ← bytes_add, hleft]
        exact ⟨rfl, h.2⟩
    · obtain rfl : left = 0 := by omega
      exact ends_pure ⟨(append_nil _).symm, hmapped⟩

end Tables

/-- What the header says is copied, from the first mapping and the rest. -/
theorem load_ends (memory : Nat → U8) (physaddr : Nat) :
    Ends (fun result mapped => result = Sdt.new (bytes memory physaddr (lengthAt memory physaddr)) ∧
        ∀ m ∈ mapped, Needed physaddr (physaddr + max SDT_HEADER_SIZE (lengthAt memory physaddr)) m)
      False (load memory physaddr []) := by
  obtain ⟨hheader, -⟩ := header_mapped ⟨memory, 0, by decide⟩ physaddr
  have hsplit := Nat.div_add_mod' physaddr PAGE_SIZE
  -- `avail` bytes of the table are in the first mapping.
  obtain ⟨avail, havail⟩ : ∃ avail,
      physaddr / PAGE_SIZE * PAGE_SIZE + headerPages physaddr * PAGE_SIZE = physaddr + avail :=
    ⟨_, (Nat.add_sub_of_le (by omega)).symm⟩
  have htail : tailFrom (bytes memory (physaddr / PAGE_SIZE * PAGE_SIZE)
      (headerPages physaddr * PAGE_SIZE)) (physaddr % PAGE_SIZE) =
      .ok (bytes memory physaddr avail) := by
    rw [tailFrom, length_bytes, if_pos (by omega), drop_bytes, hsplit]
    congr 2
    omega
  have hhead : headTo (bytes memory physaddr avail) SDT_HEADER_SIZE =
      .ok (bytes memory physaddr SDT_HEADER_SIZE) := by
    rw [headTo, length_bytes, if_pos (by omega), take_bytes (by omega)]
  rw [load, Act.bind_ok (x := mapPages _ _ _) rfl, length_bytes, if_neg (by omega), htail,
    checked_ok, Act.lift_ok_bind, hhead, checked_ok, Act.lift_ok_bind, length_bytes, havail,
    show headerLength (bytes memory physaddr SDT_HEADER_SIZE) = lengthAt memory physaddr from rfl]
  refine ends_bind (loadRest_ends ?_ (Nat.le_add_right _ _) (fun _ => ?_) (Nat.lt_succ_self _))
    fun data after h => ends_pure ⟨?_, h.2⟩
  · refine List.forall_mem_singleton.mpr fun k hk => ?_
    unfold headerPages PAGE_SIZE SDT_HEADER_SIZE at *
    dsimp only at *
    split at hk <;> omega
  · omega
  · rw [h.1, take_bytes (Nat.min_le_right _ _)]
    rcases Nat.le_total (lengthAt memory physaddr) avail with hshort | hlong
    · rw [Nat.min_eq_left hshort, Nat.sub_self, bytes_zero, List.append_nil]
    · rw [Nat.min_eq_right hlong, ← bytes_add, Nat.add_sub_of_le hlong]

/-- **Tables.** For every content of the memory and every address: if all mappings succeed, nothing
panics, the pages that are mapped have bytes of the header or of the table, and the result is `Ok`
exactly for a valid table, with its bytes. -/
theorem load_exact (memory : Nat → U8) (physaddr : Nat) :
    Ends (fun result mapped => ((∃ t, result = .ok t) ↔ SDT_HEADER_SIZE ≤ lengthAt memory physaddr ∧
          checksum (bytes memory physaddr (lengthAt memory physaddr)) = 0) ∧
        (∀ t, result = .ok t → t.bytes = bytes memory physaddr (lengthAt memory physaddr)) ∧
        ∀ m ∈ mapped, Needed physaddr (physaddr + max SDT_HEADER_SIZE (lengthAt memory physaddr)) m)
      False (load memory physaddr []) := by
  refine (load_ends memory physaddr).imp fun result mapped h => ?_
  simp only [h.1, Sdt.new_eq_ok]
  refine ⟨⟨?_, fun ⟨hlength, hsum⟩ => ?_⟩, fun _ => id, h.2⟩
  · rintro ⟨t, ht⟩
    have hheader := t.header_le
    rw [ht, length_bytes] at hheader
    exact ⟨hheader, ht ▸ t.checksum_eq⟩
  · have hsize : SDT_HEADER_SIZE = 36 := rfl
    have heq : headerLength (bytes memory physaddr (lengthAt memory physaddr)) = _ :=
      headerLength_bytes (by omega) (by omega : 8 ≤ SDT_HEADER_SIZE)
    exact ⟨⟨_, by rwa [length_bytes], heq.trans (length_bytes _ _ _).symm, hsum⟩, rfl⟩

/-- Where there is memory for the table and for its header, its mappings succeed. -/
theorem loadFromPhysical_eq_load {phys : PhysMem} {physaddr : Nat} (haddr : PAGE_SIZE ≤ physaddr)
    (hlimit : physaddr + max SDT_HEADER_SIZE (lengthAt phys.byte physaddr) ≤ phys.limit) :
    Ends (fun result _ => phys.loadFromPhysical physaddr = result.mapError .validity) False
      (load phys.byte physaddr []) := by
  refine (load_ends phys.byte physaddr).imp fun result _ h => ?_
  rw [loadFromPhysical_eq haddr (by omega) rfl, if_pos (by unfold lengthAt at hlimit; omega), h.1, lengthAt]

end RedoxDrivers.Acpid
