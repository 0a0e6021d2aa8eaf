import RedoxDrivers.Pcid.Handler

/-!
What a subdriver checks before it uses MSI-X (`pcid/src/driver_interface/msi.rs` and `bar.rs`).

The ends of the table and of the PBA have to be below the sizes of their BARs, where they may be equal
to them: `validate_exact_iff`.
-/

namespace RedoxDrivers.Pcid

open Lib

inductive PciBar where
  | none
  | memory32 (addr size : U32)
  | memory64 (addr size : U64)
  | port (port : U16)
deriving DecidableEq, Repr

namespace PciBar

/-- `expect_mem`, with a `usize` of 64 bits. -/
def expectMem : PciBar → Except Fault (U64 × U64)
  | .memory32 addr size => .ok (addr.setWidth 64, size.setWidth 64)
  | .memory64 addr size => .ok (addr, size)
  | .port _ => .error .unwrapNone
  | .none => .error .unwrapNone

/-- The size of the BAR with a number, if there is one and it is in memory. -/
def memSize (bars : Vector PciBar 6) (bar : U8) : Option U64 :=
  match bars[bar.toNat]? with
  | some (.memory32 _ size) => some (size.setWidth 64)
  | some (.memory64 _ size) => some size
  | _ => Option.none

theorem memSize_of_lt (bars : Vector PciBar 6) {bar : U8} (h : 5 < bar) :
    memSize bars bar = Option.none := by
  rw [memSize, Vector.getElem?_eq_none (by bv_omega)]

theorem expectMem_cases (bars : Vector PciBar 6) (bar : U8) :
    (∃ addr size, memSize bars bar = some size ∧
      (index bars.toList bar.toNat >>= expectMem) = .ok (addr, size)) ∨
    ∃ fault, memSize bars bar = Option.none ∧ fault ≠ .overflow ∧
      (index bars.toList bar.toNat >>= expectMem) = .error fault := by
  rw [memSize, index, Vector.getElem?_toList]
  cases bars[bar.toNat]? with
  | none => exact .inr ⟨.outOfBounds, rfl, nofun, rfl⟩
  | some bar =>
    cases bar with
    | none | port => exact .inr ⟨.unwrapNone, rfl, nofun, rfl⟩
    | memory32 | memory64 => exact .inl ⟨_, _, rfl, rfl⟩

end PciBar

/-- `a.div_ceil(n)`. -/
def divCeil (a : U16) (n : Nat) : U16 := .ofNat 16 ((a.toNat + n - 1) / n)

namespace MsixInfo

open PciBar

/-- The panics are about reserved numbers of BARs, and about a table or PBA outside of its BAR. -/
def validate (p : Profile) (self : MsixInfo) (bars : Vector PciBar 6) : Except Fault Unit :=
  if 5 < self.tableBar then .error .assertFailed
  else if 5 < self.pbaBar then .error .assertFailed
  else do
    let tableMinLength ← p.mul self.tableSize 16
    let pbaMinLength := divCeil self.tableSize 8
    let (_, tableBarSize) ← index bars.toList self.tableBar.toNat >>= expectMem
    let (_, pbaBarSize) ← index bars.toList self.pbaBar.toNat >>= expectMem
    let tableEnd ← p.add (self.tableOffset.setWidth 64) (tableMinLength.setWidth 64)
    if tableBarSize ≤ tableEnd then .error .assertFailed
    else do
      let pbaEnd ← p.add (self.pbaOffset.setWidth 64) (pbaMinLength.setWidth 64)
      if pbaBarSize ≤ pbaEnd then .error .assertFailed else .ok ()

/-- The table and the PBA are in memory BARs, with `r` between their ends and the sizes of these. -/
def Within (r : Nat → Nat → Prop) (self : MsixInfo) (bars : Vector PciBar 6) : Prop :=
  ∃ tableBarSize pbaBarSize, memSize bars self.tableBar = some tableBarSize ∧
    memSize bars self.pbaBar = some pbaBarSize ∧
    r (self.tableOffset.toNat + 16 * self.tableSize.toNat) tableBarSize.toNat ∧
    r (self.pbaOffset.toNat + (self.tableSize.toNat + 7) / 8) pbaBarSize.toNat

/-- The end of a table or PBA is computed exactly. -/
theorem add_offset (p : Profile) (offset : U32) (length : U16) :
    ∃ tableEnd : U64, p.add (offset.setWidth 64) (length.setWidth 64) = .ok tableEnd ∧
      tableEnd.toNat = offset.toNat + length.toNat := by
  refine ⟨_, if_neg ?_, ?_⟩
  · rintro ⟨-, hover⟩
    bv_omega
  · bv_omega

theorem validate_cases (p : Profile) {self : MsixInfo} (bars : Vector PciBar 6)
    (hsize : self.tableSize.toNat ≤ 2048) :
    (self.validate p bars = .ok () ↔ self.Within (· < ·) bars) ∧
      self.validate p bars ≠ .error .overflow := by
  have hmul : p.mul self.tableSize 16 = .ok (self.tableSize * 16) := by
    refine if_neg ?_
    rintro ⟨-, hover⟩
    bv_omega
  have hlength : (self.tableSize * 16).toNat = 16 * self.tableSize.toNat := by
    bv_omega
  have hceil : (divCeil self.tableSize 8).toNat = (self.tableSize.toNat + 7) / 8 :=
    toNat_ofNat_of_lt (by omega)
  obtain ⟨tableEnd, htable, htableEnd⟩ := add_offset p self.tableOffset (self.tableSize * 16)
  obtain ⟨pbaEnd, hpba, hpbaEnd⟩ := add_offset p self.pbaOffset (divCeil self.tableSize 8)
  rw [hlength] at htableEnd
  rw [hceil] at hpbaEnd
  unfold validate Within
  simp only [hmul, htable, hpba, ok_bind, ← htableEnd, ← hpbaEnd]
  split
  · simp [memSize_of_lt bars ‹_›]
  split
  · simp [memSize_of_lt bars ‹_›]
  rcases expectMem_cases bars self.tableBar with ⟨_, tableBarSize, hbar, hmem⟩ |
    ⟨fault, hbar, hfault, hmem⟩
  · rcases expectMem_cases bars self.pbaBar with ⟨_, pbaBarSize, hbar', hmem'⟩ |
      ⟨fault, hbar', hfault, hmem'⟩
    · have hlt : ∀ a b : U64, a.toNat < b.toNat ↔ ¬ b ≤ a := fun _ _ => BitVec.not_le.symm
      simp only [hmem, hmem', ok_bind, hbar, hbar', Option.some.injEq, exists_and_left,
        exists_eq_left', hlt]
      by_cases htableFits : tableBarSize ≤ tableEnd
      · simp [htableFits]
      · by_cases hpbaFits : pbaBarSize ≤ pbaEnd
        · simp [htableFits, hpbaFits]
        · simp [htableFits, hpbaFits]
    · simp [hmem, hmem', hbar', hfault]
  · simp [hmem, hbar, hfault]

/-- **MSI-X.** For a table of a size that hardware can report, no operation of the check overflows, and
the check is exact unless the table or the PBA ends where its BAR does. -/
theorem validate_exact_iff (p : Profile) (self : MsixInfo) (bars : Vector PciBar 6)
    (hsize : self.tableSize.toNat ≤ 2048) :
    ((self.validate p bars = .ok () ↔ self.Within (· ≤ ·) bars) ∧
        self.validate p bars ≠ .error .overflow) ↔
      (self.Within (· ≤ ·) bars → self.Within (· < ·) bars) := by
  obtain ⟨hvalid, hover⟩ := validate_cases p bars hsize
  have hle : self.Within (· < ·) bars → self.Within (· ≤ ·) bars := by
    rintro ⟨_, _, htable, hpba, htableEnd, hpbaEnd⟩
    exact ⟨_, _, htable, hpba, htableEnd.le, hpbaEnd.le⟩
  rw [hvalid, and_iff_left hover]
  exact ⟨Iff.mpr, fun h => ⟨hle, h⟩⟩

/-- A BAR of one page. -/
def onePage : Vector PciBar 6 := #v[.memory32 0xFEB00000 0x1000, .none, .none, .none, .none, .none]

theorem validate_small : validate .debug ⟨0, 0, 4, 0, 0x800⟩ onePage = .ok () ↔
    Within (· ≤ ·) ⟨0, 0, 4, 0, 0x800⟩ onePage :=
  ((validate_exact_iff .debug ⟨0, 0, 4, 0, 0x800⟩ onePage (by decide)).mpr fun _ =>
    ⟨_, _, rfl, rfl, by decide, by decide⟩).1

/-- A PBA at the end of its BAR is refused. -/
theorem validate_end : Within (· ≤ ·) ⟨0, 0, 4, 0, 0xFFF⟩ onePage ∧
    validate .debug ⟨0, 0, 4, 0, 0xFFF⟩ onePage = .error .assertFailed :=
  ⟨⟨_, _, rfl, rfl, by decide, by decide⟩, rfl⟩

end MsixInfo

end RedoxDrivers.Pcid
