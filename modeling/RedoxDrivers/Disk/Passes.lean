import RedoxDrivers.Disk.Drives

/-!
Transfers as passes over their chunks.

A transfer is cut into chunks with a command for each. `Transfer.pass` is the plain loop over the
chunks: fill the buffer, send the command, empty the buffer. `ends_pass` says
what it asks for and what becomes of the data: `gather` is where the bytes of a read come from, and
`scatter` where those of a write go to. A chunk that does not fill its last block leaves the rest of the
block to what the buffer still held. `Tiles` is what the commands of a transfer should be: one behind the
other, from the first block to the last.

The loops of the drivers are such passes. A request to a SATA disk is served over several rounds, each
of which may end with nothing but a wait. The waits make no difference: `DiskATA.run_eq` is the plain
loop.
-/

namespace RedoxDrivers.Disk

open Lib Lib.Image Rig List Nat Act
open Act (Ends ends_bind ends_pure)

/-! ### Tiling -/

/-- Commands one behind the other, from `lo` to `hi`. -/
def Tiles : Nat → Nat → List Asked → Prop
  | lo, hi, [] => lo = hi
  | lo, hi, a :: as => a.lba = lo ∧ 0 < a.count ∧ Tiles (lo + a.count) hi as

variable {lo hi : Nat} {as : List Asked}

theorem Tiles.within (h : Tiles lo hi as) :
    lo ≤ hi ∧ ∀ a ∈ as, lo ≤ a.lba ∧ 0 < a.count ∧ a.lba + a.count ≤ hi := by
  induction as generalizing lo with
  | nil => exact ⟨le_of_eq h, nofun⟩
  | cons a as ih =>
    obtain ⟨rfl, hpos, h⟩ := h
    obtain ⟨hle, h⟩ := ih h
    refine ⟨by omega, forall_mem_cons.mpr ⟨⟨le_refl _, hpos, hle⟩, fun b hb => ?_⟩⟩
    exact ⟨le_trans (le_add_right _ _) (h b hb).1, (h b hb).2⟩

theorem Tiles.end_le {bound : Nat} (h : Tiles lo hi as) (hle : ∀ a ∈ as, a.lba + a.count ≤ bound) :
    lo = hi ∨ hi ≤ bound := by
  induction as generalizing lo with
  | nil => exact .inl h
  | cons a as ih =>
    obtain ⟨rfl, -, h⟩ := h
    rw [forall_mem_cons] at hle
    exact .inr ((ih h hle.2).elim (fun heq => heq ▸ hle.1) id)

/-- Where chunks of so many blocks start. -/
def starts : List Nat → Nat → List Nat
  | [], _ => []
  | n :: ns, sector => sector :: starts ns (sector + n)

theorem mem_starts_chunkLens {size : Nat} (hsize : 0 < size) (len sector s : Nat) :
    s ∈ starts (chunkLens size len) sector ↔ ∃ k, size * k < len ∧ s = sector + size * k := by
  induction len using Nat.strong_induction_on generalizing sector with
  | _ len ih =>
    rcases Nat.eq_zero_or_pos len with rfl | hpos
    · simp [chunkLens, starts]
    · rw [chunkLens_of_pos hsize hpos, starts, mem_cons, ih _ (by omega)]
      constructor
      · rintro (rfl | ⟨k, hk, rfl⟩)
        · exact ⟨0, hpos, rfl⟩
        · refine ⟨k + 1, ?_, ?_⟩
          all_goals
            rw [mul_succ]
            omega
      · rintro ⟨k, hk, rfl⟩
        cases k with
        | zero => exact .inl rfl
        | succ k =>
          rw [mul_succ] at hk ⊢
          exact .inr ⟨k, by omega, by omega⟩

theorem lt_of_mem_starts {ns : List Nat} {sector s : Nat} (hpos : ∀ n ∈ ns, 0 < n)
    (h : s ∈ starts ns sector) : s < sector + ns.sum := by
  induction ns generalizing sector with
  | nil => cases h
  | cons n ns ih =>
    rw [forall_mem_cons] at hpos
    rw [sum_cons]
    rcases mem_cons.mp h with rfl | h
    · omega
    · have := ih hpos.2 h
      omega

/-! ### Passes -/

/-- How a driver moves chunks between a unit and a buffer. -/
structure Transfer where
  unit : Nat
  buffer : Nat
  blockSize : Nat
  /-- The address that is sent for a block of the transfer. -/
  lba : Nat → Except Stop Nat
  /-- The blocks for a chunk of so many bytes. -/
  blocks : Nat → Nat
  /-- What follows the command for a chunk that starts at some block. -/
  check : Nat → Nat → Act Rig Unit
  /-- What a write takes its data from. -/
  source : Option (List U8)

namespace Transfer

section Loop

variable (t : Transfer)

def fill (offset n : Nat) : Act Rig Unit :=
  match t.source with
  | some buf => toBuffer t.buffer ((buf.drop offset).take n)
  | none => return ()

def fetch (n : Nat) : Act Rig (List U8) :=
  match t.source with
  | some _ => return []
  | none => fromBuffer t.buffer n

def chunk (n offset sector : Nat) : Act Rig (List U8) := do
  t.fill offset n
  let lba ← lift (t.lba sector)
  command t.unit t.buffer t.blockSize lba (t.blocks n) t.source.isSome
  t.check sector n
  t.fetch n

/-- The loop over chunks of so many bytes. -/
def pass : List Nat → Nat → Nat → Act Rig (List U8)
  | [], _, _ => return []
  | n :: ns, offset, sector => do
    let data ← t.chunk n offset sector
    let rest ← pass ns (offset + n) (sector + t.blocks n)
    return data ++ rest

def start (sector : Nat) : Nat := (t.lba sector).toOption.getD 0

/-- The commands of a pass. -/
def asked : List Nat → Nat → List Asked
  | [], _ => []
  | n :: ns, sector =>
    ⟨t.unit, t.start sector, t.blocks n, t.source.isSome⟩ :: asked ns (sector + t.blocks n)

/-- Where the bytes of a read come from. -/
def gather (image : Nat → U8) : List Nat → Nat → List U8
  | [], _ => []
  | n :: ns, sector =>
    bytes image (t.start sector * t.blockSize) n ++ gather image ns (sector + t.blocks n)

/-- What a write leaves on the disk. What is in the buffer behind a chunk is written with it. -/
def scatter (buf : List U8) (image buffer : Nat → U8) : List Nat → Nat → Nat → Nat → U8
  | [], _, _ => image
  | n :: ns, offset, sector =>
    let buffer := store buffer 0 ((buf.drop offset).take n)
    scatter buf (store image (t.start sector * t.blockSize)
      (bytes buffer 0 (t.blocks n * t.blockSize))) buffer ns (offset + n) (sector + t.blocks n)

end Loop

/-! ### How a pass ends -/

section Ends

variable {t : Transfer} {E : Prop} {rig : Rig} {ns : List Nat} {buf : List U8}
  {unit buffer blockSize lba count n offset sector base : Nat}

/-- A command that ends well has moved all of its blocks. -/
theorem ends_command (write : Bool) (hfault : rig.faults ≠ [] → E)
    (hrange : (rig.media unit).blocks < lba + count → E) :
    Ends (fun _ after => lba + count ≤ (rig.media unit).blocks ∧
        after = move unit buffer blockSize lba count write { rig with
          faults := rig.faults.tail
          asked := rig.asked ++ [⟨unit, lba, count, write⟩] }) E
      (command unit buffer blockSize lba count write rig) := by
  unfold command
  dsimp only
  split
  · exact ends_errno _ (hrange ‹_›)
  · rename_i hle
    cases hhead : rig.faults.headD none with
    | none => exact ⟨not_lt.mp hle, rfl⟩
    | some =>
      refine ends_errno _ (hfault fun h => ?_)
      rw [h] at hhead
      cases hhead

theorem ne_nil_of_tail {faults : List (Option Nat)} (h : faults.tail ≠ []) : faults ≠ [] := by
  rintro rfl
  exact h rfl

/-- Code that does nothing but take what the next command would have ended with. -/
def Quiet (x : Act Rig Unit) : Prop :=
  ∀ (rig : Rig) (E : Prop), (rig.faults ≠ [] → E) → Ends (fun _ after => ∃ faults,
    after = { rig with faults } ∧ (faults ≠ [] → rig.faults ≠ [])) E (x rig)

theorem quiet_pure : Quiet (pure ()) := fun rig _ _ => ⟨rig.faults, rfl, id⟩

theorem start_of_ok {a : Nat} (h : t.lba sector = .ok a) : t.start sector = a := by
  rw [start, h]
  rfl

theorem lba_start {a : Nat} (h : t.lba sector = .ok a) : t.lba sector = .ok (t.start sector) := by
  rw [start_of_ok h, h]

/-- A chunk that no failure cuts short. -/
theorem ends_chunk (offset : Nat) (hlba : t.lba sector = .ok (t.start sector))
    (hquiet : Quiet (t.check sector n)) (hfault : rig.faults ≠ [] → E)
    (hrange : (rig.media t.unit).blocks < t.start sector + t.blocks n → E)
    (hfits : t.source = none → n ≤ t.blocks n * t.blockSize) :
    Ends (fun data after => t.start sector + t.blocks n ≤ (rig.media t.unit).blocks ∧
        after.asked = rig.asked ++ [⟨t.unit, t.start sector, t.blocks n, t.source.isSome⟩] ∧
        (after.faults ≠ [] → rig.faults ≠ []) ∧
        (after.media t.unit).blocks = (rig.media t.unit).blocks ∧
        (t.source = none → after.media t.unit = rig.media t.unit ∧
          data = bytes (rig.media t.unit).image (t.start sector * t.blockSize) n) ∧
        ∀ buf, t.source = some buf →
          after.buffers t.buffer = store (rig.buffers t.buffer) 0 ((buf.drop offset).take n) ∧
          after.media t.unit = ⟨(rig.media t.unit).blocks, store (rig.media t.unit).image
            (t.start sector * t.blockSize) (bytes (store (rig.buffers t.buffer) 0
              ((buf.drop offset).take n)) 0 (t.blocks n * t.blockSize))⟩) E
      (t.chunk n offset sector rig) := by
  unfold chunk fill fetch
  rw [hlba]
  cases hsource : t.source with
  | none =>
    have hn := hfits hsource
    have htake : n ≤ (bytes (rig.media t.unit).image (t.start sector * t.blockSize)
        (t.blocks n * t.blockSize)).length := by rwa [length_bytes]
    change Ends _ E ((command t.unit t.buffer t.blockSize (t.start sector) (t.blocks n) false >>=
      fun _ => t.check sector n >>= fun _ => fromBuffer t.buffer n) rig)
    refine ends_bind (ends_command false hfault hrange) ?_
    rintro _ _ ⟨hle, rfl⟩
    refine ends_bind (hquiet _ _ fun h => hfault (ne_nil_of_tail h)) ?_
    rintro _ _ ⟨faults, rfl, hless⟩
    refine ⟨hle, rfl, fun h => ne_nil_of_tail (hless h), rfl, fun _ => ⟨rfl, ?_⟩, nofun⟩
    simp [move, bytes_store_of_le _ _ htake, take_bytes hn]
  | some buf =>
    change Ends _ E ((command t.unit t.buffer t.blockSize (t.start sector) (t.blocks n) true >>=
      fun _ => t.check sector n >>= fun _ => pure []) { rig with
        buffers := Function.update rig.buffers t.buffer
          (store (rig.buffers t.buffer) 0 ((buf.drop offset).take n)) })
    refine ends_bind (ends_command true hfault hrange) ?_
    rintro _ _ ⟨hle, rfl⟩
    refine ends_bind (hquiet _ _ fun h => hfault (ne_nil_of_tail h)) ?_
    rintro _ _ ⟨faults, rfl, hless⟩
    refine ends_pure ⟨hle, rfl, fun h => ne_nil_of_tail (hless h), by simp [move], nofun, ?_⟩
    rintro _ ⟨⟩
    exact ⟨Function.update_self _ _ _, by simp [move]⟩

variable (hlba : ∀ s ∈ starts (ns.map t.blocks) sector, t.lba s = .ok (t.start s)) {total : Nat}
  (hquiet : ∀ s, ∀ n ∈ ns, s + t.blocks n ≤ total → Quiet (t.check s n))
  (htotal : sector + (ns.map t.blocks).sum ≤ total) (hfault : rig.faults ≠ [] → E)
  (hrange : ∀ a ∈ t.asked ns sector, (rig.media t.unit).blocks < a.lba + a.count → E)

include hlba hquiet htotal hfault hrange

/-- A read that no failure cuts short returns the bytes of its blocks, and a write changes the blocks of
its chunks. -/
theorem ends_pass (hfits : t.source = none → ∀ n ∈ ns, n ≤ t.blocks n * t.blockSize) :
    Ends (fun data after => after.asked = rig.asked ++ t.asked ns sector ∧
        (∀ a ∈ t.asked ns sector, a.lba + a.count ≤ (rig.media t.unit).blocks) ∧
        (t.source = none → after.media t.unit = rig.media t.unit ∧
          data = t.gather (rig.media t.unit).image ns sector) ∧
        ∀ buf, t.source = some buf → after.media t.unit = ⟨(rig.media t.unit).blocks,
          t.scatter buf (rig.media t.unit).image (rig.buffers t.buffer) ns offset sector⟩) E
      (t.pass ns offset sector rig) := by
  induction ns generalizing rig offset sector with
  | nil => exact ⟨(append_nil _).symm, nofun, fun _ => ⟨rfl, rfl⟩, fun _ _ => rfl⟩
  | cons n ns ih =>
    rw [map_cons, starts, forall_mem_cons] at hlba
    rw [map_cons, sum_cons] at htotal
    rw [asked, forall_mem_cons] at hrange
    simp only [forall_mem_cons] at hfits
    refine ends_bind (ends_chunk offset hlba.1 (hquiet _ _ mem_cons_self (by omega)) hfault hrange.1
      fun h => (hfits h).1) ?_
    rintro data after ⟨hle, hasked, hless, hblocks, hread, hwrite⟩
    refine ends_bind (ih hlba.2 (fun s n hn => hquiet s n (mem_cons_of_mem _ hn)) (by omega)
      (fun h => hfault (hless h)) (hblocks ▸ hrange.2) fun h => (hfits h).2) ?_
    rintro rest last ⟨hlast, hin, hread', hwrite'⟩
    rw [hblocks] at hin
    refine ends_pure ⟨?_, forall_mem_cons.mpr ⟨hle, hin⟩, fun h => ?_, fun buf h => ?_⟩
    · rw [hlast, hasked, append_assoc]
      rfl
    · obtain ⟨hmedia, rfl⟩ := hread h
      rw [(hread' h).1, (hread' h).2, hmedia]
      exact ⟨rfl, rfl⟩
    · obtain ⟨hbuffer, hmedia⟩ := hwrite buf h
      rw [hwrite' buf h, hbuffer, hmedia]
      rfl

end Ends

/-! ### Whole blocks -/

section Tiling

variable {t : Transfer} {ns : List Nat} {sector base : Nat}
  (hlba : ∀ s ∈ starts (ns.map t.blocks) sector, t.lba s = .ok (base + s))

include hlba

theorem tiles_asked (hpos : ∀ n ∈ ns, 0 < t.blocks n) :
    Tiles (base + sector) (base + sector + (ns.map t.blocks).sum) (t.asked ns sector) := by
  induction ns generalizing sector with
  | nil => exact (add_zero _).symm
  | cons n ns ih =>
    rw [map_cons, starts, forall_mem_cons] at hlba
    rw [forall_mem_cons] at hpos
    have hrest := ih hlba.2 hpos.2
    rw [← add_assoc, add_assoc _ (t.blocks n), ← sum_cons, ← map_cons] at hrest
    exact ⟨start_of_ok hlba.1, hpos.1, hrest⟩

/-- If all chunks but the last fill their blocks, a read is of one range. -/
theorem gather_eq (hfull : ∀ n ∈ ns.dropLast, t.blocks n * t.blockSize = n) (image : Nat → U8) :
    t.gather image ns sector = bytes image ((base + sector) * t.blockSize) ns.sum := by
  induction ns generalizing sector with
  | nil => rfl
  | cons n ns ih =>
    rw [map_cons, starts, forall_mem_cons] at hlba
    rw [gather, start_of_ok hlba.1, sum_cons, bytes_add]
    cases ns with
    | nil => rfl
    | cons =>
      rw [dropLast_cons_cons, forall_mem_cons] at hfull
      rw [ih hlba.2 hfull.2, ← Nat.add_assoc, Nat.add_mul _ (t.blocks n), hfull.1]

/-- Chunks that fill their blocks are written one behind the other. -/
theorem scatter_eq (hfull : ∀ n ∈ ns, t.blocks n * t.blockSize = n) {buf : List U8} {offset : Nat}
    (hlen : offset + ns.sum ≤ buf.length) (image buffer : Nat → U8) :
    t.scatter buf image buffer ns offset sector =
      store image ((base + sector) * t.blockSize) ((buf.drop offset).take ns.sum) := by
  induction ns generalizing sector offset image buffer with
  | nil => exact (store_nil _ _).symm
  | cons n ns ih =>
    rw [map_cons, starts, forall_mem_cons] at hlba
    rw [forall_mem_cons] at hfull
    rw [sum_cons] at hlen ⊢
    have hall : ((buf.drop offset).take n).length = n := by
      rw [length_take, length_drop]
      omega
    have hchunk := bytes_store buffer 0 ((buf.drop offset).take n)
    rw [hall] at hchunk
    have hjoin := store_append image ((base + sector) * t.blockSize) ((buf.drop offset).take n)
      ((buf.drop (offset + n)).take ns.sum)
    rw [hall] at hjoin
    rw [scatter, start_of_ok hlba.1, hfull.1, hchunk, ih hlba.2 hfull.2 (by omega), ← add_assoc,
      Nat.add_mul _ (t.blocks n), hfull.1, hjoin, take_add, drop_drop]

end Tiling

/-! ### Whole transfers -/

section Whole

variable {t : Transfer} {E : Prop} {rig : Rig} {ns : List Nat} {base : Nat}
  (hlba : ∀ s ∈ starts (ns.map t.blocks) 0, t.lba s = .ok (base + s))
  (hpos : ∀ n ∈ ns, 0 < t.blocks n)
  (hquiet : ∀ s, ∀ n ∈ ns, s + t.blocks n ≤ (ns.map t.blocks).sum → Quiet (t.check s n))
  (hfault : rig.faults ≠ [] → E)
  (hrange : ¬ (base = base + (ns.map t.blocks).sum ∨
    base + (ns.map t.blocks).sum ≤ (rig.media t.unit).blocks) → E)

include hlba hpos hquiet hfault hrange

/-- A transfer that returns has asked for its blocks, which are on the medium. -/
theorem ends_whole (hfits : t.source = none → ∀ n ∈ ns, n ≤ t.blocks n * t.blockSize) :
    Ends (fun data after => after.asked = rig.asked ++ t.asked ns 0 ∧
        (base = base + (ns.map t.blocks).sum ∨
          base + (ns.map t.blocks).sum ≤ (rig.media t.unit).blocks) ∧
        (t.source = none → data = t.gather (rig.media t.unit).image ns 0) ∧
        ∀ buf, t.source = some buf → (after.media t.unit).image =
          t.scatter buf (rig.media t.unit).image (rig.buffers t.buffer) ns 0 0) E
      (t.pass ns 0 0 rig) := by
  have htiles := tiles_asked hlba hpos
  have hout : ∀ a ∈ t.asked ns 0, (rig.media t.unit).blocks < a.lba + a.count → E := by
    intro a ha hout
    have := htiles.within.2 a ha
    exact hrange (by omega)
  exact (ends_pass (fun s hs => lba_start (hlba s hs)) hquiet (le_of_eq (zero_add _)) hfault hout
    hfits).imp fun data after h => ⟨h.1, htiles.end_le h.2.1, fun hs => (h.2.2.1 hs).2, fun buf hs =>
      congrArg Medium.image (h.2.2.2 buf hs)⟩

end Whole

/-! ### Waits -/

section Waits

variable {α β : Type} {x : Act Rig α} {f : α → Act Rig β}

/-- Code that neither looks at the waits of the rig nor changes them. -/
def Waitless (x : Act Rig α) : Prop :=
  ∀ rig waits, x { rig with waits } = ((x rig).1, { (x rig).2 with waits })

theorem waitless_bind (hx : Waitless x) (hf : ∀ a, Waitless (f a)) : Waitless (x >>= f) := by
  intro rig waits
  rw [bind_apply, bind_apply, hx]
  rcases x rig with ⟨stop | a, mid⟩
  · rfl
  · exact hf a mid waits

theorem waitless_command (unit buffer blockSize lba count : Nat) (write : Bool) :
    Waitless (command unit buffer blockSize lba count write) := by
  intro rig waits
  unfold command move
  dsimp only
  split
  · rfl
  · split <;> split <;> rfl

variable {t : Transfer}

theorem waitless_fetch (n : Nat) : Waitless (t.fetch n) := by
  unfold fetch
  split <;> exact fun _ _ => rfl

theorem waitless_pass (h : ∀ s n, Waitless (t.check s n)) (ns : List Nat) (offset sector : Nat) :
    Waitless (t.pass ns offset sector) := by
  induction ns generalizing offset sector with
  | nil => exact fun _ _ => rfl
  | cons n ns ih =>
    refine waitless_bind ?_ fun _ => waitless_bind (ih _ _) fun _ _ _ => rfl
    have hfill : Waitless (t.fill offset n) := by
      unfold fill
      split <;> exact fun _ _ => rfl
    exact waitless_bind hfill fun _ => waitless_bind (fun _ _ => rfl) fun _ =>
      waitless_bind (waitless_command _ _ _ _ _ _) fun _ => waitless_bind (h _ _) fun _ =>
        waitless_fetch _

/-- Filling the buffer with the same data again changes nothing. -/
theorem fill_fill (offset n : Nat) (rig : Rig) :
    t.fill offset n (t.fill offset n rig).2 = t.fill offset n rig := by
  unfold fill
  cases t.source with
  | some => simp [toBuffer, store_store]
  | none => rfl

end Waits

end Transfer

/-! ### NVMe namespaces -/

namespace NvmeNamespace

variable {p : Profile} {ns : NvmeNamespace} {lba : U64} {buf : List U8} {lens : List Nat}

section

variable (ns : NvmeNamespace)

/-- The blocks for a chunk: whole blocks, rounded up. -/
def blocksOf (len : Nat) : Nat := (len + ns.blockSize.toNat - 1) / ns.blockSize.toNat

def transfer (p : Profile) (ns : NvmeNamespace) (lba : U64) (source : Option (List U8)) : Transfer where
  unit := ns.id
  buffer := buffer
  blockSize := ns.blockSize.toNat
  lba s := .ok (lba + .ofNat 64 s).toNat
  blocks := ns.blocksOf
  check s n := lift ((checked (p.add (lba + .ofNat 64 s) (.ofNat 64 (ns.blocksOf n)))).map
    fun _ => ())
  source

theorem toNat_blockSize : ns.blockSize.toNat = 2 ^ ns.log := by
  have hlt : 2 ^ ns.log < 2 ^ 64 := Nat.pow_lt_pow_right (by decide) (by have := ns.log_lt; omega)
  show (1 <<< ns.log) % 2 ^ 64 = 2 ^ ns.log
  rw [one_shiftLeft, mod_eq_of_lt hlt]

theorem blockSize_ge : 512 ≤ ns.blockSize.toNat := by
  rw [toNat_blockSize]
  exact Nat.pow_le_pow_right (show 2 > 0 by decide) ns.le_log

theorem blocksOf_pos {len : Nat} (hpos : 0 < len) : 0 < ns.blocksOf len := by
  have := ns.blockSize_ge
  exact div_pos (by omega) (by omega)

theorem blocksOf_le (len : Nat) : ns.blocksOf len ≤ len := by
  have hbs := ns.blockSize_ge
  rcases Nat.eq_zero_or_pos len with rfl | hpos
  · rw [blocksOf, div_eq_of_lt (by omega)]
  · refine Nat.le_of_lt_succ (Nat.div_lt_of_lt_mul ?_)
    have : len * 2 ≤ len * ns.blockSize.toNat := Nat.mul_le_mul_left len (by omega)
    rw [Nat.succ_eq_add_one, Nat.mul_add, Nat.mul_one, Nat.mul_comm]
    omega

end

theorem toNat_lba {s : Nat} (h : lba.toNat + s < 2 ^ 64) :
    (lba + BitVec.ofNat 64 s).toNat = lba.toNat + s := by
  rw [BitVec.toNat_add, toNat_ofNat_of_lt (by omega : s < 2 ^ 64), mod_eq_of_lt h]

/-- The assertions on a chunk hold. -/
theorem blocksFor_eq {n : Nat} (hn : 0 < n ∧ n ≤ 8192) : ns.blocksFor n = pure (ns.blocksOf n) := by
  have hle := ns.blocksOf_le n
  show (assert (ns.blocksOf n > 0) >>= fun _ => assert (ns.blocksOf n ≤ 0x10000) >>= fun _ =>
    pure (ns.blocksOf n)) = _
  unfold assert
  rw [if_pos (ns.blocksOf_pos hn.1), if_pos (by omega)]
  rfl

/-- The count of a chunk fits into the command. -/
theorem rw_eq {n : Nat} (hn : 0 < n ∧ n ≤ 8192) (lba : U64) (write : Bool) :
    ns.rw lba (.ofNat 16 (ns.blocksOf n - 1)) write =
      command ns.id buffer ns.blockSize.toNat lba.toNat (ns.blocksOf n) write := by
  have hpos := ns.blocksOf_pos hn.1
  have hle := ns.blocksOf_le n
  unfold rw
  rw [toNat_ofNat_of_lt (by omega), Nat.sub_add_cancel hpos]

/-- The sum that follows a command is the next block, or a panic. -/
theorem add_bind {α : Type} (s n : Nat) (f : U64 → Act Rig α) :
    (lift (checked (p.add (lba + .ofNat 64 s) (.ofNat 64 n))) >>= f) =
      (lift ((checked (p.add (lba + .ofNat 64 s) (.ofNat 64 n))).map fun _ => ()) >>= fun _ =>
        f (lba + .ofNat 64 (s + n))) := by
  cases hadd : p.add (lba + .ofNat 64 s) (.ofNat 64 n) with
  | error => rfl
  | ok =>
    obtain ⟨-, rfl⟩ := Profile.add_eq_ok.mp hadd
    rw [BitVec.ofNat_add, ← BitVec.add_assoc]
    rfl

theorem readChunks_eq (hlens : ∀ n ∈ lens, 0 < n ∧ n ≤ 8192) (offset s : Nat) :
    ns.readChunks p lens (lba + .ofNat 64 s) = (ns.transfer p lba none).pass lens offset s := by
  induction lens generalizing offset s with
  | nil => rfl
  | cons n lens ih =>
    rw [forall_mem_cons] at hlens
    have hlift (x : Except Stop Unit) (f : List U8 → Act Rig (List U8)) :
        (fromBuffer buffer n >>= fun data => lift x >>= fun _ => f data) =
          lift x >>= fun _ => fromBuffer buffer n >>= f := by
      cases x <;> rfl
    rw [readChunks, blocksFor_eq hlens.1, pure_bind, rw_eq hlens.1, Transfer.pass, Transfer.chunk]
    simp only [bind_assoc, add_bind, hlift, ih hlens.2 (offset + n)]
    rfl

theorem writeChunks_eq (hlens : ∀ n ∈ lens, 0 < n ∧ n ≤ 8192) (offset : Nat)
    (hsum : offset + lens.sum ≤ buf.length) (s : Nat) :
    ns.writeChunks p (pieces lens (buf.drop offset)) (lba + .ofNat 64 s) =
      ((ns.transfer p lba (some buf)).pass lens offset s >>= fun _ => pure ()) := by
  induction lens generalizing offset s with
  | nil => rfl
  | cons n lens ih =>
    rw [forall_mem_cons] at hlens
    rw [sum_cons] at hsum
    have hlen : ((buf.drop offset).take n).length = n := by
      rw [length_take, length_drop]
      omega
    rw [pieces, writeChunks, hlen, blocksFor_eq hlens.1, pure_bind, rw_eq hlens.1, Transfer.pass,
      Transfer.chunk, drop_drop]
    simp only [bind_assoc, pure_bind, add_bind, ih hlens.2 (offset + n) (by omega)]
    rfl

theorem chunk_bounds {len n : Nat} (h : n ∈ chunkLens 8192 len) : 0 < n ∧ n ≤ 8192 :=
  ⟨pos_of_mem_chunkLens (by decide) h, mem_chunkLens_le (by decide) h⟩

theorem read_eq (p : Profile) (ns : NvmeNamespace) (lba : U64) (buf : List U8) :
    ns.read p lba buf = (ns.transfer p lba none).pass (chunkLens 8192 buf.length) 0 0 := by
  rw [← readChunks_eq fun _ => chunk_bounds, BitVec.add_zero]
  rfl

theorem write_eq (p : Profile) (ns : NvmeNamespace) (lba : U64) (buf : List U8) :
    ns.write p lba buf = ((ns.transfer p lba (some buf)).pass (chunkLens 8192 buf.length) 0 0 >>=
      fun _ => pure buf.length) := by
  have h : ns.writeChunks p (pieces _ (buf.drop 0)) (lba + .ofNat 64 0) = _ :=
    writeChunks_eq (fun _ => chunk_bounds) 0 (by rw [sum_chunkLens, zero_add]) 0
  rw [BitVec.add_zero, drop_zero] at h
  rw [write, chunks, h, bind_assoc]
  rfl

end NvmeNamespace

/-! ### IDE disks -/

namespace AtaDisk

variable {p : Profile} {disk : AtaDisk} {startBlock : U64} {buf : List U8} {lens : List Nat}

/-- The address that is sent for a sector of a transfer. -/
def lbaOf (p : Profile) (disk : AtaDisk) (startBlock : U64) (s : Nat) : Except Stop Nat := do
  let block ← checked (p.add startBlock (.ofNat 64 s))
  if block < 0x1000000000000 then .ok (disk.register block) else .error (.panic .assertFailed)

/-- Through the data register go whole sectors of a chunk. -/
def pio (disk : AtaDisk) (n : Nat) : Act Rig Unit :=
  lift (if disk.dma ∨ n % 512 = 0 then .ok () else .error (.panic .outOfBounds))

def passOf (p : Profile) (disk : AtaDisk) (startBlock : U64) (source : Option (List U8)) :
    Transfer where
  unit := disk.unit
  buffer := disk.port
  blockSize := 512
  lba := disk.lbaOf p startBlock
  blocks n := (n + 511) / 512
  check _ n := source.elim (disk.pio n) fun _ => disk.pio n >>= fun _ => query
  source

theorem transfer_eq {n : Nat} (hn : n ≤ 65536) (s : Nat) (write : Bool) :
    disk.transfer p startBlock (s * 512) n write = (do
      let lba ← lift (disk.lbaOf p startBlock s)
      command disk.unit disk.port 512 lba ((n + 511) / 512) write
      disk.pio n) := by
  have hsectors : (n + 511) / 512 ≤ 128 := by omega
  simp only [transfer, lbaOf, assert, Nat.mul_div_cancel s (by decide : 0 < 512), if_pos hsectors]
  cases checked (p.add startBlock (.ofNat 64 s)) with
  | error => rfl
  | ok block =>
    by_cases h : block < 0x1000000000000
    · simp only [lift_ok_bind, ok_bind, if_pos h]
      rfl
    · simp only [lift_ok_bind, ok_bind, if_neg h]
      rfl

theorem readChunks_eq (hlens : ∀ n ∈ lens, n ≤ 65536) (hfull : ∀ n ∈ lens.dropLast, 512 ∣ n) (s : Nat) :
    disk.readChunks p startBlock lens (s * 512) =
      (disk.passOf p startBlock none).pass lens (s * 512) s := by
  induction lens generalizing s with
  | nil => rfl
  | cons n lens ih =>
    rw [forall_mem_cons] at hlens
    rw [readChunks, transfer_eq hlens.1, Transfer.pass, Transfer.chunk]
    have hrest : disk.readChunks p startBlock lens (s * 512 + n) =
        (disk.passOf p startBlock none).pass lens (s * 512 + n) (s + (n + 511) / 512) := by
      cases lens with
      | nil => rfl
      | cons m lens =>
        rw [dropLast_cons_cons, forall_mem_cons] at hfull
        rw [show s * 512 + n = (s + (n + 511) / 512) * 512 by omega]
        exact ih hlens.2 hfull.2 _
    simp only [bind_assoc, hrest]
    rfl

theorem writeChunks_eq (hlens : ∀ n ∈ lens, n ≤ 65536) (hfull : ∀ n ∈ lens.dropLast, 512 ∣ n)
    (s : Nat) (hsum : s * 512 + lens.sum ≤ buf.length) :
    disk.writeChunks p startBlock (pieces lens (buf.drop (s * 512))) (s * 512) =
      ((disk.passOf p startBlock (some buf)).pass lens (s * 512) s >>= fun _ =>
        pure (s * 512 + lens.sum)) := by
  induction lens generalizing s with
  | nil =>
    rw [sum_nil, add_zero]
    rfl
  | cons n lens ih =>
    rw [forall_mem_cons] at hlens
    rw [sum_cons] at hsum ⊢
    have hlen : ((buf.drop (s * 512)).take n).length = n := by
      rw [length_take, length_drop]
      omega
    rw [pieces, writeChunks, hlen, transfer_eq hlens.1, Transfer.pass, Transfer.chunk, drop_drop]
    have hrest : disk.writeChunks p startBlock (pieces lens (buf.drop (s * 512 + n))) (s * 512 + n) =
        ((disk.passOf p startBlock (some buf)).pass lens (s * 512 + n) (s + (n + 511) / 512) >>=
          fun _ => pure (s * 512 + (n + lens.sum))) := by
      cases lens with
      | nil => rfl
      | cons m lens =>
        rw [dropLast_cons_cons, forall_mem_cons] at hfull
        have hnext := ih hlens.2 hfull.2 (s + (n + 511) / 512)
        rw [show (s + (n + 511) / 512) * 512 = s * 512 + n by omega, add_assoc] at hnext
        exact hnext hsum
    have hcheck : (disk.passOf p startBlock (some buf)).check s n = disk.pio n >>= fun _ => query := rfl
    simp only [bind_assoc, pure_bind, hrest, hcheck]
    rfl

theorem chunk_bounds {len n : Nat} (h : n ∈ chunkLens 65536 len) : n ≤ 65536 :=
  mem_chunkLens_le (by decide) h

/-- All chunks but the last are whole sectors. -/
theorem dvd_of_mem_dropLast {len n : Nat} (h : n ∈ (chunkLens 65536 len).dropLast) : 512 ∣ n := by
  rw [(of_mem_dropLast_chunkLens (by decide) h).1]
  decide

theorem read_eq (p : Profile) (disk : AtaDisk) (startBlock : U64) (buf : List U8) :
    disk.read p startBlock buf =
      (disk.passOf p startBlock none).pass (chunkLens 65536 buf.length) 0 0 := by
  have h : disk.readChunks p startBlock (chunkLens 65536 buf.length) _ = _ :=
    readChunks_eq (fun _ => chunk_bounds) (fun _ => dvd_of_mem_dropLast) 0
  rwa [zero_mul] at h

theorem write_eq (p : Profile) (disk : AtaDisk) (startBlock : U64) (buf : List U8) :
    disk.write p startBlock buf =
      ((disk.passOf p startBlock (some buf)).pass (chunkLens 65536 buf.length) 0 0 >>= fun _ =>
        pure buf.length) := by
  have h : disk.writeChunks p startBlock (pieces (chunkLens 65536 buf.length) _) _ = _ :=
    writeChunks_eq (fun _ => chunk_bounds) (fun _ => dvd_of_mem_dropLast) 0
      (by rw [sum_chunkLens, zero_mul, zero_add])
  rwa [sum_chunkLens, zero_mul, zero_add] at h

end AtaDisk

/-! ### SATA disks -/

namespace DiskATA

open Transfer

variable {p : Profile} {disk : DiskATA} {block : U64} {kind : BufferKind} {request : Request}
  {rig : Rig} {fuel : Nat}

/-- What a write takes its data from. -/
def BufferKind.source : BufferKind → Option (List U8)
  | .read _ => none
  | .write buf => some buf

/-- The address that is sent for a sector of a request. -/
def lbaOf (p : Profile) (block : U64) (sector : Nat) : Except Stop Nat :=
  (checked (p.add block (.ofNat 64 sector))).map fun block => block.toNat % 2 ^ 48

section

variable (p : Profile) (disk : DiskATA) (block : U64) (kind : BufferKind)

def transfer : Transfer where
  unit := disk.unit
  buffer := disk.unit
  blockSize := 512
  lba := lbaOf p block
  blocks n := n / 512
  check _ _ := pure ()
  source := kind.source

/-- What is left of a request with no command running. -/
def goOn (request : Request) : Act Rig Request := do
  let data ← (disk.transfer p block kind).pass
    (chunkLens 130560 ((request.totalSectors - request.sector) * 512)) (request.sector * 512)
    request.sector
  return ⟨request.totalSectors, max request.sector request.totalSectors, none, request.filled ++ data⟩

/-- What is left of a request. -/
def rest (request : Request) : Act Rig Request :=
  match request.running with
  | none => goOn p disk block kind request
  | some (n, result) => do
    lift result
    let data ← (disk.transfer p block kind).fetch (n * 512)
    goOn p disk block kind
      ⟨request.totalSectors, request.sector + n, none, request.filled ++ data⟩

end

theorem waitless_goOn : Waitless (goOn p disk block kind request) :=
  waitless_bind (waitless_pass (fun _ _ _ _ => rfl) _ _ _) fun _ _ _ => rfl

theorem waitless_rest : Waitless (rest p disk block kind request) := by
  unfold rest
  split
  · exact waitless_goOn
  · exact waitless_bind (fun _ _ => rfl) fun _ => waitless_bind (waitless_fetch _) fun _ =>
      waitless_goOn

/-- The next chunk of a request with no command running: its command is sent, and the rest goes on
from its end. -/
theorem goOn_eq {n : Nat} (h : request.sector < request.totalSectors)
    (hn : min 255 (request.totalSectors - request.sector) = n) :
    goOn p disk block kind request = (do
      (disk.transfer p block kind).fill (request.sector * 512) (n * 512)
      let block' ← lift (checked (p.add block (.ofNat 64 request.sector)))
      let result ← attempt
        (command disk.unit disk.unit 512 (block'.toNat % 2 ^ 48) n kind.isWrite)
      rest p disk block kind { request with running := some (n, result) }) := by
  have hmax : max (request.sector + n) request.totalSectors = request.totalSectors := by omega
  have hblocks : (disk.transfer p block kind).blocks (n * 512) = n := Nat.mul_div_cancel _ (by decide)
  have hlba : (disk.transfer p block kind).lba request.sector = lbaOf p block request.sector := rfl
  have hwrite : (disk.transfer p block kind).source.isSome = kind.isWrite := by cases kind <;> rfl
  have hlen : min 130560 ((request.totalSectors - request.sector) * 512) = n * 512 := by omega
  unfold goOn
  rw [chunkLens_of_pos (by decide) (by omega), hlen, ← Nat.sub_mul, Transfer.pass, Transfer.chunk,
    Nat.max_eq_right (Nat.le_of_lt h), hblocks, hwrite, hlba, lbaOf]
  simp only [bind_assoc, pure_bind]
  refine bind_congr fun _ => ?_
  cases checked (p.add block (.ofNat 64 request.sector)) with
  | error => rfl
  | ok =>
    simp only [Except.map, lift_ok_bind, rest, attempt_bind, goOn, hmax, Nat.sub_sub,
      Nat.add_mul, append_assoc]
    rfl

/-- The rounds that are left at most. -/
def rounds (request : Request) (rig : Rig) : Nat := rig.waits.length +
  (request.totalSectors - request.sector - request.running.elim 0 Prod.fst)

/-- The same end, but for the waits. -/
def Alike (r r' : Except Stop Request × Rig) : Prop := ∃ waits, r = (r'.1, { r'.2 with waits })

theorem Alike.of_waits {x : Act Rig Request} {r : Except Stop Request × Rig} (waits : List Bool)
    (hx : Waitless x) (h : Alike r (x { rig with waits })) : Alike r (x rig) := by
  rw [hx] at h
  exact h

theorem length_tail_lt {waits : List Bool} (h : waits.headD false = true) :
    waits.tail.length < waits.length := by
  cases waits with
  | nil => cases h
  | cons => exact lt_succ_self _

/-- The start of the next command, and what follows it. -/
theorem start_eq (hidle : request.running = none) (hroom : rounds request rig < fuel + 1)
    (ih : ∀ {request rig}, rounds request rig < fuel →
      Alike (disk.serve p block kind fuel request rig) (rest p disk block kind request rig)) :
    Alike ((disk.start p block kind request >>= fun
        | .done r => pure r
        | .pending r => disk.serve p block kind fuel r) rig)
      (goOn p disk block kind request rig) := by
  unfold rounds at hroom
  rw [hidle] at hroom
  by_cases hlt : request.sector < request.totalSectors
  · generalize hn : min 255 (request.totalSectors - request.sector) = n
    have hstart : (disk.start p block kind request >>= fun
          | .done r => pure r
          | .pending r => disk.serve p block kind fuel r) =
        ((disk.transfer p block kind).fill (request.sector * 512) (n * 512) >>= fun _ =>
          lift (checked (p.add block (.ofNat 64 request.sector))) >>= fun block' =>
            mustWait >>= fun wait => if wait then disk.serve p block kind fuel request else
              attempt (command disk.unit disk.unit 512 (block'.toNat % 2 ^ 48) n kind.isWrite) >>=
                fun result => disk.serve p block kind fuel
                  { request with running := some (n, result) }) := by
      have hsectors : 0 < n ∧ n < 256 := by omega
      unfold start
      rw [if_pos hlt, hn]
      cases kind with
      | read =>
        simp only [bind_assoc, ataDma, assert, if_pos hsectors, lift_ok_bind]
        refine bind_congr fun block' => bind_congr fun wait => ?_
        cases wait <;> simp
      | write =>
        simp only [bind_assoc, ataDma, assert, if_pos hsectors, lift_ok_bind]
        refine bind_congr fun _ => bind_congr fun block' => bind_congr fun wait => ?_
        cases wait <;> simp
    obtain ⟨filled, hfill⟩ : ∃ filled, (disk.transfer p block kind).fill (request.sector * 512)
        (n * 512) rig = (.ok (), filled) ∧ filled.waits = rig.waits := by
      cases kind <;> exact ⟨_, rfl, rfl⟩
    have hgoOn : goOn p disk block kind request filled = goOn p disk block kind request rig := by
      have h := fill_fill (t := disk.transfer p block kind) (request.sector * 512) (n * 512) rig
      rw [hfill.1] at h
      rw [goOn_eq hlt hn, bind_ok h, bind_ok hfill.1]
    rw [hstart, bind_ok hfill.1]
    cases hblock : checked (p.add block (.ofNat 64 request.sector)) with
    | error =>
      rw [goOn_eq hlt hn, bind_ok hfill.1, hblock]
      exact ⟨_, rfl⟩
    | ok block' =>
      rw [lift_ok_bind, bind_ok (x := mustWait) rfl, hfill.2]
      cases hwait : rig.waits.headD false with
      | true =>
        have hless := length_tail_lt hwait
        have hrest : Alike _ (rest p disk block kind request { filled with waits := rig.waits.tail }) :=
          ih (by
            unfold rounds
            rw [hidle]
            exact Nat.lt_of_lt_of_le (Nat.add_lt_add_right hless _) (Nat.lt_succ_iff.mp hroom))
        rw [rest, hidle] at hrest
        have hsame := Alike.of_waits _ waitless_goOn hrest
        rw [hgoOn] at hsame
        exact hsame
      | false =>
        have hshort : rig.waits.tail.length ≤ rig.waits.length := by simp
        rw [goOn_eq hlt hn, bind_ok hfill.1, hblock, lift_ok_bind]
        simp only [bind_apply, attempt, Bool.false_eq_true, if_false]
        rw [waitless_command]
        refine Alike.of_waits _ waitless_rest (ih ?_)
        show rig.waits.tail.length + (request.totalSectors - request.sector - n) < fuel
        have : rig.waits.length + (request.totalSectors - request.sector) < fuel + 1 := hroom
        omega
  · refine ⟨rig.waits, ?_⟩
    unfold start goOn
    rw [if_neg hlt, Nat.sub_eq_zero_of_le (Nat.not_lt.mp hlt), Nat.max_eq_left (Nat.not_lt.mp hlt)]
    cases request
    cases hidle
    simp [chunkLens, Transfer.pass]

/-- With rounds enough, what is left of a request is done, however often the driver has to wait. -/
theorem serve_eq (fuel : Nat) (hroom : rounds request rig < fuel) :
    Alike (disk.serve p block kind fuel request rig) (rest p disk block kind request rig) := by
  induction fuel generalizing request rig with
  | zero => exact absurd hroom (Nat.not_lt_zero _)
  | succ fuel ih =>
    rw [serve, DiskATA.request, bind_assoc]
    unfold finish rest
    cases hrunning : request.running with
    | none => exact start_eq hrunning hroom ih
    | some running =>
      obtain ⟨n, result⟩ := running
      unfold rounds at hroom
      rw [hrunning] at hroom
      simp only [bind_assoc]
      rw [bind_ok (x := mustWait) rfl]
      cases hwait : rig.waits.headD false with
      | true =>
        have hless := length_tail_lt hwait
        have hrest : Alike _ (rest p disk block kind request { rig with waits := rig.waits.tail }) :=
          ih (by
            unfold rounds
            rw [hrunning]
            exact Nat.lt_of_lt_of_le (Nat.add_lt_add_right hless _) (Nat.lt_succ_iff.mp hroom))
        have hsame := Alike.of_waits _ waitless_rest hrest
        rw [rest, hrunning] at hsame
        exact hsame
      | false =>
        have hshort : rig.waits.tail.length ≤ rig.waits.length := by simp
        have hstart : ∀ data, Alike _ (goOn p disk block kind ⟨request.totalSectors,
            request.sector + n, none, request.filled ++ data⟩ rig) := fun data =>
          Alike.of_waits rig.waits.tail waitless_goOn (start_eq rfl (by
            show rig.waits.tail.length + (request.totalSectors - (request.sector + n) - 0) < _
            have : rig.waits.length + (request.totalSectors - request.sector - n) < fuel + 1 := hroom
            omega) ih)
        cases result with
        | error => exact ⟨_, rfl⟩
        | ok =>
          cases kind with
          | read => exact hstart _
          | write =>
            have hnil := hstart []
            rw [append_nil] at hnil
            simp only [lift_ok_bind, transfer, BufferKind.source, fetch, pure_bind, append_nil]
            exact hnil

/-- A request is the plain loop over its chunks. -/
theorem run_eq (p : Profile) (disk : DiskATA) (block : U64) (kind : BufferKind) (rig : Rig) :
    Alike (disk.run p block kind rig) ((do
      let data ← (disk.transfer p block kind).pass (chunkLens 130560 (kind.len / 512 * 512)) 0 0
      return Request.mk (kind.len / 512) (kind.len / 512) none data) rig) := by
  have h : Alike (disk.run p block kind rig) (rest p disk block kind ⟨_, 0, none, []⟩ rig) :=
    serve_eq _ (by
      show rig.waits.length + (kind.len / 512 - 0 - 0) < rig.waits.length + kind.len / 512 + 2
      omega)
  simpa only [rest, goOn, Nat.sub_zero, Nat.zero_max, Nat.zero_mul, nil_append] using h

/-- A request ends as the loop over its chunks does. -/
theorem ends_run {Q : Request → Rig → Prop} {E : Prop}
    (hends : Ends (fun data after => Q ⟨kind.len / 512, kind.len / 512, none, data⟩ after) E
      ((disk.transfer p block kind).pass (chunkLens 130560 (kind.len / 512 * 512)) 0 0 rig))
    (hQ : ∀ last after waits, Q last after → Q last { after with waits }) :
    Ends Q E (disk.run p block kind rig) := by
  obtain ⟨waits, h⟩ := run_eq p disk block kind rig
  rw [h, bind_apply]
  revert hends
  rcases (disk.transfer p block kind).pass _ 0 0 rig with ⟨(fault | code) | data, after⟩
  · exact id
  · exact id
  · exact hQ _ _ _

/-- Sent are the low 48 bits. -/
theorem lbaOf_eq_ok {s : Nat} (h : p = .debug → block.toNat + s < 2 ^ 64) :
    lbaOf p block s = .ok ((block.toNat + s) % 2 ^ 48) := by
  have hadd : p.add block (.ofNat 64 s) = .ok (block + .ofNat 64 s) := by
    refine Profile.add_eq_ok.mpr ⟨fun ⟨hp, hle⟩ => ?_, rfl⟩
    rw [BitVec.toNat_ofNat] at hle
    have := h hp
    omega
  rw [lbaOf, hadd]
  refine congrArg Except.ok ?_
  dsimp only
  rw [BitVec.toNat_add, BitVec.toNat_ofNat]
  omega

theorem map_blocks (sectors : Nat) : (chunkLens 130560 (sectors * 512)).map
    (disk.transfer p block kind).blocks = chunkLens 255 sectors := by
  rw [show 130560 = 255 * 512 by decide, chunkLens_mul _ _ (by decide), map_map]
  exact map_id'' (fun n => Nat.mul_div_cancel n (by decide)) _

/-- The addresses below the limit are sent as they are. -/
theorem lba_starts (p : Profile) (disk : DiskATA) (block : U64) (kind : BufferKind)
    (h : ∀ k, 255 * k < kind.len / 512 → block.toNat + 255 * k < 2 ^ 48) :
    ∀ s ∈ starts ((chunkLens 130560 (kind.len / 512 * 512)).map (disk.transfer p block kind).blocks) 0,
      (disk.transfer p block kind).lba s = .ok (block.toNat + s) := by
  intro s hs
  rw [map_blocks] at hs
  obtain ⟨k, hk, rfl⟩ := (mem_starts_chunkLens (by decide) _ _ _).mp hs
  have hlt := h k hk
  rw [zero_add]
  exact (lbaOf_eq_ok fun _ => by omega).trans (by rw [mod_eq_of_lt hlt])

theorem sum_blocks (sectors : Nat) : ((chunkLens 130560 (sectors * 512)).map
    (disk.transfer p block kind).blocks).sum = sectors := by
  rw [map_blocks, sum_chunkLens]

theorem pos_of_mem {sectors n : Nat} (h : n ∈ chunkLens 130560 (sectors * 512)) :
    0 < (disk.transfer p block kind).blocks n := by
  have hmem := mem_map_of_mem (f := (disk.transfer p block kind).blocks) h
  rw [map_blocks] at hmem
  exact pos_of_mem_chunkLens (by decide) hmem

/-- The chunks are whole sectors. -/
theorem blocks_mul {sectors n : Nat} (h : n ∈ chunkLens 130560 (sectors * 512)) : n / 512 * 512 = n :=
  Nat.div_mul_cancel (dvd_of_mem_chunkLens (by decide) (Nat.dvd_mul_left _ _) h)

end DiskATA

end RedoxDrivers.Disk
