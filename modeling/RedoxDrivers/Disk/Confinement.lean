import RedoxDrivers.Disk.Exclusive
import RedoxDrivers.Disk.Reach
import RedoxDrivers.Disk.VirtioBlk

/-!
Accesses to partitions.

A handle on a partition should give access to the blocks of the partition and no others. The
schemes check the first block of an access only, and `virtio-blkd` does not even do that; how many
blocks follow is decided below them. An access whose blocks are all in the partition, and can be
addressed, asks for blocks of the partition only (`confined_of_fits`), and so do the calls of a run
whose accesses all are of this kind (`partitions_confined`). A longer access runs into what follows
the partition (`read_past_partition`).
-/

namespace RedoxDrivers.Disk

open Lib Lib.Image List Option Nat BitVec DiskScheme Nvmed
open Act (Keeps Meets keeps_bind keeps_pure keeps_lift keeps_bind_of_meets meets_bind meets_lift
  bind_pure_state)

/-! ### The three drivers -/

namespace DiskScheme

variable {bound : Nat} {δ : Type} {drv : Driver δ Rig} {p : Profile} {s : DiskScheme bound δ Rig}
  {ok : Asked → Prop} {α : Type} {Q : α → Prop}

/-- The tables are those of `s`, and the commands since then are all such that `ok` holds. -/
structure Reached (ok : Asked → Prop) (s s' : DiskScheme bound δ Rig) : Prop where
  tables : SameTables s s'
  hardware : s.hardware.Extends ok s'.hardware

theorem meets_device {x : Act Rig α} (h : Meets (Rig.Extends ok s.hardware) x Q) :
    Meets (Reached ok s) (device x) Q := by
  intro s' hs'
  obtain ⟨hkeeps, hmeets⟩ := h s'.hardware hs'.hardware
  exact ⟨⟨hs'.tables, hkeeps⟩, hmeets⟩

theorem meets_handleOf (id : U64) :
    Meets (Reached ok s) (handleOf id) fun handle => s.handles.lookup id = some handle := by
  intro s' hs'
  refine ⟨hs', fun handle hhandle => ?_⟩
  rw [← hs'.tables.1]
  exact okOr_eq_ok.mp hhandle

theorem meets_diskOf (number : Nat) :
    Meets (Reached ok s) (diskOf number) fun disk => s.disks.get number = some disk := by
  intro s' hs'
  refine ⟨hs', fun disk hdisk => ?_⟩
  rw [← hs'.tables.2.1]
  exact okOr_eq_ok.mp hdisk

variable {number part : Nat} {disk : DiskWrapper δ} {offset id : U64}

/-- The handle is on this partition of this disk. -/
def OnPartition (s : DiskScheme bound δ Rig) (id : U64) (disk : DiskWrapper δ)
    (partition : Partition) : Prop :=
  ∃ number part, s.handles.lookup id = some (.partition number part) ∧
    s.disks.get number = some disk ∧ s.disks.partition number part = some partition

section

variable (reach : Reach drv)

/-- The block of an access relative to its partition. -/
def relBlock (s : DiskScheme bound δ Rig) (disk : DiskWrapper δ) (offset : U64) : Nat :=
  offset.toNat / reach.blockSize disk.inner s.hardware

theorem meets_locate (hdisk : s.disks.get number = some disk) :
    Meets (Reached ok s) (locate drv disk part offset) fun block =>
      ∃ partition, s.disks.partition number part = some partition ∧
        relBlock reach s disk offset < partition.size.toNat ∧
          block = partition.startLba + .ofNat 64 (relBlock reach s disk offset) := by
  refine meets_bind (meets_device (reach.meets_blockLength disk.inner _ _)) fun blksize hblk => ?_
  refine meets_bind (meets_lift fun _ h => h) fun rel hrel => ?_
  obtain ⟨-, rfl⟩ := div_eq_ok.mp (checked_eq_ok.mp hrel)
  refine meets_bind (meets_lift fun _ h => h) fun partition hpartition => ?_
  refine meets_lift fun block hblock => ?_
  obtain ⟨hlt, rfl⟩ := reach.absBlock_eq_ok _ _ _ hblock
  have hdiv : relBlock reach s disk offset = (offset / blksize).toNat := by
    rw [relBlock, ← hblk, toNat_udiv]
  refine ⟨partition, ?_, ?_, ?_⟩
  · obtain ⟨pt, hpt, hindex⟩ := bind_eq_ok.mp hpartition
    rw [Disks.partition, hdisk, bind_eq_bind, bind_some, okOr_eq_ok.mp hpt]
    exact okOr_eq_ok.mp hindex
  · rw [hdiv]
    exact hlt
  · rw [hdiv, ofNat_toNat, setWidth_eq]

/-- An access to a partition begins behind it, or its blocks are all in the partition and can be
addressed, unless the disk refuses it. -/
def FitsAt (s : DiskScheme bound δ Rig) (id : U64) (len : Nat) (offset : U64) (Taken : δ → Prop) : Prop :=
  ∀ disk partition, OnPartition s id disk partition → Taken disk.inner →
    let rel := relBlock reach s disk offset
    let span := reach.span disk.inner s.hardware len
    partition.size.toNat ≤ rel ∨
      (rel + span ≤ partition.size.toNat ∧ partition.startLba.toNat + rel < reach.limit disk.inner ∧
        partition.startLba.toNat + rel + span ≤ reach.limit disk.inner ∧
        reach.Orderly disk.inner s.hardware len)

def Fits (s : DiskScheme bound δ Rig) : Call → Prop
  | .read id buf offset => FitsAt reach s id buf.length offset fun _ => True
  | .write id buf offset => FitsAt reach s id buf.length offset reach.Writable
  | _ => True

/-- A command for blocks of the partition that the handle is on. -/
def InPartition (s : DiskScheme bound δ Rig) (id : U64) (a : Asked) : Prop :=
  ∃ disk partition, OnPartition s id disk partition ∧
    a.Within (reach.unit disk.inner) partition.startLba.toNat
      (partition.startLba.toNat + partition.size.toNat)

/-- If the handle is on a partition, then the commands between the states are for blocks of it. -/
def ConfinedTo (s s' : DiskScheme bound δ Rig) (id : U64) : Prop :=
  ∀ number part, s.handles.lookup id = some (.partition number part) →
    ∃ new, s'.hardware.asked = s.hardware.asked ++ new ∧ ∀ a ∈ new, InPartition reach s id a

/-- The call asks for blocks of the partition only, however it ends. -/
def Confined (p : Profile) (s : DiskScheme bound δ Rig) (call : Call) : Prop :=
  match call with
  | .read id _ _ => ConfinedTo reach s (perform drv p call s).2 id
  | .write id _ _ => ConfinedTo reach s (perform drv p call s).2 id
  | _ => True

/-- An access that fits has room where its first block is located. -/
theorem keeps_access {len : Nat} {Taken : δ → Prop} {x : δ → U64 → Act Rig α}
    (hopen : s.handles.lookup id = some (.partition number part))
    (hfits : FitsAt reach s id len offset Taken)
    (hx : ∀ disk block,
      (Taken disk → reach.Room s.hardware len (InPartition reach s id) disk block) →
        Keeps (Rig.Extends (InPartition reach s id) s.hardware) (x disk block)) :
    Keeps (Reached (InPartition reach s id) s) (diskOf number >>= fun disk =>
      locate drv disk part offset >>= fun block => device (x disk.inner block)) := by
  refine keeps_bind_of_meets (meets_diskOf number) fun disk hdisk => ?_
  refine keeps_bind_of_meets (meets_locate reach hdisk) fun block hblock => ?_
  obtain ⟨partition, hpartition, hlt, hblock⟩ := hblock
  have hon : OnPartition s id disk partition := ⟨number, part, hopen, hdisk, hpartition⟩
  refine (meets_device (Act.Keeps.meets (hx disk.inner block fun htaken => ?_))).keeps
  obtain ⟨hsize, haddr, hlimit, hord⟩ := (hfits disk partition hon htaken).resolve_left (by omega)
  have hmax := reach.limit_le disk.inner
  have hsum : block.toNat = partition.startLba.toNat + relBlock reach s disk offset := by
    rw [hblock, toNat_add, toNat_ofNat]
    omega
  refine ⟨fun a ha => ?_, by omega, hord⟩
  exact ⟨disk, partition, hon, ha.unit_eq, le_trans (by omega) ha.le_lba,
    le_trans ha.end_le (by omega)⟩

theorem confinedTo_of_keeps {x : Handle → Act (DiskScheme bound δ Rig) α}
    (hx : ∀ number part, s.handles.lookup id = some (.partition number part) →
      Keeps (Reached (InPartition reach s id) s) (x (.partition number part))) :
    ConfinedTo reach s ((handleOf id >>= x) s).2 id := by
  intro number part hopen
  have hkeeps : Keeps (Reached (InPartition reach s id) s) (handleOf id >>= x) := by
    refine keeps_bind_of_meets (meets_handleOf id) fun handle hhandle => ?_
    cases hopen.symm.trans hhandle
    exact hx number part hopen
  exact (hkeeps s ⟨⟨rfl, rfl, rfl⟩, rfl, [], by simp, by simp⟩).hardware.asked

/-- A call whose access fits is confined. -/
theorem confined_of_fits {call : Call} (hfits : Fits reach s call) : Confined reach p s call := by
  cases call with
  | read id buf offset =>
    rw [Fits] at hfits
    rw [Confined, perform, bind_pure_state]
    exact confinedTo_of_keeps reach fun number part hopen => keeps_access reach hopen hfits
      fun disk block room => reach.keeps_read disk _ _ block buf (room trivial)
  | write id buf offset =>
    rw [Fits] at hfits
    rw [Confined, perform, bind_pure_state]
    exact confinedTo_of_keeps reach fun number part hopen => keeps_access reach hopen hfits
      fun disk block room => reach.keeps_write disk _ _ block buf room
  | xopen | close | fsize | fstat | fpath => trivial

end

end DiskScheme

open VirtioBlk.DiskScheme

/-! ### `virtio-blkd` -/

namespace VirtioBlk

/-- The sectors that a request reaches. -/
def sectorsOf (size : Nat) : Nat := (size + 511) / 512

/-- The requests since `d` are all such that `ok` holds of them. -/
def Device.Extends (ok : Asked → Prop) (d dev : Device) : Prop :=
  ∃ new, dev.asked = d.asked ++ new ∧ ∀ a ∈ new, ok a

section Requests

variable {ok : Asked → Prop} {d : Device} {p : Profile} {sector : U64} {buf : List U8}

theorem Device.keeps_read (h : ok ⟨sector, buf.length % 2 ^ 32, false⟩) :
    Keeps (Device.Extends ok d) (Device.read p sector buf) := by
  have hallocate : Keeps (Device.Extends ok d) (Device.allocate buf.length) := by
    intro dev hdev
    unfold Device.allocate
    split
    all_goals exact hdev
  have haccept : Keeps (Device.Extends ok d) (Device.accept sector (buf.length % 2 ^ 32) false) := by
    rintro dev ⟨new, hnew, hall⟩
    refine ⟨new ++ [⟨sector, buf.length % 2 ^ 32, false⟩], ?_, ?_⟩
    · show dev.asked ++ _ = _
      rw [hnew, List.append_assoc]
    · intro a ha
      rcases mem_append.mp ha with ha | ha
      · exact hall a ha
      · rw [mem_singleton.mp ha]
        exact h
  have hsend : Keeps (Device.Extends ok d) (Device.sendIn sector buf.length) := by
    refine keeps_bind haccept fun served => ?_
    split
    · exact keeps_bind (Act.keeps_read _) fun _ => keeps_pure _
    · exact keeps_pure _
  refine keeps_bind hallocate fun _ => keeps_bind hsend fun answer => ?_
  refine keeps_bind (keeps_lift _) fun written => ?_
  split
  · exact keeps_lift _
  · split
    · exact keeps_lift _
    · exact keeps_pure _

end Requests

namespace DiskScheme

variable {p : Profile} {s : DiskScheme} {ok : Asked → Prop} {α : Type}

/-- The handle is on this partition. -/
def OnPartition (s : DiskScheme) (id : U64) (part : Partition) : Prop :=
  ∃ number pt, s.handles.lookup id = some (.partition number) ∧ s.partTable = some pt ∧
    pt.partitions[number]? = some part

/-- A read of a partition reaches no sector, or its sectors are all in the partition and can be
addressed. -/
def Fits (s : DiskScheme) : Call → Prop
  | .read id buf offset => ∀ part, OnPartition s id part →
      let rel := offset.toNat / 512
      let span := sectorsOf (buf.length % 2 ^ 32)
      span = 0 ∨ (rel + span ≤ part.size.toNat ∧ part.startLba.toNat + rel + span ≤ 2 ^ 64)
  | _ => True

/-- A request for no sector, or for sectors of the partition that the handle is on. -/
def InPartition (s : DiskScheme) (id : U64) (a : Asked) : Prop :=
  sectorsOf a.size = 0 ∨ ∃ part, OnPartition s id part ∧ part.startLba.toNat ≤ a.sector.toNat ∧
    a.sector.toNat + sectorsOf a.size ≤ part.startLba.toNat + part.size.toNat

def ConfinedTo (s s' : DiskScheme) (id : U64) : Prop :=
  ∀ number, s.handles.lookup id = some (.partition number) →
    ∃ new, s'.device.asked = s.device.asked ++ new ∧ ∀ a ∈ new, InPartition s id a

/-- The call asks for sectors of the partition only, however it ends. -/
def Confined (p : Profile) (s : DiskScheme) (call : Call) : Prop :=
  match call with
  | .read id _ _ => ConfinedTo s (perform p call s).2 id
  | .write id _ _ => ConfinedTo s (perform p call s).2 id
  | _ => True

/-- The tables are those of `s`, and the requests since then are all such that `ok` holds. -/
structure Reached (ok : Asked → Prop) (s s' : DiskScheme) : Prop where
  handles : s'.handles = s.handles
  partTable : s'.partTable = s.partTable
  device : s.device.Extends ok s'.device

theorem meets_handleOf (id : U64) :
    Meets (Reached ok s) (handleOf id) fun handle => s.handles.lookup id = some handle := by
  intro s' hs'
  refine ⟨hs', fun handle hhandle => ?_⟩
  rw [← hs'.handles]
  exact okOr_eq_ok.mp hhandle

theorem meets_partitionSector (number : Nat) (offset : U64) :
    Meets (Reached ok s) (partitionSector p number offset) fun sector =>
      ∃ pt part, s.partTable = some pt ∧ pt.partitions[number]? = some part ∧
        sector = part.startLba + offset / 512 := by
  have hread : Meets (Reached ok s) (Act.read fun s => s)
      fun s' => s'.partTable = s.partTable := by
    intro s' hs'
    refine ⟨hs', fun s'' heq => ?_⟩
    cases heq
    exact hs'.partTable
  refine meets_bind hread fun s' hs' => ?_
  refine meets_bind (meets_lift fun _ h => h) fun pt hpt => ?_
  refine meets_bind (meets_lift fun _ h => h) fun part hpart => ?_
  refine meets_lift fun sector hsector => ?_
  rw [← hs']
  exact ⟨pt, part, unwrap_eq_ok.mp (checked_eq_ok.mp hpt), okOr_eq_ok.mp hpart,
    (Profile.add_eq_ok.mp (checked_eq_ok.mp hsector)).2.symm⟩

theorem keeps_read_partition {id offset : U64} {buf : List U8} {number : Nat}
    (hopen : s.handles.lookup id = some (.partition number)) (hfits : Fits s (.read id buf offset)) :
    Keeps (Reached (InPartition s id) s) (read p id buf offset) := by
  refine keeps_bind_of_meets (meets_handleOf id) fun handle hhandle => ?_
  cases hopen.symm.trans hhandle
  refine keeps_bind_of_meets (meets_partitionSector number offset) fun sector hsector => ?_
  obtain ⟨pt, part, hpt, hpart, rfl⟩ := hsector
  refine fun s' hs' => ⟨hs'.handles, hs'.partTable, Device.keeps_read ?_ s'.device hs'.device⟩
  have hon : OnPartition s id part := ⟨number, pt, hopen, hpt, hpart⟩
  rcases Nat.eq_zero_or_pos (sectorsOf (buf.length % 2 ^ 32)) with hzero | hpos
  · exact .inl hzero
  · obtain ⟨hsize, hlimit⟩ := (hfits part hon).resolve_left (by omega)
    have hsum : (part.startLba + offset / 512).toNat =
        part.startLba.toNat + offset.toNat / 512 := by
      have hrel : (offset / 512).toNat = offset.toNat / 512 := toNat_udiv
      exact mod_eq_of_lt (by omega)
    refine .inr ⟨part, hon, ?_, ?_⟩
    · show _ ≤ (part.startLba + offset / 512).toNat
      omega
    · show (part.startLba + offset / 512).toNat + sectorsOf (buf.length % 2 ^ 32) ≤ _
      omega

theorem confined_of_fits {call : Call} (hfits : Fits s call) : Confined p s call := by
  cases call with
  | read =>
    intro number hopen
    rw [perform, bind_pure_state]
    exact (keeps_read_partition hopen hfits s ⟨rfl, rfl, [], by simp, by simp⟩).device
  | write =>
    -- Writing to a partition is not implemented.
    intro number hopen
    rw [perform, bind_pure_state, write, handleOf_bind hopen]
    exact ⟨[], by simp, by simp⟩
  | xopen | close | fsize | fstat | fpath => trivial

end DiskScheme

end VirtioBlk

/-! ### All four drivers -/

/-- **Confinement.** In every run of calls whose accesses to partitions fit, every command for a handle
on a partition is for blocks of this partition, on its disk. -/
theorem partitions_confined (p : Profile) : (∀ (s : Nvmed.DiskScheme) calls,
        Along (step (driver p) p) s (Fits (reach p)) calls →
          Along (step (driver p) p) s (Confined (reach p) p) calls) ∧
      (∀ (s : Ahcid.DiskScheme) calls,
        Along (step (Ahcid.driver p) p) s (Fits (Ahcid.reach p)) calls →
          Along (step (Ahcid.driver p) p) s (Confined (Ahcid.reach p) p) calls) ∧
      (∀ (s : Ided.DiskScheme) calls,
        Along (step (Ided.driver p) p) s (Fits (Ided.reach p)) calls →
          Along (step (Ided.driver p) p) s (Confined (Ided.reach p) p) calls) ∧
      ∀ (s : VirtioBlk.DiskScheme) calls,
        Along (step p) s Fits calls →
          Along (step p) s (Confined p) calls :=
  ⟨fun _ _ => Along.imp fun _ _ hfits => confined_of_fits _ hfits,
    fun _ _ => Along.imp fun _ _ hfits => confined_of_fits _ hfits,
    fun _ _ => Along.imp fun _ _ hfits => confined_of_fits _ hfits,
    fun _ _ => Along.imp fun _ _ hfits => confined_of_fits hfits⟩

/-- A disk with two partitions, of which the first is open. -/
def firstPartitionOpen : Nvmed.DiskScheme :=
  { twoPartitions with handles := AList.insert 0 (.partition 0 0) ∅, nextId := 1 }

/-- A read of the two blocks of a partition, in a run of one call. -/
theorem two_blocks_confined :
    Along (step (Nvmed.driver .release) .release) firstPartitionOpen
        (Fits (Nvmed.reach .release)) [.read 0 (List.replicate 1024 0) 0] ∧
      Along (step (Nvmed.driver .release) .release) firstPartitionOpen
        (Confined (Nvmed.reach .release) .release)
        [.read 0 (List.replicate 1024 0) 0] := by
  have hfits : Along (step (Nvmed.driver .release) .release) firstPartitionOpen
      (Fits (Nvmed.reach .release)) [.read 0 (List.replicate 1024 0) 0] := by
    refine along_cons.mpr ⟨?_, fun s _ => along_nil⟩
    rintro disk partition ⟨number, part, hopen, hdisk, hpartition⟩ -
    cases hopen
    cases hdisk
    cases hpartition
    refine .inr ⟨?_, ?_, ?_, trivial⟩
    all_goals decide +kernel
  exact ⟨hfits, (partitions_confined .release).1 _ _ hfits⟩

/-- A read of four blocks of a partition of two blocks runs into the other partition. -/
theorem read_past_partition :
    ¬ Confined (Nvmed.reach .release) .release firstPartitionOpen
      (.read 0 (List.replicate 2048 0) 0) := by
  intro h
  obtain ⟨new, hnew, hall⟩ := h 0 0 (by decide)
  have hasked : (perform (Nvmed.driver .release) .release
      (.read 0 (List.replicate 2048 0) 0) firstPartitionOpen).2.hardware.asked =
        [⟨0, 1, 4, false⟩] := by
    decide +kernel
  rw [hasked] at hnew
  have hmem : (⟨0, 1, 4, false⟩ : Asked) ∈ new := by
    rw [show new = [⟨0, 1, 4, false⟩] from hnew.symm]
    exact mem_singleton_self _
  obtain ⟨disk, partition, ⟨number, part, hopen, hdisk, hpartition⟩, hwithin⟩ := hall _ hmem
  cases hopen
  cases hpartition
  exact absurd hwithin.end_le (by decide)

end RedoxDrivers.Disk
