import RedoxDrivers.Disk.Drives

/-!
Exclusive opening of disks and partitions.

`check_locks` lets a disk or a partition be opened only if no open handle is on the same blocks.
The scheme's invariant is `Exclusive`: two open handles never overlap. It holds in every state
of every run (`exclusive_throughout`), whatever is opened, closed and accessed. No lock is left
behind: `xopen` fails with `ENOLCK` exactly while an overlapping handle is open.

Several handles can stand in the way of one call: while two partitions of a disk are open, both
have to be closed before the disk can be opened (`closing_one_is_not_enough`).
-/

namespace RedoxDrivers.Disk

open Lib AList List
open Act (Keeps keeps_bind keeps_pure keeps_lift bind_pure_state read_bind)

/-- The handles give access to the same blocks. -/
inductive Handle.Overlaps : Handle → Handle → Prop
  | disks (d : Nat) : Overlaps (.disk d) (.disk d)
  | diskPartition (d p : Nat) : Overlaps (.disk d) (.partition d p)
  | partitionDisk (d p : Nat) : Overlaps (.partition d p) (.disk d)
  | partitions (d p : Nat) : Overlaps (.partition d p) (.partition d p)

namespace Handle

variable {h t : Handle} {i p : Nat}

theorem Overlaps.symm (ht : h.Overlaps t) : t.Overlaps h := by
  cases ht with
  | disks d => exact .disks d
  | diskPartition d p => exact .partitionDisk d p
  | partitionDisk d p => exact .diskPartition d p
  | partitions d p => exact .partitions d p

theorem locks_none_iff : h.locks i none = true ↔ h.Overlaps (.disk i) := by
  constructor
  · intro hlocks
    cases h with
    | list => cases hlocks
    | disk number =>
      obtain rfl : i = number := by simpa [locks] using hlocks
      exact .disks i
    | partition disk part =>
      obtain rfl : i = disk := by simpa [locks] using hlocks
      exact .partitionDisk i part
  · intro ht
    cases ht with
    | disks | partitionDisk => simp [locks]

theorem locks_some_iff : h.locks i (some p) = true ↔ h.Overlaps (.partition i p) := by
  constructor
  · intro hlocks
    cases h with
    | list => cases hlocks
    | disk number =>
      obtain rfl : i = number := by simpa [locks] using hlocks
      exact .diskPartition i p
    | partition disk part =>
      obtain ⟨rfl, rfl⟩ : i = disk ∧ p = part := by simpa [locks] using hlocks
      exact .partitions i p
  · intro ht
    cases ht with
    | diskPartition | partitions => simp [locks]

end Handle

/-! ### The table of handles -/

/-- No two open handles overlap. -/
def Handles.Exclusive (handles : Handles) : Prop :=
  ∀ a b ha hb, a ≠ b → handles.lookup a = some ha → handles.lookup b = some hb → ¬ ha.Overlaps hb

namespace Handles

variable {handles : Handles} {t : Handle} {id : U64}

/-- No open handle overlaps with `t`. -/
def Free (handles : Handles) (t : Handle) : Prop :=
  ∀ id h, handles.lookup id = some h → ¬ h.Overlaps t

theorem checkLocks_cases {i : Nat} {part : Option Nat}
    (hlocks : ∀ h : Handle, h.locks i part = true ↔ h.Overlaps t) :
    (handles.checkLocks i part = .ok () ∧ handles.Free t) ∨
      (handles.checkLocks i part = .error .enolck ∧
        ∃ id h, handles.lookup id = some h ∧ h.Overlaps t) := by
  unfold checkLocks
  split
  · rename_i hany
    obtain ⟨⟨id, h⟩, hmem, hlock⟩ := any_eq_true.mp hany
    exact .inr ⟨rfl, id, h, mem_lookup_iff.mpr hmem, (hlocks h).mp hlock⟩
  · rename_i hany
    refine .inl ⟨rfl, fun id h hopen hover => hany ?_⟩
    exact any_eq_true.mpr ⟨⟨id, h⟩, mem_lookup_iff.mp hopen, (hlocks h).mpr hover⟩

/-- The lock test passes exactly if no open handle overlaps with what is to be opened. -/
theorem lockFor_cases (handles : Handles) (t : Handle) :
    (DiskScheme.lockFor handles t = .ok () ∧ handles.Free t) ∨
      (DiskScheme.lockFor handles t = .error .enolck ∧
        ∃ id h, handles.lookup id = some h ∧ h.Overlaps t) := by
  cases t with
  | list => exact .inl ⟨rfl, fun _ _ _ hover => by cases hover⟩
  | disk => exact checkLocks_cases fun _ => Handle.locks_none_iff
  | partition => exact checkLocks_cases fun _ => Handle.locks_some_iff

theorem exclusive_empty : Exclusive ∅ := by
  intro a b ha hb _ hopen
  cases hopen

theorem Exclusive.insert (hex : handles.Exclusive) (hfree : handles.Free t) (id : U64) :
    Exclusive (insert id t handles) := by
  intro a b ha hb hab hopena hopenb
  rcases eq_or_ne a id with rfl | hane
  · rw [lookup_insert] at hopena
    rw [lookup_insert_ne hab.symm] at hopenb
    cases hopena
    exact fun hover => hfree b hb hopenb hover.symm
  · rw [lookup_insert_ne hane] at hopena
    rcases eq_or_ne b id with rfl | hbne
    · rw [lookup_insert] at hopenb
      cases hopenb
      exact hfree a ha hopena
    · rw [lookup_insert_ne hbne] at hopenb
      exact hex a b ha hb hab hopena hopenb

theorem lookup_erase_eq_some {a : U64} {h : Handle} (hopen : (handles.erase id).lookup a = some h) :
    a ≠ id ∧ handles.lookup a = some h := by
  rcases eq_or_ne a id with rfl | hne
  · rw [lookup_erase] at hopen
    cases hopen
  · rw [lookup_erase_ne hne] at hopen
    exact ⟨hne, hopen⟩

end Handles

/-! ### What a call does to the table -/

namespace DiskScheme

variable {bound : Nat} {δ σ : Type} {drv : Driver δ σ} {p : Profile} {s s' : DiskScheme bound δ σ}
  {path : List Char} {flags : U64} {t : Handle} {call : Call}

/-- The three ways in which `xopen` goes on after the check of the uid. -/
theorem xopen_cases (p : Profile) (path : List Char) (flags : U64) (s : DiskScheme bound δ σ) :
    (∃ stop, resolve s.disks path flags = .error stop ∧
        xopen p path flags 0 s = (.error stop, s)) ∨
      (∃ t, resolve s.disks path flags = .ok t ∧
        (∃ id h, s.handles.lookup id = some h ∧ h.Overlaps t) ∧
          xopen p path flags 0 s = (.error (.errno .enolck), s)) ∨
        ∃ t, resolve s.disks path flags = .ok t ∧ s.handles.Free t ∧
          xopen p path flags 0 s = install p t s := by
  have hroot : xopen p path flags 0 s =
      (Act.lift (resolve s.disks path flags) >>= fun t =>
        Act.lift (propagate (lockFor s.handles t)) >>= fun _ => install p t) s := by
    rw [xopen, if_neg (by decide), read_bind]
  cases hresolve : resolve s.disks path flags with
  | error stop =>
    rw [hresolve] at hroot
    exact .inl ⟨stop, rfl, hroot⟩
  | ok t =>
    rw [hresolve, Act.lift_ok_bind] at hroot
    rcases Handles.lockFor_cases s.handles t with ⟨hlock, hfree⟩ | ⟨hlock, hover⟩
    · rw [hlock] at hroot
      exact .inr (.inr ⟨t, rfl, hfree, hroot⟩)
    · rw [hlock] at hroot
      exact .inr (.inl ⟨t, rfl, hover, hroot⟩)

/-- All ids have been given out, in a build that checks for it. -/
def Exhausted (p : Profile) (s : DiskScheme bound δ σ) : Prop :=
  p = .debug ∧ s.nextId = BitVec.allOnes 64

/-- A new handle is entered under the next id, unless the count of ids overflows. -/
theorem install_cases (p : Profile) (t : Handle) (s : DiskScheme bound δ σ) :
    (Exhausted p s ∧ install p t s = (.error (.panic .overflow), s)) ∨
      (¬ Exhausted p s ∧ install p t s = (.ok s.nextId,
        { s with nextId := s.nextId + 1, handles := s.handles.insert s.nextId t })) := by
  rcases Profile.add_one_cases p s.nextId with ⟨h, hadd⟩ | ⟨h, hadd⟩
  · refine .inl ⟨h, ?_⟩
    rw [install, read_bind, hadd]
    rfl
  · refine .inr ⟨h, ?_⟩
    rw [install, read_bind, hadd]
    rfl

/-- No two open handles of the scheme overlap. -/
def Exclusive (s : DiskScheme bound δ σ) : Prop := s.handles.Exclusive

/-- The scheme's own tables are as they were. -/
def SameTables (s s' : DiskScheme bound δ σ) : Prop :=
  s'.handles = s.handles ∧ s'.disks = s.disks ∧ s'.nextId = s.nextId

section Frame

variable {α : Type} {x : Act σ α} {r : DiskScheme bound δ σ}

theorem keeps_device (x : Act σ α) : Keeps (SameTables r) (device x) := fun _ h => h

theorem keeps_handleOf (id : U64) : Keeps (SameTables r) (handleOf id) :=
  keeps_bind (Act.keeps_read _) fun _ => keeps_lift _

theorem keeps_diskOf (number : Nat) : Keeps (SameTables r) (diskOf number) :=
  keeps_bind (Act.keeps_read _) fun _ => keeps_lift _

section

variable (drv : Driver δ σ)

theorem keeps_blockAt (disk : DiskWrapper δ) (offset : U64) :
    Keeps (SameTables r) (blockAt drv disk offset) :=
  keeps_bind (keeps_device _) fun _ => keeps_lift _

theorem keeps_locate (disk : DiskWrapper δ) (part : Nat) (offset : U64) :
    Keeps (SameTables r) (locate drv disk part offset) :=
  keeps_bind (keeps_device _) fun _ => keeps_bind (keeps_lift _) fun _ =>
    keeps_bind (keeps_lift _) fun _ => keeps_lift _

theorem keeps_read (id : U64) (buf : List U8) (offset : U64) :
    Keeps (SameTables r) (read drv id buf offset) := by
  refine keeps_bind (keeps_handleOf id) fun handle => ?_
  cases handle with
  | list => exact keeps_pure _
  | disk number =>
    exact keeps_bind (keeps_diskOf number) fun disk =>
      keeps_bind (keeps_blockAt drv disk offset) fun _ => keeps_device _
  | partition number part =>
    exact keeps_bind (keeps_diskOf number) fun disk =>
      keeps_bind (keeps_locate drv disk part offset) fun _ => keeps_device _

theorem keeps_write (id : U64) (buf : List U8) (offset : U64) :
    Keeps (SameTables r) (write drv id buf offset) := by
  refine keeps_bind (keeps_handleOf id) fun handle => ?_
  cases handle with
  | list => exact keeps_lift _
  | disk number =>
    exact keeps_bind (keeps_diskOf number) fun disk =>
      keeps_bind (keeps_blockAt drv disk offset) fun _ => keeps_device _
  | partition number part =>
    exact keeps_bind (keeps_diskOf number) fun disk =>
      keeps_bind (keeps_locate drv disk part offset) fun _ => keeps_device _

theorem keeps_fsize (p : Profile) (id : U64) : Keeps (SameTables r) (fsize drv p id) := by
  refine keeps_bind (keeps_handleOf id) fun handle => ?_
  cases handle with
  | list => exact keeps_pure _
  | disk number => exact keeps_bind (keeps_diskOf number) fun _ => keeps_device _
  | partition number =>
    exact keeps_bind (keeps_diskOf number) fun _ =>
      keeps_bind (keeps_lift _) fun _ =>
        keeps_bind (keeps_device _) fun _ => keeps_lift _

theorem keeps_fstat (id : U64) (stat : Stat) : Keeps (SameTables r) (fstat drv id stat) := by
  refine keeps_bind (keeps_handleOf id) fun handle => ?_
  cases handle with
  | list => exact keeps_pure _
  | disk number => exact keeps_bind (keeps_diskOf number) fun _ => keeps_device _
  | partition number =>
    exact keeps_bind (keeps_diskOf number) fun _ =>
      keeps_bind (keeps_lift _) fun _ => keeps_device _

end

theorem keeps_fpath (id : U64) (len : Nat) : Keeps (SameTables r) (fpath id len) :=
  keeps_bind (keeps_handleOf id) fun _ => keeps_bind (Act.keeps_read _) fun _ =>
    keeps_pure _

end Frame

theorem close_handles (id : U64) (s : DiskScheme bound δ σ) :
    (close id s).2.handles = s.handles.erase id ∧ (close id s).2.disks = s.disks ∧
      (close id s).2.nextId = s.nextId := by
  rw [close, read_bind, Act.bind_apply, Act.lift_apply]
  cases hopen : s.handles.lookup id with
  | none =>
    -- There is nothing to erase.
    have hmiss : s.handles.erase id = s.handles := by
      refine ext (kerase_of_notMem_keys fun hmem => ?_)
      exact lookup_eq_none.mp hopen hmem
    exact ⟨hmiss.symm, rfl, rfl⟩
  | some => exact ⟨rfl, rfl, rfl⟩

theorem xopen_handles (p : Profile) (path : List Char) (flags : U64) (uid : U32)
    (s : DiskScheme bound δ σ) : (xopen p path flags uid s).2.handles = s.handles ∨
      ∃ t id, s.handles.Free t ∧ (xopen p path flags uid s).2.handles = s.handles.insert id t := by
  rcases eq_or_ne uid 0 with rfl | huid
  · rcases xopen_cases p path flags s with ⟨stop, -, heq⟩ | ⟨t, -, -, heq⟩ | ⟨t, -, hfree, heq⟩
    · exact .inl (congrArg (fun r => r.2.handles) heq)
    · exact .inl (congrArg (fun r => r.2.handles) heq)
    · rw [heq]
      rcases install_cases p t s with ⟨-, heq⟩ | ⟨-, heq⟩
      · exact .inl (congrArg (fun r => r.2.handles) heq)
      · exact .inr ⟨t, s.nextId, hfree, congrArg (fun r => r.2.handles) heq⟩
  · rw [xopen, if_pos huid]
    exact .inl rfl

/-- What one call can do to the table of handles: nothing, enter a handle that overlaps with no
open one, or remove one. -/
theorem perform_handles (drv : Driver δ σ) (p : Profile) (call : Call) (s : DiskScheme bound δ σ) :
    (perform drv p call s).2.handles = s.handles ∨
      (∃ t id, s.handles.Free t ∧ (perform drv p call s).2.handles = s.handles.insert id t) ∨
        ∃ id, (perform drv p call s).2.handles = s.handles.erase id := by
  have hsame : SameTables s s := ⟨rfl, rfl, rfl⟩
  cases call with
  | xopen path flags uid =>
    rw [perform, bind_pure_state]
    exact (xopen_handles p path flags uid s).imp_right .inl
  | close id =>
    rw [perform, bind_pure_state]
    exact .inr (.inr ⟨id, (close_handles id s).1⟩)
  | read id buf offset =>
    rw [perform, bind_pure_state]
    exact .inl (keeps_read drv id buf offset s hsame).1
  | write id buf offset =>
    rw [perform, bind_pure_state]
    exact .inl (keeps_write drv id buf offset s hsame).1
  | fsize id =>
    rw [perform, bind_pure_state]
    exact .inl (keeps_fsize drv p id s hsame).1
  | fstat id stat =>
    rw [perform, bind_pure_state]
    exact .inl (keeps_fstat drv id stat s hsame).1
  | fpath id len =>
    rw [perform, bind_pure_state]
    exact .inl (keeps_fpath id len s hsame).1

theorem step_eq_some (h : step drv p s call = some s') : (perform drv p call s).2 = s' := by
  unfold step at h
  rcases hperform : perform drv p call s with ⟨stop | _, after⟩
  · rw [hperform] at h
    cases stop with
    | panic => cases h
    | errno =>
      cases h
      rfl
  · rw [hperform] at h
    cases h
    rfl

theorem exclusive_step (hex : s.Exclusive) (h : step drv p s call = some s') : s'.Exclusive := by
  rw [← step_eq_some h, Exclusive]
  rcases perform_handles drv p call s with heq | ⟨t, id, hfree, heq⟩ | ⟨id, heq⟩
  · rw [heq]
    exact hex
  · rw [heq]
    exact Handles.Exclusive.insert hex hfree id
  · rw [heq]
    exact fun a b ha hb hab hopena hopenb =>
      hex a b ha hb hab (Handles.lookup_erase_eq_some hopena).2
        (Handles.lookup_erase_eq_some hopenb).2

/-! ### Locks are given back -/

/-- The state after closing a number of handles. -/
def closeAll (ids : List U64) (s : DiskScheme bound δ σ) : DiskScheme bound δ σ :=
  ids.foldl (fun s id => (close id s).2) s

theorem closeAll_tables (ids : List U64) (s : DiskScheme bound δ σ) :
    (closeAll ids s).disks = s.disks ∧ (closeAll ids s).nextId = s.nextId ∧
      ∀ id h, (closeAll ids s).handles.lookup id = some h →
        id ∉ ids ∧ s.handles.lookup id = some h := by
  induction ids generalizing s with
  | nil => exact ⟨rfl, rfl, fun id h hopen => ⟨by simp, hopen⟩⟩
  | cons first ids ih =>
    obtain ⟨hhandles, hdisks, hnext⟩ := close_handles first s
    obtain ⟨ihdisks, ihnext, ihopen⟩ := ih (close first s).2
    refine ⟨ihdisks.trans hdisks, ihnext.trans hnext, fun id h hopen => ?_⟩
    obtain ⟨hrest, hlookup⟩ := ihopen id h hopen
    rw [hhandles] at hlookup
    obtain ⟨hne, hlookup⟩ := Handles.lookup_erase_eq_some hlookup
    exact ⟨by simp [hne, hrest], hlookup⟩

/-- A call returned the next id and entered `t` under it. -/
def Opened (s : DiskScheme bound δ σ) (t : Handle) (r : Except Stop U64 × DiskScheme bound δ σ) :
    Prop :=
  r.1 = .ok s.nextId ∧ r.2.handles.lookup s.nextId = some t

/-- The call to open `t` succeeds, as long as there are ids. -/
def Opens (p : Profile) (path : List Char) (flags : U64) (t : Handle) (s : DiskScheme bound δ σ) :
    Prop :=
  ¬ Exhausted p s → Opened s t (xopen p path flags 0 s)

theorem opened_install (hids : ¬ Exhausted p s) : Opened s t (install p t s) := by
  rcases install_cases p t s with ⟨hnone, -⟩ | ⟨-, hinstall⟩
  · exact absurd hnone hids
  · refine ⟨congrArg Prod.fst hinstall, ?_⟩
    have := congrArg (fun r => r.2.handles.lookup s.nextId) hinstall
    exact this.trans (lookup_insert _)

theorem opens_of_free (hresolve : resolve s.disks path flags = .ok t) (hfree : s.handles.Free t) :
    Opens p path flags t s := by
  intro hids
  rcases xopen_cases p path flags s with
    ⟨stop, herr, -⟩ | ⟨t', hok, ⟨id, h, hopen, hover⟩, -⟩ | ⟨t', hok, -, heq⟩
  · cases hresolve.symm.trans herr
  · cases hresolve.symm.trans hok
    exact absurd hover (hfree id h hopen)
  · cases hresolve.symm.trans hok
    rw [heq]
    exact opened_install hids

theorem free_closeAll {ids : List U64}
    (hall : ∀ id h, s.handles.lookup id = some h → h.Overlaps t → id ∈ ids) :
    (closeAll ids s).handles.Free t := by
  intro id h hopen hover
  obtain ⟨hnot, hlookup⟩ := (closeAll_tables ids s).2.2 id h hopen
  exact hnot (hall id h hlookup hover)

/-- If the whole disk is open, or a partition is to be opened, then a single handle is in the
way. -/
theorem overlapping_unique (hex : s.Exclusive) {a b : U64} {ha hb : Handle} {i : Nat}
    (hopena : s.handles.lookup a = some ha) (hopenb : s.handles.lookup b = some hb)
    (hovera : ha.Overlaps t) (hoverb : hb.Overlaps t)
    (hone : ha = .disk i ∨ ∃ q, t = .partition i q) : b = a := by
  by_contra hne
  refine hex b a hb ha hne hopenb hopena ?_
  rcases hone with rfl | ⟨q, rfl⟩
  · cases hovera with
    | disks =>
      cases hoverb with
      | disks => exact .disks _
      | partitionDisk => exact .partitionDisk _ _
    | diskPartition =>
      cases hoverb with
      | diskPartition => exact .disks _
      | partitions => exact .partitionDisk _ _
  · cases hovera with
    | diskPartition =>
      cases hoverb with
      | diskPartition => exact .disks _
      | partitions => exact .partitionDisk _ _
    | partitions =>
      cases hoverb with
      | diskPartition => exact .diskPartition _ _
      | partitions => exact .partitions _ _

/-- What `xopen` by uid 0 makes of a disk or partition that exists. -/
structure LocksAreExact (p : Profile) (s : DiskScheme bound δ σ) : Prop where
  /-- `ENOLCK` says that an overlapping handle is open. -/
  only : ∀ path flags, (xopen p path flags 0 s).1 = .error (.errno .enolck) →
    ∃ t id h, resolve s.disks path flags = .ok t ∧ s.handles.lookup id = some h ∧ h.Overlaps t
  /-- While one is open, the call fails so. -/
  busy : ∀ path flags t id h, resolve s.disks path flags = .ok t →
    s.handles.lookup id = some h → h.Overlaps t →
      (xopen p path flags 0 s).1 = .error (.errno .enolck)
  /-- Closing the overlapping handle makes the call succeed, if the handle is on the whole disk or
  the call is for a partition. -/
  one : ∀ path flags t id h, resolve s.disks path flags = .ok t →
    s.handles.lookup id = some h → h.Overlaps t → (∃ i, h = .disk i ∨ ∃ q, t = .partition i q) →
      Opens p path flags t (close id s).2
  /-- Closing all overlapping handles makes it succeed in any case. -/
  all : ∀ path flags t ids, resolve s.disks path flags = .ok t →
    (∀ id h, s.handles.lookup id = some h → h.Overlaps t → id ∈ ids) →
      Opens p path flags t (closeAll ids s)

/-- A path that stands for nothing does not make the call fail with `ENOLCK`. -/
theorem resolve_ne_enolck (disks : Disks bound δ) (path : List Char) (flags : U64) :
    resolve disks path flags ≠ .error (.errno .enolck) := by
  have hfails : FailsIn (· ≠ .errno .enolck) (resolve disks path flags) := by
    have hpanic : ∀ fault, Stop.panic fault ≠ .errno .enolck := fun fault h => by cases h
    unfold resolve
    dsimp only
    split
    · split
      · exact failsIn_ok _ _
      · exact failsIn_error (by decide)
    · split
      · refine failsIn_bind (failsIn_checked hpanic _) fun _ => ?_
        split
        · exact failsIn_error (by decide)
        · exact failsIn_bind (failsIn_checked hpanic _) fun _ =>
            failsIn_bind (failsIn_okOr (by decide) _) fun _ =>
              failsIn_bind (failsIn_okOr (by decide) _) fun _ =>
                failsIn_bind (failsIn_okOr (by decide) _) fun _ => failsIn_ok _ _
      · exact failsIn_bind (failsIn_okOr (by decide) _) fun _ =>
          failsIn_bind (failsIn_okOr (by decide) _) fun _ => failsIn_ok _ _
  intro herr
  exact hfails _ herr rfl

theorem locksAreExact (p : Profile) (hex : s.Exclusive) : LocksAreExact p s where
  only := by
    intro path flags herr
    rcases xopen_cases p path flags s with
      ⟨stop, hstop, heq⟩ | ⟨t, hok, ⟨id, h, hopen, hover⟩, -⟩ | ⟨t, hok, hfree, heq⟩
    · rw [heq] at herr
      cases herr
      exact absurd hstop (resolve_ne_enolck s.disks path flags)
    · exact ⟨t, id, h, hok, hopen, hover⟩
    · rw [heq] at herr
      rcases install_cases p t s with ⟨-, hinstall⟩ | ⟨-, hinstall⟩
      all_goals
        rw [hinstall] at herr
        cases herr
  busy := by
    intro path flags t id h hresolve hopen hover
    rcases xopen_cases p path flags s with ⟨stop, herr, -⟩ | ⟨t', -, -, heq⟩ | ⟨t', hok, hfree, -⟩
    · cases hresolve.symm.trans herr
    · exact congrArg Prod.fst heq
    · cases hresolve.symm.trans hok
      exact absurd hover (hfree id h hopen)
  one := by
    intro path flags t id h hresolve hopen hover ⟨i, hone⟩
    refine opens_of_free (s := closeAll [id] s) ?_ (free_closeAll fun b hb hopenb hoverb => ?_)
    · rw [(closeAll_tables [id] s).1]
      exact hresolve
    · rw [overlapping_unique hex hopen hopenb hover hoverb hone]
      exact mem_singleton_self id
  all := by
    intro path flags t ids hresolve hall
    refine opens_of_free ?_ (free_closeAll hall)
    rw [(closeAll_tables ids s).1]
    exact hresolve

/-- **Exclusive opening.** In every state of every run, no two open handles overlap, and locks
are held by open handles only. -/
theorem exclusive_throughout (drv : Driver δ σ) (p : Profile) (name : List Char)
    (disks : Disks bound δ) (hardware : σ) (calls : List Call) :
    Throughout (step drv p) (new name disks hardware)
      (fun s => s.Exclusive ∧ LocksAreExact p s) calls := by
  intro pre _ s hs
  have hstart : (new name disks hardware).Exclusive := Handles.exclusive_empty
  have hex : s.Exclusive := invariant_of_run hstart (fun _ _ _ hex h => exclusive_step hex h) hs
  exact ⟨hex, locksAreExact p hex⟩

/-! ### Two partitions of a disk -/

/-- A namespace of 8 blocks of 512 bytes. -/
def smallNamespace : NvmeNamespace := ⟨0, 8, 9, by decide, by decide⟩

/-- A disk with two partitions. -/
def twoPartitions : Nvmed.DiskScheme :=
  new ['d'] (Disks.ofSlice
    [⟨smallNamespace, some ⟨[⟨1, 2⟩, ⟨4, 2⟩], by decide⟩⟩] (by decide))
    ⟨fun _ => ⟨8, fun _ => 0⟩, fun _ _ => 0, fun _ => (0, 0), [], [], []⟩

/-- Closing any one of the overlapping handles makes the call succeed. -/
def ClosingOneIsEnough (p : Profile) (s : DiskScheme bound δ σ) : Prop :=
  ∀ path flags t id h, resolve s.disks path flags = .ok t → s.handles.lookup id = some h →
    h.Overlaps t → Opens p path flags t (close id s).2

/-- While both partitions are open, closing one of them does not make the disk available. -/
theorem closing_one_is_not_enough : ∃ s, run (step (Nvmed.driver .release) .release) twoPartitions
        [.xopen ['0', 'p', '0'] 0 0, .xopen ['0', 'p', '1'] 0 0] = some s ∧
      ¬ ClosingOneIsEnough .release s := by
  have hrun : (run (step (Nvmed.driver .release) .release) twoPartitions
      [.xopen ['0', 'p', '0'] 0 0, .xopen ['0', 'p', '1'] 0 0]).map
        (fun s => (s.handles.lookup 0, (resolve s.disks ['0'] 0).toOption,
          (xopen .release ['0'] 0 0 (close 0 s).2).1.toOption)) =
      some (some (.partition 0 0), some (.disk 0), none) := by
    decide +kernel
  obtain ⟨s, hs, hview⟩ := Option.map_eq_some_iff.mp hrun
  obtain ⟨hopen, hrest⟩ := Prod.mk.inj hview
  obtain ⟨hresolve, hfails⟩ := Prod.mk.inj hrest
  refine ⟨s, hs, fun hone => ?_⟩
  have hopens := hone ['0'] 0 (.disk 0) 0 (.partition 0 0) (toOption_eq_some.mp hresolve) hopen
    (.partitionDisk 0 0)
  obtain ⟨hok, -⟩ := hopens fun h => by cases h.1
  rw [hok] at hfails
  cases hfails

end DiskScheme

end RedoxDrivers.Disk
