import RedoxDrivers.Disk.Exclusive
import RedoxDrivers.Disk.VirtioBlk

/-!
The path language of the disk schemes.

A path is trimmed of slashes. `<i>` names disk `i` and `<i>p<p>` names partition `p` of disk `i`,
with decimal numerals; the empty path is the directory. `Names` says so, without reference to
the parser.

The parsers of `nvmed`, `ahcid` and `ided` look for the `p` by characters and cut the path there
by bytes. Text that is not ASCII in front of the `p` can make them cut inside a character, and
then they panic. Their numbers may have a plus sign. The parser of `virtio-blkd` panics on whatever
it does not find, and does not look at the number of the disk. `path_language` says for which paths
each of them keeps to the language, and that the names which the directory lists are such paths.
-/

namespace RedoxDrivers.Disk

open Lib Lib.Text Prod List Option

/-! ### The language -/

/-- A decimal numeral. -/
def Plain (s : List Char) (n : Nat) : Prop := IsNumeral s ∧ value s = n

/-- A decimal numeral, with or without a plus sign. -/
def Signed (s : List Char) (n : Nat) : Prop := ∃ ds, (s = ds ∨ s = '+' :: ds) ∧ Plain ds n

/-- What a trimmed path names, for a way to write numbers and the disks and partitions that
there are. -/
inductive Names (num : List Char → Nat → Prop) (has : Handle → Prop) : List Char → Handle → Prop
  | disk {text : List Char} {i : Nat} : num text i → has (.disk i) → Names num has text (.disk i)
  | partition {a b : List Char} {i p : Nat} : num a i → num b p → has (.partition i p) →
      Names num has (a ++ 'p' :: b) (.partition i p)

/-- The bytes at which the path is cut are between characters. -/
def Sliceable (text : List Char) : Prop :=
  ∀ n, position 'p' text = some n → IsBoundary text n ∧ (n + 1 < len text → IsBoundary text (n + 1))

section Numbers

variable {s : List Char} {n bound : Nat} {has : Handle → Prop}
  {text a b : List Char} {t t' : Handle}

theorem Plain.signed (h : Plain s n) : Signed s n := ⟨s, .inl rfl, h⟩

theorem signed_iff_parse (hbound : n < bound) : Signed s n ↔ parse bound s = some n := by
  rw [parse_eq_some (by omega)]
  constructor
  · rintro ⟨ds, hs, hds, hvalue⟩
    exact ⟨ds, hs, hds, hvalue, hbound⟩
  · rintro ⟨ds, hs, hds, hvalue, -⟩
    exact ⟨ds, hs, hds, hvalue⟩

theorem Signed.of_parse (h : parse bound s = some n) : Signed s n := by
  obtain ⟨ds, hs, hds, hvalue, -⟩ := (parse_eq_some (pos_of_parse h)).mp h
  exact ⟨ds, hs, hds, hvalue⟩

theorem Signed.not_mem (h : Signed s n) : 'p' ∉ s := by
  obtain ⟨ds, rfl | rfl, hds, -⟩ := h
  · exact hds.not_mem (by decide)
  · intro hmem
    rcases mem_cons.mp hmem with heq | hmem
    · exact absurd heq (by decide)
    · exact hds.not_mem (by decide) hmem

theorem Signed.ne_nil (h : Signed s n) : s ≠ [] := by
  obtain ⟨ds, rfl | rfl, hds, -⟩ := h
  · exact hds.1
  · exact cons_ne_nil _ _

theorem Signed.isAscii (h : Signed s n) : IsAscii s := by
  obtain ⟨ds, hs, hds, -⟩ := h
  have hdigits : IsAscii ds := fun c hc => utf8Size_of_isDigit (hds.2 c hc)
  rcases hs with rfl | rfl
  · exact hdigits
  · intro c hc
    rcases mem_cons.mp hc with rfl | hc
    · decide
    · exact hdigits c hc

theorem Signed.unique {m : Nat} (h : Signed s n) (h' : Signed s m) : n = m := by
  have hn := (signed_iff_parse (show n < n + m + 1 by omega)).mp h
  have hm := (signed_iff_parse (show m < n + m + 1 by omega)).mp h'
  exact some.inj (hn.symm.trans hm)

theorem Names.signed (h : Names Plain has text t) : Names Signed has text t := by
  cases h with
  | disk htext hdisk => exact .disk htext.signed hdisk
  | partition ha hb hpart => exact .partition ha.signed hb.signed hpart

theorem Names.ne_nil (h : Names Signed has text t) : text ≠ [] := by
  cases h with
  | disk htext => exact htext.ne_nil
  | partition => simp

/-- Where the first `p` of a named partition is. -/
theorem position_partition {i : Nat} (ha : Signed a i) (b : List Char) :
    position 'p' (a ++ 'p' :: b) = some a.length :=
  position_eq_some.mpr ⟨a, b, rfl, ha.not_mem, rfl⟩

/-- A path with a `p` names a partition, by the texts on the two sides of the first one. -/
theorem Names.partition_inv (ha : 'p' ∉ a) (h : Names Signed has (a ++ 'p' :: b) t) :
    ∃ i p, t = .partition i p ∧ Signed a i ∧ Signed b p ∧ has (.partition i p) := by
  generalize htext : a ++ 'p' :: b = text at h
  cases h with
  | disk hnum =>
    rw [← htext] at hnum
    exact absurd (by simp) hnum.not_mem
  | @partition a' b' i p ha' hb' hpart =>
    have hpos := position_partition ha' b'
    rw [← htext, position_eq_some.mpr ⟨a, b, rfl, ha, rfl⟩, some_inj] at hpos
    obtain ⟨rfl, hrest⟩ := append_inj htext hpos
    cases hrest
    exact ⟨i, p, rfl, ha', hb', hpart⟩

/-- A path names at most one thing. -/
theorem Names.unique (h : Names Signed has text t) (h' : Names Signed has text t') : t = t' := by
  cases h with
  | disk htext =>
    cases h' with
    | disk htext' => rw [htext.unique htext']
    | partition => exact absurd (by simp) htext.not_mem
  | partition ha hb =>
    obtain ⟨i, p, rfl, ha', hb', -⟩ := h'.partition_inv ha.not_mem
    rw [ha.unique ha', hb.unique hb']

end Numbers

/-! ### Cutting at the `p` -/

section Cuts

variable {pre post a : List Char} {n i bound : Nat}

/-- The path of a partition is cut where it should be. -/
theorem split_at_p (h : IsAscii pre) (post : List Char) :
    splitAtByte pre.length (pre ++ 'p' :: post) = some (pre, 'p' :: post) ∧
      splitAtByte (pre.length + 1) (pre ++ 'p' :: post) = some (pre ++ ['p'], post) := by
  refine ⟨splitAtByte_of_isAscii h, ?_⟩
  have hascii : IsAscii (pre ++ ['p']) := by
    intro c hc
    rcases mem_append.mp hc with hc | hc
    · exact h c hc
    · rw [mem_singleton.mp hc]
      decide
  have hsplit := splitAtByte_of_isAscii (b := post) hascii
  rwa [length_append, length_singleton, append_assoc, singleton_append] at hsplit

theorem len_of_ascii_pre (h : IsAscii pre) (post : List Char) :
    len (pre ++ 'p' :: post) = pre.length + 1 + len post := by
  have hp : ('p').utf8Size = 1 := by decide
  rw [len_append, len_of_isAscii h, len, hp, Nat.add_assoc]

end Cuts

/-! ### Keeping to the language -/

section Following

/-- A call to open a path keeps to the language. `opened t` says that the call has opened `t`, and
`free t` that `t` is not locked. -/
structure Follows (has : Handle → Prop) (text : List Char)
    (free opened : Handle → Prop) (result : Except Stop U64) : Prop where
  total : ¬ Panics result
  /-- A disk or partition is opened exactly by its names, unless it is locked. -/
  opens : ∀ t, (∀ entries, t ≠ .list entries) →
    (opened t ↔ Names Plain has text t ∧ free t)
  /-- A path that names nothing gives `ENOENT`. -/
  other : text ≠ [] → (∀ t, ¬ Names Plain has text t) → result = .error (.errno .enoent)

/-- What a path was taken for is right. -/
inductive Right (has : Handle → Prop) (text : List Char) (taken : Except Stop Handle) : Prop
  | directory : text = [] → Right has text taken
  | named (t : Handle) : Names Plain has text t → taken = .ok t →
      Right has text taken
  | unknown : (∀ t, ¬ Names Plain has text t) → taken = .error (.errno .enoent) →
      Right has text taken

/-- How a call to open a path ends, by what the path was taken for. -/
inductive Outcome (free opened : Handle → Prop) (exhausted : Prop) (taken : Except Stop Handle)
    (result : Except Stop U64) : Prop
  | refused (stop : Stop) : taken = .error stop → result = .error stop → (∀ t, ¬ opened t) →
      Outcome free opened exhausted taken result
  | locked (t : Handle) : taken = .ok t → ¬ free t → result = .error (.errno .enolck) →
      (∀ t, ¬ opened t) → Outcome free opened exhausted taken result
  | exhausted (t : Handle) : taken = .ok t → free t → exhausted →
      result = .error (.panic .overflow) → Outcome free opened exhausted taken result
  | opened (t : Handle) (id : U64) : taken = .ok t → free t → ¬ exhausted → result = .ok id →
      (∀ t', opened t' ↔ t' = t) → Outcome free opened exhausted taken result

variable {has : Handle → Prop} {text : List Char}
  {free opened : Handle → Prop} {exhausted : Prop} {taken : Except Stop Handle}
  {result : Except Stop U64} {t : Handle}

/-- A call that keeps to the language has taken the path for the right thing. -/
theorem Follows.right (h : Follows has text free opened result)
    (hout : Outcome free opened exhausted taken result)
    (hfinds : ∀ t, Names Plain has text t → taken = .ok t) :
    Right has text taken := by
  rcases eq_or_ne text [] with hempty | hne
  · exact .directory hempty
  · by_cases hnamed : ∃ t, Names Plain has text t
    · obtain ⟨t, ht⟩ := hnamed
      exact .named t ht (hfinds t ht)
    · have hnone : ∀ t, ¬ Names Plain has text t := fun t ht => hnamed ⟨t, ht⟩
      have henoent := h.other hne hnone
      cases hout with
      | refused stop htaken hresult =>
        cases henoent.symm.trans hresult
        exact .unknown hnone htaken
      | locked _ _ _ hresult | exhausted _ _ _ _ hresult | opened _ _ _ _ _ hresult =>
        cases henoent.symm.trans hresult

/-- What it means to take a path for the right thing. -/
theorem Right.spec (h : Right has text taken)
    (hempty : text = [] → (∃ entries, taken = .ok (.list entries)) ∨ taken = .error (.errno .eisdir)) :
    ¬ Panics taken ∧
      (∀ t, (∀ entries, t ≠ .list entries) →
        (taken = .ok t ↔ Names Plain has text t)) ∧
      (text ≠ [] → (∀ t, ¬ Names Plain has text t) →
        taken = .error (.errno .enoent)) := by
  cases h with
  | directory hnil =>
    have hnone : ∀ t, ¬ Names Plain has text t := fun t ht => ht.signed.ne_nil hnil
    rcases hempty hnil with ⟨entries, rfl⟩ | rfl
    · refine ⟨not_panics_ok _, fun t hne => iff_of_false ?_ (hnone t), absurd hnil⟩
      rintro ⟨⟩
      exact hne entries rfl
    · exact ⟨not_panics_errno _, fun t _ => iff_of_false nofun (hnone t), absurd hnil⟩
  | named t ht hok =>
    subst hok
    refine ⟨not_panics_ok _, fun t' _ => ⟨?_, fun ht' => ?_⟩, fun _ hnone => absurd ht (hnone t)⟩
    · rintro ⟨⟩
      exact ht
    · rw [ht.signed.unique ht'.signed]
  | unknown hnone herr =>
    subst herr
    exact ⟨not_panics_errno _, fun t _ => iff_of_false nofun (hnone t), fun _ _ => rfl⟩

/-- A call keeps to the language exactly if it takes the path for the right thing and does not
run out of ids. -/
theorem follows_iff_right (hout : Outcome free opened exhausted taken result)
    (hfinds : ∀ t, Names Plain has text t → taken = .ok t)
    (hempty : text = [] → (∃ entries, taken = .ok (.list entries)) ∨ taken = .error (.errno .eisdir)) :
    Follows has text free opened result ↔
      (exhausted → ∀ t, taken = .ok t → ¬ free t) ∧ Right has text taken := by
  constructor
  · intro h
    refine ⟨fun hexhausted t htaken hfree => ?_, h.right hout hfinds⟩
    cases hout with
    | refused stop htaken' => cases htaken.symm.trans htaken'
    | locked t' htaken' hlocked =>
      cases htaken.symm.trans htaken'
      exact hlocked hfree
    | exhausted t' _ _ _ hresult => exact h.total ⟨_, hresult⟩
    | opened t' id _ _ hids => exact hids hexhausted
  · rintro ⟨hids, hright⟩
    obtain ⟨htotal, hnames, henoent⟩ := hright.spec hempty
    cases hout with
    | refused stop htaken hresult hclosed =>
      subst htaken hresult
      refine ⟨fun ⟨fault, hfault⟩ => htotal ⟨fault, by cases hfault; rfl⟩, fun t hne => ?_,
        fun hne hnone => by cases henoent hne hnone; rfl⟩
      exact iff_of_false (hclosed t) fun h => nomatch (hnames t hne).mpr h.1
    | locked t htaken hlocked hresult hclosed =>
      subst htaken hresult
      refine ⟨not_panics_errno _, fun t' hne => iff_of_false (hclosed t') ?_,
        fun hne hnone => nomatch henoent hne hnone⟩
      rintro ⟨ht', hfree⟩
      cases (hnames t' hne).mpr ht'
      exact hlocked hfree
    | exhausted t htaken hfree hexhausted => exact absurd hfree (hids hexhausted t htaken)
    | opened t id htaken hfree _ hresult hopened =>
      subst htaken hresult
      refine ⟨not_panics_ok _, fun t' hne => ?_, fun hne hnone => nomatch henoent hne hnone⟩
      rw [hopened t', ← hnames t' hne, Except.ok.injEq, eq_comm]
      refine (and_iff_left_of_imp ?_).symm
      rintro rfl
      exact hfree

/-- The same by what there is to be opened: the directory, for a caller that may have it, or a
thing that is not locked. -/
theorem follows_iff_openable {dir : Prop} (hout : Outcome free opened exhausted taken result)
    (hfinds : ∀ t, Names Plain has text t → taken = .ok t)
    (hempty : text = [] → (dir ∧ ∃ entries, taken = .ok (.list entries)) ∨
      ¬ dir ∧ taken = .error (.errno .eisdir)) (hlist : ∀ entries, free (.list entries)) :
    Follows has text free opened result ↔
      (exhausted → ¬ ((text = [] ∧ dir) ∨ ∃ t, Names Plain has text t ∧ free t)) ∧
        Right has text taken := by
  rw [follows_iff_right hout hfinds fun h => (hempty h).imp And.right And.right]
  refine and_congr_left fun hright => imp_congr_right fun _ => ?_
  constructor
  · rintro h (⟨hnil, hdir⟩ | ⟨t, ht, hfree⟩)
    · rcases hempty hnil with ⟨-, entries, hok⟩ | ⟨hnot, -⟩
      · exact h _ hok (hlist entries)
      · exact hnot hdir
    · exact h t (hfinds t ht) hfree
  · intro h t hok hfree
    cases hright with
    | directory hnil =>
      rcases hempty hnil with ⟨hdir, -⟩ | ⟨-, herr⟩
      · exact h (.inl ⟨hnil, hdir⟩)
      · cases hok.symm.trans herr
    | named t' ht' hok' =>
      cases hok.symm.trans hok'
      exact h (.inr ⟨t, ht', hfree⟩)
    | unknown _ herr => cases hok.symm.trans herr

end Following

/-! ### The three drivers -/

namespace Disks

variable {bound : Nat} {δ : Type}

/-- The disks and partitions that there are. -/
def Has (disks : Disks bound δ) : Handle → Prop
  | .disk i => (disks.get i).isSome = true
  | .partition i p => (disks.partition i p).isSome = true
  | .list _ => False

variable {disks : Disks bound δ} {i p : Nat}

theorem Has.disk_lt (h : disks.Has (.disk i)) : i < bound :=
  disks.lt_bound i (AList.lookup_isSome.mp h)

theorem Has.partition_lt (h : disks.Has (.partition i p)) : i < bound ∧ p < 2 ^ 32 := by
  obtain ⟨part, hpart⟩ := isSome_iff_exists.mp h
  obtain ⟨disk, hdisk, hrest⟩ := bind_eq_some_iff.mp hpart
  obtain ⟨pt, -, hindex⟩ := bind_eq_some_iff.mp hrest
  have hlen := (List.getElem?_eq_some_iff.mp hindex).1
  exact ⟨Has.disk_lt (isSome_iff_exists.mpr ⟨disk, hdisk⟩), Nat.lt_of_lt_of_le hlen pt.length_le⟩

end Disks

namespace DiskScheme

variable {bound : Nat} {δ σ : Type} {disks : Disks bound δ} {path : List Char} {flags : U64}
  {t : Handle} {n : Nat} {text : List Char}

/-- A cut inside a character panics. -/
theorem resolvePartition_panics (disks : Disks bound δ)
    (hbad : IsBoundary text n → n + 1 < len text ∧ ¬ IsBoundary text (n + 1)) :
    Panics (resolvePartition disks text n) := by
  rw [isBoundary_iff, isBoundary_iff] at hbad
  unfold resolvePartition
  cases hcut : splitAtByte n text with
  | none =>
    refine ⟨.outOfBounds, ?_⟩
    rw [sliceTo, hcut]
    rfl
  | some ab =>
    obtain ⟨hlen, hcut'⟩ := hbad ⟨ab.1, ab.2, hcut⟩
    have hto : sliceTo text n = .ok ab.1 := sliceTo_eq_ok.mpr ⟨ab.2, hcut⟩
    rw [hto, checked_ok, ok_bind, if_neg (by omega)]
    cases hcut'' : splitAtByte (n + 1) text with
    | none =>
      have hfrom : sliceFrom text (n + 1) = .error .outOfBounds := by
        rw [sliceFrom, hcut'']
      rw [hfrom]
      exact ⟨.outOfBounds, rfl⟩
    | some cd => exact absurd ⟨cd.1, cd.2, hcut''⟩ hcut'

/-- `resolve` is exact, for a way to read numbers with a plus sign. -/
def Exact (disks : Disks bound δ) (text : List Char) (result : Except Stop Handle) : Prop :=
  (∃ t, Names Signed disks.Has text t ∧ result = .ok t) ∨
    (∀ t, ¬ Names Signed disks.Has text t) ∧ result = .error (.errno .enoent)

theorem exact_of_iff {result : Except Stop Handle}
    (hok : ∀ t, result = .ok t ↔ Names Signed disks.Has text t)
    (hfails : FailsIn (Stop.errno .enoent = ·) result) : Exact disks text result := by
  cases result with
  | ok t => exact .inl ⟨t, (hok t).mp rfl, rfl⟩
  | error stop => exact .inr ⟨fun t ht => (nomatch (hok t).mpr ht), by rw [← hfails stop rfl]⟩

theorem resolveDisk_exact (disks : Disks bound δ) (hpos : position 'p' text = none) :
    Exact disks text (resolveDisk disks text) := by
  refine exact_of_iff (fun t => ?_) (failsIn_bind (failsIn_okOr rfl _) fun _ =>
    failsIn_bind (failsIn_okOr rfl _) fun _ => failsIn_ok _ _)
  simp only [resolveDisk, bind_eq_ok, okOr_eq_ok]
  constructor
  · rintro ⟨i, hparse, disk, hget, ⟨⟩⟩
    exact .disk (Signed.of_parse hparse) (isSome_iff_exists.mpr ⟨disk, hget⟩)
  · intro h
    cases h with
    | disk htext hdisk =>
      obtain ⟨disk, hget⟩ := isSome_iff_exists.mp hdisk
      exact ⟨_, (signed_iff_parse hdisk.disk_lt).mp htext, disk, hget, rfl⟩
    | partition => exact absurd (by simp) (position_eq_none.mp hpos)

theorem resolvePartition_exact (disks : Disks bound δ) (hpos : position 'p' text = some n)
    (hslice : Sliceable text) : Exact disks text (resolvePartition disks text n) := by
  obtain ⟨hfirst, hsecond⟩ := hslice n hpos
  obtain ⟨pre, post, rfl, hpre, rfl⟩ := position_eq_some.mp hpos
  obtain ⟨a, rest, hcut⟩ := isBoundary_iff.mp hfirst
  unfold resolvePartition
  rw [sliceTo_eq_ok.mpr ⟨rest, hcut⟩, checked_ok, ok_bind]
  split
  · rename_i hlen
    refine .inr ⟨fun t ht => ?_, rfl⟩
    obtain ⟨i, p, -, ha, hb, -⟩ := ht.partition_inv hpre
    have := len_pos hb.ne_nil
    rw [len_of_ascii_pre ha.isAscii] at hlen
    omega
  · obtain ⟨c, b, hcut'⟩ := isBoundary_iff.mp (hsecond (by omega))
    rw [sliceFrom_eq_ok.mpr ⟨c, hcut'⟩, checked_ok, ok_bind]
    -- If there is a number in front of the `p`, then the two cuts are where they should be.
    have hcuts : ∀ i, Signed pre i → a = pre ∧ b = post := by
      intro i hi
      obtain ⟨h, h'⟩ := split_at_p hi.isAscii post
      cases hcut.symm.trans h
      cases hcut'.symm.trans h'
      exact ⟨rfl, rfl⟩
    refine exact_of_iff (fun t => ?_) (failsIn_bind (failsIn_okOr rfl _) fun _ =>
      failsIn_bind (failsIn_okOr rfl _) fun _ => failsIn_bind (failsIn_okOr rfl _) fun _ =>
        failsIn_ok _ _)
    simp only [bind_eq_ok, okOr_eq_ok]
    constructor
    · rintro ⟨i, hi, p, hp, part, hpart, ⟨⟩⟩
      obtain ⟨heq, hlen⟩ := splitAtByte_eq_some hcut
      rw [len_of_isAscii (Signed.of_parse hi).isAscii] at hlen
      obtain rfl := (append_inj heq.symm hlen).1
      obtain ⟨-, rfl⟩ := hcuts i (Signed.of_parse hi)
      exact .partition (Signed.of_parse hi) (Signed.of_parse hp) (isSome_iff_exists.mpr ⟨part, hpart⟩)
    · intro ht
      obtain ⟨i, p, rfl, ha, hb, hpart⟩ := ht.partition_inv hpre
      obtain ⟨rfl, rfl⟩ := hcuts i ha
      obtain ⟨part, hget⟩ := isSome_iff_exists.mp hpart
      exact ⟨i, (signed_iff_parse hpart.partition_lt.1).mp ha, p,
        (signed_iff_parse hpart.partition_lt.2).mp hb, part, hget, rfl⟩

theorem resolve_exact (disks : Disks bound δ) (flags : U64) (hne : trimMatches '/' path ≠ [])
    (hslice : Sliceable (trimMatches '/' path)) :
    Exact disks (trimMatches '/' path) (resolve disks path flags) := by
  rw [resolve, if_neg hne]
  cases hpos : position 'p' (trimMatches '/' path) with
  | none => exact resolveDisk_exact disks hpos
  | some => exact resolvePartition_exact disks hpos hslice

/-- A caller may have the directory. -/
def MayList (flags : U64) : Prop := flags &&& O_DIRECTORY = O_DIRECTORY ∨ flags &&& O_STAT = O_STAT

theorem sliceable_of_names {has : Handle → Prop}
    (h : Names Signed has text t) : Sliceable text := by
  intro n hpos
  cases h with
  | disk htext =>
    rw [position_eq_none.mpr htext.not_mem] at hpos
    cases hpos
  | @partition a b i p ha =>
    rw [position_partition ha b] at hpos
    cases hpos
    obtain ⟨hfirst, hsecond⟩ := split_at_p ha.isAscii b
    exact ⟨isBoundary_iff.mpr ⟨_, _, hfirst⟩, fun _ => isBoundary_iff.mpr ⟨_, _, hsecond⟩⟩

/-- The parser finds what the path names, also if it is named with a plus sign. -/
theorem resolve_of_names (flags : U64) (h : Names Signed disks.Has (trimMatches '/' path) t) :
    resolve disks path flags = .ok t := by
  rcases resolve_exact disks flags h.ne_nil (sliceable_of_names h) with ⟨t', ht', hok⟩ | ⟨hnone, -⟩
  · rw [hok, ht'.unique h]
  · exact absurd h (hnone t)

/-- The paths that the three drivers take for the right thing. -/
def InLanguage (disks : Disks bound δ) (text : List Char) : Prop :=
  text = [] ∨ (Sliceable text ∧ ∀ t, Names Signed disks.Has text t →
    Names Plain disks.Has text t)

theorem right_iff (disks : Disks bound δ) (path : List Char) (flags : U64) :
    Right disks.Has (trimMatches '/' path) (resolve disks path flags) ↔
      InLanguage disks (trimMatches '/' path) := by
  constructor
  · intro hright
    cases hright with
    | directory hnil => exact .inl hnil
    | named t ht =>
      refine .inr ⟨sliceable_of_names ht.signed, fun t' ht' => ?_⟩
      rw [ht'.unique ht.signed]
      exact ht
    | unknown hnone herr =>
      by_cases hnil : trimMatches '/' path = []
      · exact .inl hnil
      · refine .inr ⟨?_, fun t ht => ?_⟩
        · by_contra hbad
          unfold Sliceable at hbad
          push Not at hbad
          obtain ⟨n, hpos, hbad⟩ := hbad
          rw [resolve, if_neg hnil, hpos] at herr
          obtain ⟨fault, hfault⟩ := resolvePartition_panics disks hbad
          cases herr.symm.trans hfault
        · cases herr.symm.trans (resolve_of_names flags ht)
  · rintro (hnil | ⟨hslice, hplain⟩)
    · exact .directory hnil
    · by_cases hnil : trimMatches '/' path = []
      · exact .directory hnil
      · rcases resolve_exact disks flags hnil hslice with ⟨t, ht, hok⟩ | ⟨hnone, herr⟩
        · exact .named t (hplain t ht) hok
        · exact .unknown (fun t ht => hnone t ht.signed) herr

section Follows

variable {p : Profile} {s : DiskScheme bound δ σ}

section

variable (p : Profile) (path : List Char) (flags : U64) (s : DiskScheme bound δ σ)

theorem xopen_outcome :
    Outcome s.handles.Free (fun t => Opened s t (xopen p path flags 0 s)) (Exhausted p s)
      (resolve s.disks path flags) (xopen p path flags 0 s).1 := by
  have hclosed : ∀ {stop}, xopen p path flags 0 s = (.error stop, s) →
      ∀ t, ¬ Opened s t (xopen p path flags 0 s) := by
    intro stop heq t h
    cases h.1.symm.trans (congrArg fst heq)
  rcases xopen_cases p path flags s with ⟨stop, htaken, heq⟩ | ⟨t, htaken, ⟨id, h, hopen, hover⟩, heq⟩ |
    ⟨t, htaken, hfree, heq⟩
  · exact .refused stop htaken (congrArg fst heq) (hclosed heq)
  · exact .locked t htaken (fun hfree => hfree id h hopen hover) (congrArg fst heq) (hclosed heq)
  · by_cases hids : Exhausted p s
    · rcases install_cases p t s with ⟨-, hinstall⟩ | ⟨hids', -⟩
      · exact .exhausted t htaken hfree hids (congrArg fst (heq.trans hinstall))
      · exact absurd hids hids'
    · have hopened : Opened s t (xopen p path flags 0 s) := by
        rw [heq]
        exact opened_install hids
      refine .opened t s.nextId htaken hfree hids hopened.1 fun t' =>
        ⟨fun h => some.inj (h.2.symm.trans hopened.2), ?_⟩
      rintro rfl
      exact hopened

/-- `xopen` by uid 0 keeps to the path language, for one path in one state. -/
abbrev FollowsNames : Prop :=
  Follows s.disks.Has (trimMatches '/' path) s.handles.Free
    (fun t => Opened s t (xopen p path flags 0 s)) (xopen p path flags 0 s).1

/-- There is something to be opened: the directory for a caller that may have it, or a disk or
partition that is not locked. -/
def Openable (flags : U64) (text : List Char) (s : DiskScheme bound δ σ) : Prop :=
  (text = [] ∧ (flags &&& O_DIRECTORY = O_DIRECTORY ∨ flags &&& O_STAT = O_STAT)) ∨
    ∃ t, Names Plain s.disks.Has text t ∧ s.handles.Free t

/-- The three drivers keep to the language exactly for the paths that they take for the right
thing, as long as there are ids. -/
theorem follows_iff : FollowsNames p path flags s ↔
      (Exhausted p s → ¬ Openable flags (trimMatches '/' path) s) ∧
        InLanguage s.disks (trimMatches '/' path) := by
  rw [← right_iff s.disks path flags]
  refine follows_iff_openable (xopen_outcome p path flags s)
    (fun t ht => resolve_of_names flags ht.signed) (fun hempty => ?_) ?_
  · rw [resolve, if_pos hempty]
    split
    · exact .inl ⟨‹_›, _, rfl⟩
    · exact .inr ⟨‹_›, rfl⟩
  · rintro entries id h - hover
    cases hover

end

end Follows

/-! ### The directory -/

theorem plain_decimal (n : Nat) : Plain (decimal n) n := ⟨isNumeral_decimal n, value_decimal n⟩

/-- A name is not changed by trimming. -/
theorem trimMatches_of_names {text : List Char} {has : Handle → Prop}
    (h : Names Plain has text t) : '\n' ∉ text ∧ trimMatches '/' text = text := by
  have hnum : ∀ {c : Char} {s : List Char} {n : Nat}, ¬ c.isDigit = true → Plain s n → c ∉ s :=
    fun hc hs => hs.1.not_mem hc
  have hmem : ∀ c : Char, ¬ c.isDigit = true → c ≠ 'p' → c ∉ text := by
    intro c hc hp
    cases h with
    | disk htext => exact hnum hc htext
    | partition ha hb =>
      simp only [mem_append, mem_cons, not_or]
      exact ⟨hnum hc ha, hp, hnum hc hb⟩
  exact ⟨hmem '\n' (by decide) (by decide), trimMatches_of_not_mem (hmem '/' (by decide) (by decide))⟩

theorem names_named {disks : Disks bound δ} {i : Nat} {disk : DiskWrapper δ} {line : List Char}
    (hget : disks.get i = some disk) (hline : line ∈ names i disk) :
    ∃ t, Names Plain disks.Has line t := by
  have hdisk : disks.Has (.disk i) := by
    rw [Disks.Has, hget]
    rfl
  rcases mem_cons.mp hline with rfl | hpart
  · exact ⟨.disk i, .disk (plain_decimal i) hdisk⟩
  · cases hpt : disk.pt with
    | none =>
      rw [hpt] at hpart
      cases hpart
    | some =>
      rw [hpt] at hpart
      obtain ⟨q, hq, rfl⟩ := mem_map.mp hpart
      have hhas : disks.Has (.partition i q) := by
        rw [Disks.Has, Disks.partition, hget, bind_eq_bind, bind_some, hpt,
          bind_eq_bind, bind_some, getElem?_eq_getElem (mem_range.mp hq)]
        rfl
      exact ⟨.partition i q, .partition (plain_decimal i) (plain_decimal q) hhas⟩

/-- Every line of the directory names a disk or a partition. -/
theorem listing_named {disks : Disks bound δ} {line : List Char} (h : line ∈ lines (listing disks)) :
    ∃ t, Names Plain disks.Has line t := by
  have hall : ∀ l ∈ disks.table.entries.flatMap fun entry => names entry.1 entry.2,
      ∃ t, Names Plain disks.Has l t := by
    intro l hl
    obtain ⟨entry, hentry, hmem⟩ := mem_flatMap.mp hl
    exact names_named (AList.mem_lookup_iff.mpr hentry) hmem
  rw [listing, ← flatMap_assoc, lines_flatMap fun l hl =>
    (trimMatches_of_names (hall l hl).choose_spec).1] at h
  exact hall line h

end DiskScheme

open VirtioBlk.DiskScheme

/-! ### `virtio-blkd` -/

namespace VirtioBlk

open Disk.DiskScheme (O_DIRECTORY O_STAT plain_decimal trimMatches_of_names)

/-- What a handle is on, for the one disk with number 0. -/
def Handle.name : Handle → Disk.Handle
  | .disk => .disk 0
  | .partition number => .partition 0 number
  | .list entries => .list entries

namespace DiskScheme

/-- The disk and the partitions that there are. -/
def Has (partTable : Option PartitionTable) : Disk.Handle → Prop
  | .disk i => i = 0
  | .partition i p => i = 0 ∧ ∃ pt, partTable = some pt ∧ p < pt.partitions.length
  | .list _ => False

/-- The `p` is at the end, for a count that may fall short of the bytes in front of it. -/
def Dangling (text : List Char) : Prop :=
  ∃ n, position 'p' text = some n ∧ IsBoundary text n ∧ len text ≤ n + 1

variable {p : Profile} {path : List Char} {flags : U64} {s : DiskScheme}
  {partTable : Option PartitionTable} {t : Disk.Handle}

/-- What the parser takes a path for. -/
def taken (partTable : Option PartitionTable) (path : List Char) (flags : U64) :
    Except Stop Disk.Handle :=
  (resolve partTable path flags).map Handle.name

theorem resolve_of_names (flags : U64) (h : Names Plain (Has partTable) (trimMatches '/' path) t) :
    taken partTable path flags = .ok t := by
  have hne := h.signed.ne_nil
  rw [taken, resolve, if_neg hne]
  generalize trimMatches '/' path = text at h
  cases h with
  | disk htext hdisk =>
    cases hdisk
    have hparse := (signed_iff_parse (show 0 < 2 ^ 32 by decide)).mp htext.signed
    rw [position_eq_none.mpr htext.signed.not_mem]
    simp only [resolveDisk, hparse]
    rfl
  | @partition a b i q ha hb hpart =>
    obtain ⟨rfl, pt, rfl, hlt⟩ := hpart
    obtain ⟨hfirst, hsecond⟩ := split_at_p ha.signed.isAscii b
    have hlen := len_of_ascii_pre ha.signed.isAscii b
    have hpos := len_pos hb.signed.ne_nil
    have hparse := (signed_iff_parse (Nat.lt_of_lt_of_le hlt pt.length_le)).mp hb.signed
    rw [position_partition ha.signed b]
    simp only [resolvePartition, sliceTo_eq_ok.mpr ⟨_, hfirst⟩, sliceFrom_eq_ok.mpr ⟨_, hsecond⟩,
      checked_ok, ok_bind, if_neg (show ¬ len (a ++ 'p' :: b) ≤ a.length + 1 by omega), hparse,
      unwrap, getElem?_eq_getElem hlt]
    rfl

section

variable (partTable : Option PartitionTable)

/-- The only error code for a path that is not empty is for a `p` at the end. -/
theorem taken_enoent_iff (flags : U64) (hne : trimMatches '/' path ≠ []) :
    taken partTable path flags = .error (.errno .enoent) ↔ Dangling (trimMatches '/' path) := by
  have hmap : ∀ x : Except Stop Handle,
      x.map Handle.name = .error (.errno .enoent) ↔ x = .error (.errno .enoent) := by
    intro x
    cases x with
    | error | ok => simp [Except.map]
  rw [taken, hmap, resolve, if_neg hne, Dangling]
  cases position 'p' (trimMatches '/' path) with
  | none =>
    refine iff_of_false (fun herr => ?_) nofun
    simp only [resolveDisk, bind_eq_error, checked_ne_errno, false_or] at herr
    obtain ⟨nsid, -, herr⟩ := herr
    split at herr <;> cases herr
  | some n =>
    simp only [resolvePartition, bind_eq_error, checked_ne_errno, false_or, checked_eq_ok,
      sliceTo_eq_ok, some_inj, exists_eq_left', isBoundary_iff]
    constructor
    · rintro ⟨a, hcut, herr⟩
      refine ⟨⟨a, hcut⟩, ?_⟩
      by_contra hlen
      simp [if_neg hlen, bind_eq_error] at herr
    · rintro ⟨⟨a, hcut⟩, hlen⟩
      exact ⟨a, hcut, if_pos hlen⟩

/-- The paths that `virtio-blkd` takes for the right thing. -/
def InLanguage (text : List Char) : Prop :=
  text = [] ∨ (∃ t, Names Plain (Has partTable) text t) ∨ Dangling text

theorem right_iff (path : List Char) (flags : U64) :
    Right (Has partTable) (trimMatches '/' path) (taken partTable path flags) ↔
      InLanguage partTable (trimMatches '/' path) := by
  constructor
  · intro hright
    cases hright with
    | directory hnil => exact .inl hnil
    | named t ht => exact .inr (.inl ⟨t, ht⟩)
    | unknown _ herr =>
      by_cases hnil : trimMatches '/' path = []
      · exact .inl hnil
      · exact .inr (.inr ((taken_enoent_iff _ flags hnil).mp herr))
  · rintro (hnil | ⟨t, ht⟩ | hdangling)
    · exact .directory hnil
    · exact .named t ht (resolve_of_names flags ht)
    · by_cases hnil : trimMatches '/' path = []
      · exact .directory hnil
      · have herr := (taken_enoent_iff partTable flags hnil).mpr hdangling
        refine .unknown (fun t ht => ?_) herr
        cases herr.symm.trans (resolve_of_names flags ht)

/-- All ids have been given out, in a build that checks for it. -/
def Exhausted (p : Profile) (s : DiskScheme) : Prop := p = .debug ∧ s.nextId = BitVec.allOnes 64

/-- A call returned the next id and entered a handle on `t` under it. -/
def Opened (s : DiskScheme) (t : Disk.Handle) (r : Except Stop U64 × DiskScheme) : Prop :=
  r.1 = .ok s.nextId ∧ ∃ h, r.2.handles.lookup s.nextId = some h ∧ h.name = t

/-- `xopen` keeps to the path language, for one path in one state. Nothing is locked. -/
abbrev FollowsNames (p : Profile) (path : List Char) (flags : U64) (s : DiskScheme) : Prop :=
  Follows (Has s.partTable) (trimMatches '/' path) (fun _ => True)
    (fun t => Opened s t (xopen p path flags s)) (xopen p path flags s).1

theorem xopen_outcome (p : Profile) (path : List Char) (flags : U64) (s : DiskScheme) :
    Outcome (fun _ => True) (fun t => Opened s t (xopen p path flags s)) (Exhausted p s)
      (taken s.partTable path flags) (xopen p path flags s).1 := by
  unfold taken
  cases hresolve : resolve s.partTable path flags with
  | error stop =>
    have heq : xopen p path flags s = (.error stop, s) := by
      rw [xopen, Act.read_bind, hresolve]
      rfl
    refine .refused stop rfl (congrArg fst heq) fun t h => ?_
    cases h.1.symm.trans (congrArg fst heq)
  | ok h =>
    rcases Profile.add_one_cases p s.nextId with ⟨hids, hadd⟩ | ⟨hids, hadd⟩
    · refine .exhausted h.name rfl trivial hids ?_
      rw [xopen, Act.read_bind, hresolve, Act.lift_ok_bind, hadd]
      rfl
    · have heq : xopen p path flags s = (.ok s.nextId,
          { s with nextId := s.nextId + 1, handles := s.handles.insert s.nextId h }) := by
        rw [xopen, Act.read_bind, hresolve, Act.lift_ok_bind, hadd]
        rfl
      refine .opened h.name s.nextId rfl trivial hids (congrArg fst heq) fun t => ?_
      rw [heq]
      constructor
      · rintro ⟨-, h', hlookup, rfl⟩
        rw [AList.lookup_insert, some_inj] at hlookup
        rw [hlookup]
      · rintro rfl
        exact ⟨rfl, h, AList.lookup_insert _, rfl⟩

def Openable (flags : U64) (text : List Char) (s : DiskScheme) : Prop :=
  (text = [] ∧ (flags &&& O_DIRECTORY = O_DIRECTORY ∨ flags &&& O_STAT = O_STAT)) ∨
    ∃ t, Names Plain (Has s.partTable) text t

theorem taken_of_empty (flags : U64) (h : trimMatches '/' path = []) :
    (Disk.DiskScheme.MayList flags ∧ ∃ entries, taken partTable path flags = .ok (.list entries)) ∨
      ¬ Disk.DiskScheme.MayList flags ∧ taken partTable path flags = .error (.errno .eisdir) := by
  rw [taken, resolve, if_pos h]
  split
  · exact .inl ⟨‹_›, _, rfl⟩
  · exact .inr ⟨‹_›, rfl⟩

end

theorem follows_iff (p : Profile) (path : List Char) (flags : U64) (s : DiskScheme) :
    FollowsNames p path flags s ↔
      (Exhausted p s → ¬ Openable flags (trimMatches '/' path) s) ∧
        InLanguage s.partTable (trimMatches '/' path) := by
  rw [← right_iff s.partTable path flags, FollowsNames, follows_iff_openable
    (xopen_outcome p path flags s) (fun t => resolve_of_names flags)
    (taken_of_empty s.partTable flags) fun _ => trivial]
  simp only [and_true]
  rfl

theorem listing_named {line : List Char} (h : line ∈ lines (listing partTable)) :
    ∃ t, Names Plain (Has partTable) line t := by
  have hall : ∀ l ∈ names partTable, ∃ t, Names Plain (Has partTable) l t := by
    intro l hl
    rcases mem_cons.mp hl with rfl | hpart
    · exact ⟨.disk 0, .disk (plain_decimal 0) rfl⟩
    · cases partTable with
      | none => cases hpart
      | some pt =>
        obtain ⟨q, hq, rfl⟩ := mem_map.mp hpart
        exact ⟨.partition 0 q, .partition (plain_decimal 0) (plain_decimal q)
          ⟨rfl, pt, rfl, mem_range.mp hq⟩⟩
  rw [listing, lines_flatMap fun l hl => (trimMatches_of_names (hall l hl).choose_spec).1] at h
  exact hall line h

end DiskScheme

end VirtioBlk

/-! ### All four drivers -/

/-- **The path language.** For each of the drivers, the paths for which `xopen` keeps to the language,
and the lines of the directory are such paths. -/
theorem path_language {bound : Nat} {δ σ : Type} (p : Profile) (flags : U64) :
    (∀ (path : List Char) (s : DiskScheme bound δ σ), DiskScheme.FollowsNames p path flags s ↔
        (s.Exhausted p → ¬ s.Openable flags (trimMatches '/' path)) ∧
          DiskScheme.InLanguage s.disks (trimMatches '/' path)) ∧
      (∀ (path : List Char) (s : VirtioBlk.DiskScheme),
        FollowsNames p path flags s ↔
          (s.Exhausted p → ¬ s.Openable flags (trimMatches '/' path)) ∧
            InLanguage s.partTable (trimMatches '/' path)) ∧
      (∀ s : DiskScheme bound δ σ, ∀ line ∈ lines (DiskScheme.listing s.disks),
        (∃ t, Names Plain s.disks.Has line t) ∧
          (¬ s.Exhausted p → DiskScheme.FollowsNames p line flags s)) ∧
      ∀ s : VirtioBlk.DiskScheme, ∀ line ∈ lines (listing s.partTable),
        (∃ t, Names Plain (Has s.partTable) line t) ∧ (¬ s.Exhausted p → FollowsNames p line flags s) := by
  refine ⟨fun path s => DiskScheme.follows_iff p path flags s,
    fun path s => follows_iff p path flags s, fun s line hline => ?_,
    fun s line hline => ?_⟩
  · obtain ⟨t, ht⟩ := DiskScheme.listing_named hline
    refine ⟨⟨t, ht⟩, fun hids => ?_⟩
    rw [DiskScheme.follows_iff, (DiskScheme.trimMatches_of_names ht).2]
    refine ⟨fun h => absurd h hids, .inr ⟨DiskScheme.sliceable_of_names ht.signed, fun t' ht' => ?_⟩⟩
    rw [ht'.unique ht.signed]
    exact ht
  · obtain ⟨t, ht⟩ := listing_named hline
    refine ⟨⟨t, ht⟩, fun hids => ?_⟩
    rw [follows_iff, (DiskScheme.trimMatches_of_names ht).2]
    exact ⟨fun h => absurd h hids, .inr (.inl ⟨t, ht⟩)⟩

/-- `nvmed` panics on a path whose first `p` stands behind a character of two bytes. -/
theorem accented_path_panics :
    ¬ DiskScheme.FollowsNames .release ['é', 'p', '1'] 0 DiskScheme.twoPartitions := by
  intro h
  have hpanic : Panics (DiskScheme.xopen .release ['é', 'p', '1'] 0 0 DiskScheme.twoPartitions).1 := by
    decide +kernel
  exact h.total hpanic

end RedoxDrivers.Disk
