import Mathlib.Data.List.DropRight
import Mathlib.Data.List.Nodup
import Mathlib.Logic.Function.Basic

/-!
The symbols under which `acpid` shows the objects of the AML namespace (`amlserde/src/lib.rs` and
`acpid/src/acpi.rs`).

A symbol is a name without the underscores at the ends of its segments. They are removed one at
a time, wherever one stands in front of a dot, and then at the end. `symbols_faithful` says that
nothing else is removed: a name can be read back from its symbol.
-/

namespace RedoxDrivers.Acpid

open List Function

/-! ### Names -/

/-- Four characters. -/
@[ext]
structure NameSeg where
  chars : List Char
  length : chars.length = 4
  valid : ∀ c ∈ chars, c.isUpper ∨ c.isDigit ∨ c = '_'

/-- The segments of an absolute name that is not the root. -/
@[ext]
structure AmlName where
  segs : List NameSeg
  ne : segs ≠ []

def AmlName.asString (self : AmlName) : List Char :=
  '\\' :: ['.'].intercalate (self.segs.map NameSeg.chars)

/-- The name of a child, as `AmlName::from_name_seg(child_seg).resolve(level)` gives it. -/
def AmlName.resolve (childSeg : NameSeg) (level : List NameSeg) : AmlName :=
  ⟨level ++ [childSeg], by simp⟩

/-- `name.find("_.")`. -/
def find : List Char → Option Nat
  | [] => none
  | c :: rest => if c = '_' ∧ rest.head? = some '.' then some 0 else (find rest).map (· + 1)

theorem lt_of_find {name : List Char} {i : Nat} (h : find name = some i) : i < name.length := by
  induction name generalizing i with
  | nil => cases h
  | cons c rest ih =>
    rw [find] at h
    split at h
    · cases h
      exact Nat.zero_lt_succ _
    · obtain ⟨j, hj, rfl⟩ := Option.map_eq_some_iff.mp h
      exact Nat.succ_lt_succ (ih hj)

/-- The loop that removes an underscore before a dot. -/
def stripInner (name : List Char) : List Char :=
  match _h : find name with
  | none => name
  | some i => stripInner (name.eraseIdx i)
termination_by name.length
decreasing_by
  have hlt := lt_of_find ‹_›
  rw [length_eraseIdx_of_lt hlt]
  omega

def toSymbol (amlStyleName : List Char) : List Char :=
  (stripInner (amlStyleName.dropWhile (· == '\\'))).rdropWhile (· == '_')

/-! ### The cache -/

structure Level (AmlHandle : Type) where
  name : List NameSeg
  values : List (NameSeg × AmlHandle)
  distinct : (values.map Prod.fst).Nodup

/-- The levels of the namespace in the order of `traverse`. -/
structure Namespace (AmlHandle : Type) where
  levels : List (Level AmlHandle)
  distinct : (levels.map Level.name).Nodup

section Cache

variable {AmlHandle : Type} (ns : Namespace AmlHandle)

/-- The objects of the namespace. -/
def symbolList : List (AmlName × AmlHandle) :=
  ns.levels.flatMap fun level => level.values.map fun (childSeg, handle) =>
    (.resolve childSeg level.name, handle)

/-- `serialize` is `AmlSerde::from_aml` followed by `to_string_pretty`. -/
def buildCache (serialize : AmlName → AmlHandle → Option String) : List Char → Option String :=
  (symbolList ns).foldl (fun cache (amlName, handle) =>
    update cache (toSymbol amlName.asString) (some ((serialize amlName handle).getD "")))
    fun _ => none

end Cache

/-! ### What is removed -/

/-- A name without the underscores before its dots. -/
def squeeze : List Char → List Char
  | [] => []
  | c :: rest =>
    if c = '_' ∧ (squeeze rest).head? = some '.' then squeeze rest else c :: squeeze rest

section Strip

variable {name seg rest : List Char} {i : Nat}

theorem squeeze_dot (rest : List Char) : squeeze ('.' :: rest) = '.' :: squeeze rest :=
  if_neg fun h => absurd h.1 (by decide)

theorem squeeze_eraseIdx (h : find name = some i) : squeeze (name.eraseIdx i) = squeeze name := by
  induction name generalizing i with
  | nil => cases h
  | cons c rest ih =>
    rw [find] at h
    split at h
    · rename_i hdot
      cases h
      obtain ⟨tail, rfl⟩ := head?_eq_some_iff.mp hdot.2
      refine (if_pos ⟨hdot.1, ?_⟩).symm
      rw [squeeze_dot]
      rfl
    · obtain ⟨j, hj, rfl⟩ := Option.map_eq_some_iff.mp h
      rw [eraseIdx_cons_succ, squeeze, ih hj, squeeze]

theorem squeeze_of_find (h : find name = none) : squeeze name = name := by
  induction name with
  | nil => rfl
  | cons c rest ih =>
    rw [find] at h
    split at h
    · cases h
    · rw [squeeze, ih (Option.map_eq_none_iff.mp h)]
      exact if_neg ‹_›

/-- In whatever order the underscores are removed, the same remain. -/
theorem stripInner_eq (name : List Char) : stripInner name = squeeze name := by
  fun_induction stripInner name with
  | case1 name h => exact (squeeze_of_find h).symm
  | case2 name i h ih => rw [ih, squeeze_eraseIdx h]

theorem squeeze_of_not_mem (h : '.' ∉ seg) : squeeze seg = seg := by
  induction seg with
  | nil => rfl
  | cons c seg ih =>
    have hseg : '.' ∉ seg := fun hmem => h (mem_cons_of_mem c hmem)
    rw [squeeze, ih hseg]
    exact if_neg fun hdot => hseg (mem_of_head? hdot.2)

theorem rdropWhile_cons (p : Char → Bool) (c : Char) (l : List Char) : (c :: l).rdropWhile p =
      if p c = true ∧ l.rdropWhile p = [] then [] else c :: l.rdropWhile p := by
  rw [rdropWhile, reverse_cons, dropWhile_append, rdropWhile]
  by_cases hnil : dropWhile p l.reverse = []
  · by_cases hc : p c = true <;> simp [hnil, hc]
  · simp [hnil]

/-- A segment loses the underscores at its end. -/
theorem squeeze_append (h : '.' ∉ seg) (rest : List Char) :
    squeeze (seg ++ '.' :: rest) = seg.rdropWhile (· == '_') ++ '.' :: squeeze rest := by
  induction seg with
  | nil => exact squeeze_dot rest
  | cons c seg ih =>
    have hseg : '.' ∉ seg := fun hmem => h (mem_cons_of_mem c hmem)
    have hhead : (seg.rdropWhile (· == '_') ++ '.' :: squeeze rest).head? = some '.' ↔
        seg.rdropWhile (· == '_') = [] := by
      cases hdrop : seg.rdropWhile (· == '_') with
      | nil => simp
      | cons c' tail =>
        have hmem : c' ∈ seg := ( rdropWhile_prefix _ _).mem (hdrop ▸ mem_cons_self)
        simpa using fun heq : c' = '.' => hseg (heq ▸ hmem)
    rw [cons_append, squeeze, ih hseg, rdropWhile_cons]
    simp only [hhead, beq_iff_eq]
    split
    · rename_i hnil
      rw [hnil.2, nil_append]
    · rfl

theorem rdropWhile_append (p : Char → Bool) {c : Char} (hc : p c = false) (a b : List Char) :
    (a ++ c :: b).rdropWhile p = a ++ c :: b.rdropWhile p := by
  rw [rdropWhile, reverse_append, reverse_cons, append_assoc, singleton_append, dropWhile_append,
    dropWhile_cons_of_neg (by simp [hc]), rdropWhile]
  split <;> simp_all

/-- Every segment loses the underscores at its end. -/
theorem rdropWhile_squeeze {segs : List (List Char)} (h : ∀ seg ∈ segs, '.' ∉ seg) :
    (squeeze (['.'].intercalate segs)).rdropWhile (· == '_') =
      ['.'].intercalate (segs.map (rdropWhile (· == '_'))) := by
  induction segs with
  | nil => rfl
  | cons seg segs ih =>
    have hseg := h seg mem_cons_self
    cases segs with
    | nil => simp [squeeze_of_not_mem hseg]
    | cons seg' segs =>
      rw [map_cons, map_cons, intercalate_cons_cons, intercalate_cons_cons, append_assoc,
        append_assoc, singleton_append, singleton_append, squeeze_append hseg,
        rdropWhile_append _ rfl, ih fun seg' h' => h seg' (mem_cons_of_mem _ h'), map_cons]

end Strip

/-! ### Names and their symbols -/

/-- A segment, padded with underscores to four characters. -/
def pad (seg : List Char) : List Char := seg ++ replicate (4 - seg.length) '_'

theorem pad_rdropWhile {seg : List Char} (h : seg.length = 4) :
    pad (seg.rdropWhile (· == '_')) = seg := by
  have happend := rdropWhile_append_rtakeWhile (p := (· == '_')) (l := seg)
  have hrest : seg.rtakeWhile (· == '_') =
      replicate (4 - (seg.rdropWhile (· == '_')).length) '_' := by
    refine eq_replicate_iff.mpr ⟨?_, fun c hc => by simpa using mem_rtakeWhile_imp hc⟩
    have hlength := congrArg length happend
    rw [length_append, h] at hlength
    omega
  rw [pad, ← hrest, happend]

namespace AmlName

variable (self : AmlName)

theorem not_mem_of_mem_segs {seg : List Char} (h : seg ∈ self.segs.map NameSeg.chars) {c : Char}
    (hc : ¬ (c.isUpper ∨ c.isDigit ∨ c = '_')) : c ∉ seg := by
  obtain ⟨nameSeg, -, rfl⟩ := mem_map.mp h
  exact fun hmem => hc (nameSeg.valid c hmem)

/-- The backslash is the only one. -/
theorem dropWhile_asString : self.asString.dropWhile (· == '\\') =
    ['.'].intercalate (self.segs.map NameSeg.chars) := by
  obtain ⟨seg, segs, hsegs⟩ := exists_cons_of_ne_nil self.ne
  obtain ⟨c, chars, hseg⟩ := exists_cons_of_ne_nil (length_pos_iff.mp (by rw [seg.length]; decide))
  have hc : c ≠ '\\' := by
    rintro rfl
    exact absurd (seg.valid _ (hseg ▸ mem_cons_self)) (by decide)
  obtain ⟨tail, htail⟩ : ∃ tail, ['.'].intercalate (self.segs.map NameSeg.chars) = c :: tail := by
    rw [hsegs, map_cons, hseg]
    cases segs with
    | nil => exact ⟨_, intercalate_singleton⟩
    | cons => exact ⟨_, intercalate_cons_cons⟩
  rw [asString, dropWhile_cons_of_pos (by simp), htail, dropWhile_cons_of_neg (by simpa using hc)]

theorem toSymbol_asString : toSymbol self.asString =
    ['.'].intercalate ((self.segs.map NameSeg.chars).map (rdropWhile (· == '_'))) := by
  rw [toSymbol, dropWhile_asString, stripInner_eq]
  exact rdropWhile_squeeze fun seg hseg => self.not_mem_of_mem_segs hseg (by decide)

/-- The segments of a name, read back from its symbol. -/
theorem splitOn_toSymbol :
    ((toSymbol self.asString).splitOn '.').map pad = self.segs.map NameSeg.chars := by
  have hdots : ∀ seg ∈ (self.segs.map NameSeg.chars).map (rdropWhile (· == '_')), '.' ∉ seg := by
    intro seg hseg hmem
    obtain ⟨full, hfull, rfl⟩ := mem_map.mp hseg
    exact self.not_mem_of_mem_segs hfull (by decide) (( rdropWhile_prefix _ _).mem hmem)
  rw [toSymbol_asString, splitOn_intercalate '.' hdots (by simpa using self.ne), map_map]
  rw [map_map]
  exact map_congr_left fun seg _ => pad_rdropWhile seg.length

theorem toSymbol_injective : Injective fun name : AmlName => toSymbol name.asString := by
  intro name name' h
  have hsegs : name.segs.map NameSeg.chars = name'.segs.map NameSeg.chars := by
    rw [← splitOn_toSymbol, ← splitOn_toSymbol]
    exact congrArg (fun symbol => (symbol.splitOn '.').map pad) h
  exact AmlName.ext (map_injective_iff.mpr (fun _ _ => NameSeg.ext) hsegs)

end AmlName

section Cache

variable {AmlHandle : Type} {ns : Namespace AmlHandle}

/-- No two objects have the same name. -/
theorem nodup_names (ns : Namespace AmlHandle) : ((symbolList ns).map Prod.fst).Nodup := by
  rw [symbolList, map_flatMap, nodup_flatMap]
  have hresolve : ∀ {seg seg' : NameSeg} {name name' : List NameSeg},
      AmlName.resolve seg name = .resolve seg' name' → name = name' ∧ seg = seg' := by
    intro seg seg' name name' h
    obtain ⟨hname, hseg⟩ := append_inj' (congrArg AmlName.segs h) rfl
    exact ⟨hname, singleton_inj.mp hseg⟩
  constructor
  · intro level _
    rw [map_map]
    have hinj : Injective (AmlName.resolve · level.name) := fun _ _ h => (hresolve h).2
    have hmap := level.distinct.map hinj
    rwa [map_map] at hmap
  · refine (pairwise_map.mp ns.distinct).imp fun {level level'} hne name hname hname' => ?_
    simp only [map_map, mem_map] at hname hname'
    obtain ⟨_, -, rfl⟩ := hname
    obtain ⟨_, -, h⟩ := hname'
    exact hne (hresolve h).1.symm

theorem foldl_update_isSome {α : Type} (key : α → List Char) (value : α → String) (l : List α)
    (cache : List Char → Option String) (symbol : List Char) :
    (l.foldl (fun cache a => update cache (key a) (some (value a))) cache symbol).isSome ↔
      (cache symbol).isSome ∨ symbol ∈ l.map key := by
  induction l generalizing cache with
  | nil => simp
  | cons a l ih =>
    rw [foldl_cons, ih, map_cons, mem_cons]
    by_cases hsymbol : symbol = key a
    · subst hsymbol
      simp
    · rw [update_of_ne hsymbol, or_iff_right hsymbol]

/-- **Symbols.** A name is its symbol with every segment padded to four characters, so two names
have different symbols. The cache has one entry for each object of the namespace. -/
theorem symbols_faithful :
    (∀ name : AmlName, '\\' :: ['.'].intercalate (((toSymbol name.asString).splitOn '.').map pad) =
      name.asString) ∧
    (Injective fun name : AmlName => toSymbol name.asString) ∧
    ∀ {AmlHandle : Type} (ns : Namespace AmlHandle) serialize,
      ((symbolList ns).map fun object => toSymbol object.1.asString).Nodup ∧
      ∀ symbol, (buildCache ns serialize symbol).isSome ↔
        symbol ∈ (symbolList ns).map fun object => toSymbol object.1.asString := by
  refine ⟨fun name => ?_, AmlName.toSymbol_injective, fun ns serialize => ⟨?_, fun symbol => ?_⟩⟩
  · rw [name.splitOn_toSymbol]
    rfl
  · have hnodup := (nodup_names ns).map AmlName.toSymbol_injective
    rw [map_map] at hnodup
    exact hnodup
  · refine (foldl_update_isSome _ _ _ _ symbol).trans ?_
    simp

end Cache

end RedoxDrivers.Acpid
