import RedoxDrivers.Lib.Rust

/-!
Walks over records that say their own length.

A buffer of records is read by a function that looks at the rest of the buffer and
yields a record and how far it is to the next one. The walk starts at the front and
goes on until no record is found. Two things can go wrong when the distance comes from
the data: it is 0 and the walk does not move, or it is less than what was read of the
record, so that bytes are read twice.

`walk_ok_iff_strides`: the walk ends, and reads no byte twice, exactly if every record
that is followed by another one says a length that covers it.
-/

namespace RedoxDrivers.Lib

open List

variable {α β : Type}

/-- A record and where it was found. -/
structure Located (α : Type) where
  offset : Nat
  value : α
deriving DecidableEq, Repr

/-- The records from offset `i` on, for at most `fuel` rounds. Each round takes the slice
of the buffer from the offset on. -/
def walk (next : List β → Option (α × Nat)) (data : List β) :
    Nat → Nat → Except Fault (List (Located α))
  | 0, _ => .error .diverges
  | fuel + 1, i =>
    if data.length < i then .error .outOfBounds
    else
      match next (data.drop i) with
      | none => .ok []
      | some (a, len) => do
        let rest ← walk next data fuel (i + len)
        return ⟨i, a⟩ :: rest

/-- The walk gets from one offset to the other. -/
inductive Reaches (next : List β → Option (α × Nat)) (data : List β) : Nat → Nat → Prop where
  | refl (i : Nat) : Reaches next data i i
  | step {i j len : Nat} {a : α} : next (data.drop i) = some (a, len) →
      Reaches next data (i + len) j → Reaches next data i j

/-- A record that is followed by another one covers what is read of it. -/
def Strides (next : List β → Option (α × Nat)) (size : α → Nat) (data : List β) (i : Nat) : Prop :=
  ∀ j a len, Reaches next data i j → next (data.drop j) = some (a, len) →
    (next (data.drop (j + len))).isSome → size a ≤ len

/-- The records were read in order and apart from each other. -/
def Apart (size : α → Nat) (records : List (Located α)) : Prop :=
  records.Pairwise fun r r' => r.offset + size r.value ≤ r'.offset

section Walk

variable {next : List β → Option (α × Nat)} {size : α → Nat} {data : List β} {i : Nat}
  {records : List (Located α)} {fuel len : Nat} {a : α}

theorem walk_none (hi : i ≤ data.length) (hnext : next (data.drop i) = none) :
    walk next data (fuel + 1) i = .ok [] := by
  rw [walk, if_neg (Nat.not_lt.mpr hi), hnext]

theorem walk_some (hi : i ≤ data.length) (hnext : next (data.drop i) = some (a, len)) :
    walk next data (fuel + 1) i =
      (do let rest ← walk next data fuel (i + len); return ⟨i, a⟩ :: rest) := by
  rw [walk, if_neg (Nat.not_lt.mpr hi), hnext]

/-- With strides that cover the records the walk ends. The measure is what is left of the
buffer; it shrinks because a record that is followed by another one has a size. -/
theorem walk_of_strides (within : ∀ bs a len, next bs = some (a, len) → len ≤ bs.length)
    (size_pos : ∀ a, 0 < size a) (h : Strides next size data i) (hi : i ≤ data.length)
    (enough : data.length - i + 2 ≤ fuel) :
    ∃ records, walk next data fuel i = .ok records ∧ Apart size records ∧
      ∀ r ∈ records, i ≤ r.offset := by
  induction fuel generalizing i with
  | zero => omega
  | succ fuel ih =>
    cases hnext : next (data.drop i) with
    | none => exact ⟨[], walk_none hi hnext, .nil, nofun⟩
    | some found =>
      obtain ⟨a, len⟩ := found
      have hlen : i + len ≤ data.length := by
        have := within _ _ _ hnext
        rw [length_drop] at this
        omega
      cases hmore : next (data.drop (i + len)) with
      | none =>
        obtain ⟨fuel, rfl⟩ : ∃ k, fuel = k + 1 := ⟨fuel - 1, by omega⟩
        refine ⟨[⟨i, a⟩], ?_, pairwise_singleton _ _, ?_⟩
        · rw [walk_some hi hnext, walk_none hlen hmore]
          rfl
        · intro r hr
          obtain rfl := mem_singleton.mp hr
          exact Nat.le_refl i
      | some more =>
        have hcover : size a ≤ len := h i a len (.refl i) hnext (by rw [hmore]; rfl)
        have hpos := size_pos a
        obtain ⟨rest, hrest, hapart, hfrom⟩ := ih (fun j a' len' hj => h j a' len' (.step hnext hj))
          hlen (by omega)
        refine ⟨⟨i, a⟩ :: rest, ?_, ?_, ?_⟩
        · rw [walk_some hi hnext, hrest]
          rfl
        · refine pairwise_cons.mpr ⟨fun r hr => ?_, hapart⟩
          exact Nat.le_trans (Nat.add_le_add_left hcover i) (hfrom r hr)
        · intro r hr
          rcases mem_cons.mp hr with rfl | hr
          · exact Nat.le_refl i
          · exact Nat.le_trans (Nat.le_add_right i len) (hfrom r hr)

/-- A walk that finds a record starts its list with it. -/
theorem walk_ok_cons (h : walk next data fuel i = .ok records)
    (hnext : next (data.drop i) = some (a, len)) :
    ∃ fuel' rest, walk next data fuel' (i + len) = .ok rest ∧ records = ⟨i, a⟩ :: rest := by
  cases fuel with
  | zero => cases h
  | succ fuel =>
    rw [walk] at h
    split at h
    · cases h
    · rw [hnext] at h
      obtain ⟨rest, hrest, hcons⟩ := bind_eq_ok.mp h
      cases hcons
      exact ⟨fuel, rest, hrest, rfl⟩

theorem strides_of_walk (h : walk next data fuel i = .ok records) (hapart : Apart size records) :
    Strides next size data i := by
  intro j a len hreach
  induction hreach generalizing fuel records with
  | refl =>
    intro hnext hmore
    obtain ⟨fuel', rest, hrest, rfl⟩ := walk_ok_cons h hnext
    obtain ⟨⟨a', len'⟩, hmore⟩ := Option.isSome_iff_exists.mp hmore
    obtain ⟨-, rest', -, rfl⟩ := walk_ok_cons hrest hmore
    have := (pairwise_cons.mp hapart).1 _ mem_cons_self
    exact Nat.add_le_add_iff_left.mp this
  | step hnext _ ih =>
    obtain ⟨fuel', rest, hrest, rfl⟩ := walk_ok_cons h hnext
    exact ih hrest (pairwise_cons.mp hapart).2

/-- A record of length 0 is found again and again. -/
theorem walk_stuck (hi : i ≤ data.length) (hnext : next (data.drop i) = some (a, 0)) (fuel : Nat) :
    walk next data fuel i = .error .diverges := by
  induction fuel with
  | zero => rfl
  | succ fuel ih =>
    rw [walk_some hi hnext, Nat.add_zero, ih]
    rfl

/-- **Walks.** A walk over a buffer ends and reads its records apart from each other
exactly if each record that is followed by another one says a length that covers it. -/
theorem walk_ok_iff_strides (within : ∀ bs a len, next bs = some (a, len) → len ≤ bs.length)
    (size_pos : ∀ a, 0 < size a) :
    (∃ fuel records, walk next data fuel 0 = .ok records ∧ Apart size records) ↔
      Strides next size data 0 := by
  constructor
  · rintro ⟨fuel, records, hwalk, hapart⟩
    exact strides_of_walk hwalk hapart
  · intro h
    obtain ⟨records, hwalk, hapart, -⟩ :=
      walk_of_strides within size_pos h (Nat.zero_le _) (Nat.le_refl _)
    exact ⟨_, records, hwalk, hapart⟩

end Walk

end RedoxDrivers.Lib
