import Mathlib.Algebra.GroupWithZero.Nat
import Mathlib.Data.List.Basic
import Mathlib.Tactic.Common

/-!
Byte images: the contents of a disk or of a DMA buffer as a function of the address.

`bytes` reads a range of an image and `store` overwrites one. A transfer that is cut into
chunks is the concatenation of its parts: `bytes_add` and `store_append` put them together
again. `chunkLens` and `chunks` are the lengths and the pieces of `slice::chunks`.
-/

namespace RedoxDrivers.Lib.Image

open List Nat

variable {α : Type}

/-- The `n` bytes at `offset`. -/
def bytes (image : Nat → α) (offset n : Nat) : List α :=
  (List.range n).map fun i => image (offset + i)

/-- The image after `data` is written at `offset`. -/
def store (image : Nat → α) (offset : Nat) (data : List α) : Nat → α := fun i =>
  if offset ≤ i then data[i - offset]?.getD (image i) else image i

section Ranges

variable {image : Nat → α} {offset n k i : Nat} {data : List α}

@[simp] theorem length_bytes (image : Nat → α) (offset n : Nat) :
    (bytes image offset n).length = n := by
  simp [bytes]

@[simp] theorem bytes_zero (image : Nat → α) (offset : Nat) : bytes image offset 0 = [] := rfl

theorem getElem?_bytes (h : i < n) : (bytes image offset n)[i]? = some (image (offset + i)) := by
  simp [bytes, h]

/-- Two ranges that follow each other. -/
theorem bytes_add (image : Nat → α) (offset n k : Nat) :
    bytes image offset (n + k) = bytes image offset n ++ bytes image (offset + n) k := by
  simp [bytes, range_add, Function.comp_def, add_assoc]

theorem take_bytes (h : k ≤ n) : (bytes image offset n).take k = bytes image offset k := by
  obtain ⟨m, rfl⟩ := Nat.exists_eq_add_of_le h
  rw [bytes_add]
  exact take_left' (length_bytes _ _ _)

theorem take_bytes_min (image : Nat → α) (offset n k : Nat) :
    (bytes image offset n).take k = bytes image offset (min k n) := by
  simp [bytes, ← map_take, take_range]

theorem drop_bytes (image : Nat → α) (offset n k : Nat) :
    (bytes image offset n).drop k = bytes image (offset + k) (n - k) := by
  rcases Nat.le_total k n with h | h
  · obtain ⟨m, rfl⟩ := Nat.exists_eq_add_of_le h
    rw [bytes_add, Nat.add_sub_cancel_left]
    exact drop_left' (length_bytes _ _ _)
  · rw [Nat.sub_eq_zero_of_le h, drop_eq_nil_of_le (by rwa [length_bytes]), bytes_zero]

@[simp] theorem store_nil (image : Nat → α) (offset : Nat) : store image offset [] = image := by
  funext i
  simp [store]

theorem store_of_lt (h : i < offset) : store image offset data i = image i :=
  if_neg (Nat.not_le.mpr h)

theorem store_of_le (h : offset + data.length ≤ i) : store image offset data i = image i := by
  rw [store, if_pos (by omega), getElem?_eq_none (by omega)]
  rfl

section

variable (image : Nat → α) (offset : Nat)

theorem store_inside (h : i < data.length) :
    some (store image offset data (offset + i)) = data[i]? := by
  rw [store, if_pos (Nat.le_add_right _ _), Nat.add_sub_cancel_left, getElem?_eq_getElem h]
  rfl

/-- What was written is read back. -/
theorem bytes_store (data : List α) :
    bytes (store image offset data) offset data.length = data := by
  refine ext_getElem? fun i => ?_
  rcases Nat.lt_or_ge i data.length with h | h
  · rw [getElem?_bytes h, store_inside _ _ h]
  · rw [getElem?_eq_none (by simpa using h), getElem?_eq_none h]

theorem bytes_store_of_le (h : k ≤ data.length) :
    bytes (store image offset data) offset k = data.take k := by
  rw [← take_bytes h, bytes_store]

/-- Two writes that follow each other are one. -/
theorem store_append (data data' : List α) :
    store (store image offset data) (offset + data.length) data' =
      store image offset (data ++ data') := by
  funext i
  rcases Nat.lt_or_ge i (offset + data.length) with h | h
  · rw [store_of_lt h]
    rcases Nat.lt_or_ge i offset with h' | h'
    · rw [store_of_lt h', store_of_lt h']
    · rw [store, store, if_pos h', if_pos h', getElem?_append_left (by omega)]
  · rw [store, if_pos h, store_of_le h, store, if_pos (by omega),
      getElem?_append_right (by omega), Nat.sub_sub]

theorem store_store (data : List α) :
    store (store image offset data) offset data = store image offset data := by
  funext i
  unfold store
  split
  · cases data[i - offset]? <;> rfl
  · rfl

end

theorem le_of_store_eq {c : α} {offset' : Nat} (hpos : 0 < data.length) (hne : data[0]? ≠ some c)
    (h : store (fun _ => c) offset data = store (fun _ => c) offset' data) : offset' ≤ offset := by
  by_contra hlt
  have hin := store_inside (fun _ => c) offset hpos
  rw [h, Nat.add_zero, store_of_lt (Nat.not_le.mp hlt)] at hin
  exact hne hin.symm

/-- Where something else stands in an image of one byte, it was written. -/
theorem offset_eq_of_store_eq {c : α} {offset' : Nat} (hpos : 0 < data.length)
    (hne : data[0]? ≠ some c)
    (h : store (fun _ => c) offset data = store (fun _ => c) offset' data) : offset = offset' :=
  Nat.le_antisymm (le_of_store_eq hpos hne h.symm) (le_of_store_eq hpos hne h)

end Ranges

/-! ### Blocks -/

section Blocks

variable {image : Nat → α} {size slot slot' n i : Nat} {data : List α} {byte : α}

/-- The first `n` bytes of `data` are in a block. -/
def Filled (image : Nat → α) (size slot : Nat) (data : List α) (n : Nat) : Prop :=
  ∀ j byte, j < n → data[j]? = some byte → image (slot * size + j) = byte

theorem Filled.snoc (h : Filled image size slot data n) (hbyte : data[n]? = some byte) :
    Filled (Function.update image (slot * size + n) byte) size slot data (n + 1) := by
  intro j byte' hj hbyte'
  rcases Nat.lt_succ_iff_lt_or_eq.mp hj with hold | rfl
  · rw [Function.update_of_ne (mt Nat.add_left_cancel (Nat.ne_of_lt hold))]
    exact h j byte' hold hbyte'
  · rw [Function.update_self]
    exact Option.some.inj (hbyte.symm.trans hbyte')

/-- A byte of another block. -/
theorem Filled.update (h : Filled image size slot data n) (hn : n ≤ size) (hne : slot ≠ slot')
    (hi : i < size) : Filled (Function.update image (slot' * size + i) byte) size slot data n := by
  intro j byte' hj hbyte'
  rw [Function.update_of_ne fun heq => hne ?_]
  · exact h j byte' hj hbyte'
  · have hdiv := congrArg (· / size) heq
    have hj : j < size := Nat.lt_of_lt_of_le hj hn
    have hsize : 0 < size := by omega
    simpa [Nat.mul_comm _ size, Nat.mul_add_div hsize, Nat.div_eq_of_lt, hi, hj] using hdiv

end Blocks

/-! ### Chunks -/

/-- The lengths of the pieces that `chunks(size)` cuts `len` items into. -/
def chunkLens (size len : Nat) : List Nat :=
  List.replicate (len / size) size ++ if len % size = 0 then [] else [len % size]

/-- Pieces of the given lengths. -/
def pieces : List Nat → List α → List (List α)
  | [], _ => []
  | n :: ns, data => data.take n :: pieces ns (data.drop n)

/-- `data.chunks(size)`. -/
def chunks (size : Nat) (data : List α) : List (List α) := pieces (chunkLens size data.length) data

section Chunks

variable {size len : Nat}

theorem sum_chunkLens (size len : Nat) : (chunkLens size len).sum = len := by
  have := div_add_mod len size
  rw [chunkLens, sum_append_nat, sum_replicate_nat]
  split
  · rename_i h
    rw [h] at this
    rw [sum_nil, mul_comm]
    exact this
  · rw [sum_singleton, mul_comm]
    exact this

theorem chunkLens_of_lt (hpos : 0 < len) (h : len < size) : chunkLens size len = [len] := by
  rw [chunkLens, div_eq_of_lt h, mod_eq_of_lt h, if_neg (by omega)]
  rfl

theorem chunkLens_of_le (hpos : 0 < size) (h : size ≤ len) :
    chunkLens size len = size :: chunkLens size (len - size) := by
  rw [chunkLens, chunkLens, div_eq_sub_div hpos h, replicate_succ,
    mod_eq_sub_mod h]
  rfl

theorem chunkLens_of_pos (hsize : 0 < size) (hpos : 0 < len) :
    chunkLens size len = min size len :: chunkLens size (len - min size len) := by
  rcases Nat.lt_or_ge len size with h | h
  · rw [chunkLens_of_lt hpos h, Nat.min_eq_right (Nat.le_of_lt h), Nat.sub_self]
    simp [chunkLens]
  · rw [chunkLens_of_le hsize h, Nat.min_eq_left h]

theorem chunkLens_mul (size len : Nat) {k : Nat} (hk : 0 < k) :
    chunkLens (size * k) (len * k) = (chunkLens size len).map (· * k) := by
  rw [chunkLens, chunkLens, Nat.mul_div_mul_right _ _ hk, Nat.mul_mod_mul_right, map_append,
    map_replicate]
  by_cases h : len % size = 0
  · rw [if_pos h, if_pos (by rw [h, Nat.zero_mul]), map_nil]
  · rw [if_neg h, if_neg (Nat.mul_ne_zero h (by omega)), map_singleton]

variable {n : Nat} {data : List α}

/-- A piece is a whole one or the rest. -/
theorem eq_of_mem_chunkLens (h : n ∈ chunkLens size len) : n = size ∨ n = len % size ∧ 0 < n := by
  rw [chunkLens, mem_append] at h
  rcases h with h | h
  · exact .inl (eq_of_mem_replicate h)
  · split at h
    · cases h
    · rw [mem_singleton.mp h]
      exact .inr ⟨rfl, by omega⟩

/-- All pieces but the last are whole ones. -/
theorem of_mem_dropLast_chunkLens (hsize : 0 < size) (h : n ∈ (chunkLens size len).dropLast) :
    n = size ∧ size < len := by
  have hdiv := div_add_mod len size
  unfold chunkLens at h
  split at h
  · rw [append_nil, dropLast_replicate, mem_replicate] at h
    have := Nat.mul_le_mul_left size (Nat.lt_of_sub_ne_zero h.1)
    exact ⟨h.2, by omega⟩
  · rw [dropLast_concat, mem_replicate] at h
    have := mul_le_mul_left size (one_le_iff_ne_zero.mpr h.1)
    exact ⟨h.2, by omega⟩

theorem mem_chunkLens_le (hsize : 0 < size) (h : n ∈ chunkLens size len) : n ≤ size := by
  rcases eq_of_mem_chunkLens h with rfl | ⟨rfl, -⟩
  · exact Nat.le_refl _
  · exact Nat.le_of_lt (Nat.mod_lt _ hsize)

/-- Each piece is a multiple of what divides the size of the pieces and of the whole. -/
theorem dvd_of_mem_chunkLens {k : Nat} (hsize : k ∣ size) (hlen : k ∣ len)
    (h : n ∈ chunkLens size len) : k ∣ n := by
  rcases eq_of_mem_chunkLens h with rfl | ⟨rfl, -⟩
  · exact hsize
  · exact (dvd_mod_iff hsize).mpr hlen

theorem pos_of_mem_chunkLens (hsize : 0 < size) (h : n ∈ chunkLens size len) : 0 < n := by
  rcases eq_of_mem_chunkLens h with rfl | ⟨-, hpos⟩
  · exact hsize
  · exact hpos

theorem map_length_pieces {ns : List Nat} (h : ns.sum ≤ data.length) :
    (pieces ns data).map length = ns := by
  induction ns generalizing data with
  | nil => rfl
  | cons n ns ih =>
    rw [sum_cons] at h
    rw [pieces, map_cons, length_take, Nat.min_eq_left (by omega), ih]
    rw [length_drop]
    omega

theorem map_length_chunks (size : Nat) (data : List α) :
    (chunks size data).map length = chunkLens size data.length :=
  map_length_pieces (Nat.le_of_eq (sum_chunkLens size data.length))

/-- The last piece is a whole one exactly if the pieces fit. -/
theorem length_chunks_iff (hsize : 0 < size) :
    (∀ piece ∈ chunks size data, piece.length = size) ↔ size ∣ data.length := by
  have hlens := map_length_chunks size data
  constructor
  · intro h
    by_contra hdvd
    have hrest : data.length % size ≠ 0 := mt dvd_of_mod_eq_zero hdvd
    have hmem : data.length % size ∈ (chunks size data).map length := by
      rw [hlens, chunkLens, if_neg hrest]
      exact mem_append_right _ (mem_singleton_self _)
    obtain ⟨piece, hpiece, hlength⟩ := mem_map.mp hmem
    have hlt := mod_lt data.length hsize
    rw [← hlength, h piece hpiece] at hlt
    exact absurd hlt (Nat.lt_irrefl _)
  · intro hdvd piece hpiece
    have hmem : piece.length ∈ chunkLens size data.length := hlens ▸ mem_map_of_mem hpiece
    rcases eq_of_mem_chunkLens hmem with h | ⟨h, hpos⟩
    · exact h
    · rw [mod_eq_zero_of_dvd hdvd] at h
      omega

end Chunks

end RedoxDrivers.Lib.Image
