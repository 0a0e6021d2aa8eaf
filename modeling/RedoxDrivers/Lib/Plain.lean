import RedoxDrivers.Lib.Endian

/-!
Structures that are views of bytes.

A program that casts bytes to structures does so with a library. `Crate` is what is assumed of it:
a structure is read from the front of the bytes if they are long enough, and a slice of structures
from all of the bytes that make up whole ones. No other function has these properties than
`fromBytes` and `sliceFromBytes`, so what is proved with these is true of every such library.
-/

namespace RedoxDrivers.Lib.Plain

open Endian List

/-- A structure of `size` bytes. -/
def fromBytes (size : Nat) (bytes : List U8) : Option (List U8) :=
  if size ≤ bytes.length then some (bytes.take size) else none

/-- Structures of `size` bytes. What is left over is ignored. -/
def sliceFromBytes (size : Nat) (bytes : List U8) : List (List U8) :=
  (range (bytes.length / size)).map fun i => field bytes (i * size) size

structure Crate where
  fromBytes : Nat → List U8 → Option (List U8)
  sliceFromBytes : Nat → List U8 → List (List U8)
  tooShort : ∀ size bytes, bytes.length < size → fromBytes size bytes = none
  front : ∀ size bytes, size ≤ bytes.length → fromBytes size bytes = some (bytes.take size)
  count : ∀ size bytes, (sliceFromBytes size bytes).length = bytes.length / size
  element : ∀ size bytes i, i < bytes.length / size →
    (sliceFromBytes size bytes)[i]? = some (field bytes (i * size) size)

theorem Crate.fromBytes_eq (crate : Crate) : crate.fromBytes = Plain.fromBytes := by
  funext size bytes
  unfold Plain.fromBytes
  split
  · exact crate.front size bytes ‹_›
  · exact crate.tooShort size bytes (Nat.not_le.mp ‹_›)

theorem Crate.sliceFromBytes_eq (crate : Crate) : crate.sliceFromBytes = Plain.sliceFromBytes := by
  funext size bytes
  refine ext_getElem? fun i => ?_
  rcases Nat.lt_or_ge i (bytes.length / size) with hlt | hge
  · rw [crate.element size bytes i hlt, Plain.sliceFromBytes, getElem?_map, getElem?_range hlt]
    rfl
  · rw [getElem?_eq_none (by rwa [crate.count]), getElem?_eq_none (by simpa [Plain.sliceFromBytes])]

theorem fromBytes_isSome {size : Nat} {bytes : List U8} :
    (fromBytes size bytes).isSome = true ↔ size ≤ bytes.length := by
  unfold fromBytes
  split
  · simp [*]
  · simp [*]

theorem sliceFromBytes_head {size : Nat} {bytes : List U8} (hsize : 0 < size) :
    (sliceFromBytes size bytes)[0]? =
      if size ≤ bytes.length then some (field bytes 0 size) else none := by
  rw [sliceFromBytes, getElem?_map]
  split
  · rename_i h
    rw [getElem?_range (Nat.div_pos h hsize), Option.map_some, Nat.zero_mul]
  · rename_i h
    rw [Nat.div_eq_of_lt (Nat.not_le.mp h)]
    rfl

end RedoxDrivers.Lib.Plain
