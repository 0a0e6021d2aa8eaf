import RedoxDrivers.Lib.Rust

/-!
Numbers in memory and on the wire.

`leBytes` are the bytes of a number on a little-endian machine, `ofLe` and `ofBe` the number that
bytes stand for if the least or the most significant one comes first. `toBe` is the conversion
that the machine does before a number goes out in big-endian order. A reader of the big-endian
bytes of a number that was not converted gets `swap` of it.
-/

namespace RedoxDrivers.Lib.Endian

open List Nat

/-- The `n` low bytes of a number, the least significant one first. -/
def leBytes : Nat → Nat → List U8
  | 0, _ => []
  | n + 1, x => BitVec.ofNat 8 x :: leBytes n (x / 256)

def ofLe : List U8 → Nat
  | [] => 0
  | b :: bs => b.toNat + 256 * ofLe bs

def ofBe (bs : List U8) : Nat := ofLe bs.reverse

/-- The number with its `n` bytes in the other order. -/
def swap (n x : Nat) : Nat := ofBe (leBytes n x)

section Numbers

variable {n x : Nat} {bs : List U8}

@[simp] theorem length_leBytes (n x : Nat) : (leBytes n x).length = n := by
  induction n generalizing x with
  | zero => rfl
  | succ n ih => simp [leBytes, ih]

theorem ofLe_lt (bs : List U8) : ofLe bs < 256 ^ bs.length := by
  induction bs with
  | nil => simp [ofLe]
  | cons b bs ih =>
    have hb : b.toNat < 256 := b.isLt
    simp only [ofLe, length_cons, pow_succ]
    omega

theorem ofBe_lt (bs : List U8) : ofBe bs < 256 ^ bs.length := by
  have h := ofLe_lt bs.reverse
  rwa [length_reverse] at h

theorem ofLe_leBytes (n x : Nat) : ofLe (leBytes n x) = x % 256 ^ n := by
  induction n generalizing x with
  | zero => simp [leBytes, ofLe, mod_one]
  | succ n ih =>
    have hsplit : x % 256 ^ (n + 1) = x % 256 + 256 * (x / 256 % 256 ^ n) := by
      rw [pow_succ, mul_comm, mod_mul]
    simp [leBytes, ofLe, ih, hsplit]

theorem leBytes_ofLe (bs : List U8) : leBytes bs.length (ofLe bs) = bs := by
  induction bs with
  | nil => rfl
  | cons b bs ih =>
    have hb : b.toNat < 256 := b.isLt
    have hlow : BitVec.ofNat 8 (b.toNat + 256 * ofLe bs) = b := by
      apply BitVec.eq_of_toNat_eq
      rw [BitVec.toNat_ofNat]
      omega
    have hhigh : (b.toNat + 256 * ofLe bs) / 256 = ofLe bs := by omega
    simp only [length_cons, leBytes, ofLe, hlow, hhigh, ih]

theorem ofBe_reverse_leBytes (h : x < 256 ^ n) : ofBe (leBytes n x).reverse = x := by
  rw [ofBe, reverse_reverse, ofLe_leBytes, mod_eq_of_lt h]

theorem swap_lt (n x : Nat) : swap n x < 256 ^ n := by
  have h := ofBe_lt (leBytes n x)
  rwa [length_leBytes] at h

theorem leBytes_swap (n x : Nat) : leBytes n (swap n x) = (leBytes n x).reverse := by
  have h := leBytes_ofLe (leBytes n x).reverse
  rwa [length_reverse, length_leBytes] at h

end Numbers

/-! ### Machine integers -/

/-- `to_be` and `from_be` on a little-endian machine. -/
def toBe {w : Nat} (x : BitVec w) : BitVec w := .ofNat w (swap (w / 8) x.toNat)

/-- The `n` bytes at offset `i` of a record. -/
def field (bs : List U8) (i n : Nat) : List U8 := (bs.drop i).take n

section Machine

variable {n i : Nat} {bs : List U8}

theorem toNat_toBe {w : Nat} (h : w = 8 * n) (x : BitVec w) : (toBe x).toNat = swap n x.toNat := by
  subst h
  have hlt := swap_lt n x.toNat
  have hpow : 256 ^ n = 2 ^ (8 * n) := by rw [Nat.pow_mul]
  rw [toBe, BitVec.toNat_ofNat, Nat.mul_div_cancel_left n (by decide), Nat.mod_eq_of_lt]
  rwa [← hpow]

/-- A number that was converted is read right. -/
theorem ofBe_toBe {w : Nat} (h : w = 8 * n) (x : BitVec w) :
    ofBe (leBytes n (toBe x).toNat) = x.toNat := by
  subst h
  have hlt : x.toNat < (2 ^ 8) ^ n := by
    rw [← pow_mul]
    exact x.isLt
  rw [toNat_toBe rfl, leBytes_swap, ofBe_reverse_leBytes hlt]

theorem length_field (h : i + n ≤ bs.length) : (field bs i n).length = n := by
  rw [field, length_take, length_drop]
  omega

theorem field_take {m : Nat} (h : i + n ≤ m) : field (bs.take m) i n = field bs i n := by
  rw [field, field, List.drop_take, List.take_take, Nat.min_eq_left (by omega)]

/-- A field of a field. -/
theorem field_field {j m : Nat} (h : i + n ≤ m) :
    field (field bs j m) i n = field bs (j + i) n := by
  rw [field, field, field, List.drop_take, List.take_take, Nat.min_eq_left (by omega),
    List.drop_drop]

end Machine

end RedoxDrivers.Lib.Endian
