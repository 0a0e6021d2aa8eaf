import Mathlib.Algebra.Group.Nat.Defs
import Mathlib.Data.List.Basic
import Mathlib.Tactic.Common

/-!
The part of Rust's semantics that driver code leans on: fixed-width integers,
arithmetic that is checked or wraps depending on the build profile, and the ways
a call can fail to return.

Integers are bit vectors. A computation that may not return is an
`Except Fault`: a panic, named by what raises it, or a loop that never ends.
`bind_eq_ok` and the `_eq_ok` lemmas beside each primitive take a finished
computation apart without unfolding it.
-/

namespace RedoxDrivers.Lib

open BitVec List Nat

abbrev U8 := BitVec 8
abbrev U16 := BitVec 16
abbrev U32 := BitVec 32
abbrev U64 := BitVec 64

/-- Why a call did not return. -/
inductive Fault where
  | overflow
  | outOfBounds
  | unwrapNone
  | assertFailed
  | unreachable
  | diverges
  | divideByZero
deriving DecidableEq, Repr

/-- The error codes of the drivers' `Result`s. -/
inductive Errno where
  | eacces
  | eagain
  | ebadf
  | ebadfd
  | ebadmsg
  | eintr
  | einval
  | eio
  | eisdir
  | enoent
  | enolck
  | enomem
  | enosys
  | enotdir
  | eoverflow
  | eproto
  | estale
  | ewouldblock
deriving DecidableEq, Repr

/-- How a call that returns a `Result` ends if it does not return `Ok`. -/
inductive Stop where
  | panic (fault : Fault)
  | errno (code : Errno)
deriving DecidableEq, Repr

/-- Integer overflow panics in a `debug` build and wraps in a `release` build. -/
inductive Profile where
  | debug
  | release
deriving DecidableEq, Repr

section Binds

variable {ε α β : Type} {x : Except ε α} {f : α → Except ε β} {a : α} {xs : List α}

/-- A computation finishes exactly when each of its two halves does. -/
theorem bind_eq_ok {b : β} : (x >>= f) = .ok b ↔ ∃ a, x = .ok a ∧ f a = .ok b := by
  constructor
  · intro h
    cases x with
    | error => exact absurd h nofun
    | ok a => exact ⟨a, rfl, h⟩
  · rintro ⟨a, rfl, h⟩
    exact h

theorem bind_eq_error {e : ε} :
    (x >>= f) = .error e ↔ x = .error e ∨ ∃ a, x = .ok a ∧ f a = .error e := by
  cases x with
  | error | ok => simp [Bind.bind, Except.bind]

@[simp] theorem ok_bind (a : α) (f : α → Except ε β) : (Except.ok a >>= f) = f a := rfl

@[simp] theorem error_bind (e : ε) (f : α → Except ε β) :
    ((Except.error e : Except ε α) >>= f) = .error e := rfl

@[simp] theorem pure_eq_ok (a : α) : (pure a : Except ε α) = .ok a := rfl

theorem ite_error_eq_ok {c : Prop} [Decidable c] {e : ε} :
    (if c then .error e else x) = .ok a ↔ ¬ c ∧ x = .ok a := by
  split <;> simp [*]

theorem toOption_eq_some : x.toOption = some a ↔ x = .ok a := by
  cases x with
  | error | ok => simp [Except.toOption]

theorem mapError_eq_ok {ε' : Type} {f : ε → ε'} : x.mapError f = .ok a ↔ x = .ok a := by
  cases x with
  | error | ok => simp [Except.mapError]

/-- A loop over a list finishes exactly when each turn does. -/
theorem mapM_eq_ok_iff {ys : List β} : xs.mapM f = .ok ys ↔ xs.map f = ys.map .ok := by
  induction xs generalizing ys with
  | nil => simp [eq_comm]
  | cons x xs ih =>
    rw [mapM_cons, bind_eq_ok]
    constructor
    · rintro ⟨y, hx, h⟩
      obtain ⟨ys', hxs, hys⟩ := bind_eq_ok.mp h
      cases hys
      rw [map_cons, map_cons, hx, ih.mp hxs]
    · intro h
      cases ys with
      | nil => simp at h
      | cons y ys =>
        obtain ⟨hx, hxs⟩ := cons.inj h
        exact ⟨y, hx, bind_eq_ok.mpr ⟨ys, ih.mpr hxs, rfl⟩⟩

theorem exists_mapM_eq_ok_iff : (∃ ys, xs.mapM f = .ok ys) ↔ ∀ x ∈ xs, ∃ y, f x = .ok y := by
  constructor
  · rintro ⟨ys, h⟩ x hx
    have hmem : f x ∈ ys.map .ok := mapM_eq_ok_iff.mp h ▸ mem_map_of_mem hx
    obtain ⟨y, -, hy⟩ := mem_map.mp hmem
    exact ⟨y, hy.symm⟩
  · intro h
    induction xs with
    | nil => exact ⟨[], rfl⟩
    | cons x xs ih =>
      obtain ⟨y, hy⟩ := h x mem_cons_self
      obtain ⟨ys, hys⟩ := ih fun x hx => h x (mem_cons_of_mem _ hx)
      refine ⟨y :: ys, mapM_eq_ok_iff.mpr ?_⟩
      rw [map_cons, map_cons, hy, mapM_eq_ok_iff.mp hys]

/-- What the loop gives is what the turns that finish give. -/
theorem filterMap_of_mapM_eq_ok {ys : List β} (h : xs.mapM f = .ok ys) :
    xs.filterMap (fun x => (f x).toOption) = ys := by
  have hmap : xs.map f = ys.map .ok := mapM_eq_ok_iff.mp h
  have hcomp : xs.filterMap (fun x => (f x).toOption) = (xs.map f).filterMap Except.toOption := by
    rw [filterMap_map]
    rfl
  rw [hcomp, hmap, filterMap_map]
  exact filterMap_some

end Binds

/-! ### Results -/

section Results

variable {α : Type}

/-- A computation that may panic, inside a function that returns a `Result`. -/
def checked : Except Fault α → Except Stop α
  | .ok a => .ok a
  | .error fault => .error (.panic fault)

/-- `ok_or(Error::new(code))?`. -/
def okOr (o : Option α) (code : Errno) : Except Stop α :=
  match o with
  | some a => .ok a
  | none => .error (.errno code)

/-- `?` on a call that does not panic. -/
def propagate : Except Errno α → Except Stop α
  | .ok a => .ok a
  | .error code => .error (.errno code)

@[simp] theorem checked_ok (a : α) : checked (.ok a) = .ok a := rfl

variable {a : α} {P : Stop → Prop}

@[simp] theorem checked_eq_ok {x : Except Fault α} : checked x = .ok a ↔ x = .ok a := by
  cases x with
  | error | ok => simp [checked]

@[simp] theorem checked_ne_errno {x : Except Fault α} {code : Errno} :
    checked x ≠ .error (.errno code) := by
  cases x with
  | error | ok => simp [checked]

@[simp] theorem okOr_eq_ok {o : Option α} {code : Errno} : okOr o code = .ok a ↔ o = some a := by
  cases o with
  | none | some => simp [okOr]

@[simp] theorem propagate_eq_ok {x : Except Errno α} : propagate x = .ok a ↔ x = .ok a := by
  cases x with
  | error | ok => simp [propagate]

/-- The call panics or does not return. -/
def Panics (x : Except Stop α) : Prop := ∃ fault, x = .error (.panic fault)

theorem panics_bind {β : Type} {x : Except Stop α} {f : α → Except Stop β} :
    Panics (x >>= f) ↔ Panics x ∨ ∃ a, x = .ok a ∧ Panics (f a) := by
  cases x with
  | error | ok => simp [Panics]

instance (x : Except Stop α) : Decidable (Panics x) :=
  match x with
  | .ok _ => .isFalse fun h => by cases h with | intro _ h => cases h
  | .error (.errno _) => .isFalse fun h => by cases h with | intro _ h => cases h
  | .error (.panic fault) => .isTrue ⟨fault, rfl⟩

@[simp] theorem not_panics_ok (a : α) : ¬ Panics (.ok a) := nofun

@[simp] theorem not_panics_errno (code : Errno) : ¬ Panics (.error (.errno code) : Except Stop α) :=
  nofun

@[simp] theorem not_panics_propagate (x : Except Errno α) : ¬ Panics (propagate x) := by
  cases x with
  | error e => exact not_panics_errno e
  | ok a => exact not_panics_ok a

/-- Every way in which the computation can fail is one of `P`. -/
def FailsIn (P : Stop → Prop) (x : Except Stop α) : Prop := ∀ stop, x = .error stop → P stop

theorem failsIn_ok (P : Stop → Prop) (a : α) : FailsIn P (.ok a) := nofun

theorem failsIn_error {stop : Stop} (h : P stop) : FailsIn P (.error stop : Except Stop α) := by
  intro stop' heq
  cases heq
  exact h

theorem failsIn_okOr {code : Errno} (h : P (.errno code)) (o : Option α) :
    FailsIn P (okOr o code) := by
  cases o with
  | none => exact failsIn_error h
  | some a => exact failsIn_ok P a

theorem failsIn_checked (h : ∀ fault, P (.panic fault)) (x : Except Fault α) :
    FailsIn P (checked x) := by
  cases x with
  | error fault => exact failsIn_error (h fault)
  | ok a => exact failsIn_ok P a

theorem failsIn_bind {β : Type} {x : Except Stop α} {f : α → Except Stop β} (hx : FailsIn P x)
    (hf : ∀ a, FailsIn P (f a)) : FailsIn P (x >>= f) := by
  cases x with
  | error stop => exact failsIn_error (hx stop rfl)
  | ok a => exact hf a

end Results

/-! ### Loops -/

/-- `for i in 0..n`, with a body that works on a state and may end the loop by `?`. What the
body has done to the state until then stays. -/
def forUpTo {σ : Type} (body : Nat → σ → Except Stop Unit × σ) : Nat → σ → Except Stop Unit × σ
  | 0, s => (.ok (), s)
  | n + 1, s =>
    match forUpTo body n s with
    | (.ok (), s) => body n s
    | (.error stop, s) => (.error stop, s)

section Loops

variable {σ : Type} {body : Nat → σ → Except Stop Unit × σ} {Inv : σ → Prop}
  {Good Bad : Nat → Prop} {n : Nat} {s : σ}

/-- The last round of a loop is reached if the rounds before it end normally. -/
theorem forUpTo_succ (body : Nat → σ → Except Stop Unit × σ) (n : Nat) (s : σ) :
    ((forUpTo body n s).1 = .ok () ∧
      forUpTo body (n + 1) s = body n (forUpTo body n s).2) ∨
    ((forUpTo body n s).1 ≠ .ok () ∧ forUpTo body (n + 1) s = forUpTo body n s) := by
  rw [forUpTo]
  rcases forUpTo body n s with ⟨stop | ⟨⟩, s'⟩
  · exact .inr ⟨nofun, rfl⟩
  · exact .inl ⟨rfl, rfl⟩

section

variable (keep : ∀ i < n, ∀ s, Inv s → Inv (body i s).2)

include keep

theorem forUpTo_inv (h : Inv s) : Inv (forUpTo body n s).2 := by
  induction n with
  | zero => exact h
  | succ n ih =>
    have hn := ih fun i hi => keep i (lt_succ_of_lt hi)
    rcases forUpTo_succ body n s with ⟨-, heq⟩ | ⟨-, heq⟩
    · rw [heq]
      exact keep n (lt_succ_self n) _ hn
    · rw [heq]
      exact hn

/-- A loop ends normally if each of its rounds does. -/
theorem forUpTo_ok_iff (good : ∀ i < n, ∀ s, Inv s → ((body i s).1 = .ok () ↔ Good i)) (h : Inv s) :
    (forUpTo body n s).1 = .ok () ↔ ∀ i < n, Good i := by
  induction n with
  | zero => exact ⟨fun _ => nofun, fun _ => rfl⟩
  | succ n ih =>
    have keep' := fun i (hi : i < n) => keep i (lt_succ_of_lt hi)
    have hok := ih keep' fun i hi => good i (lt_succ_of_lt hi)
    rw [forall_lt_succ_right, ← hok]
    rcases forUpTo_succ body n s with ⟨hearlier, heq⟩ | ⟨hearlier, heq⟩
    · rw [heq, good n (lt_succ_self n) _ (forUpTo_inv keep' h)]
      exact ⟨fun hn => ⟨hearlier, hn⟩, fun hn => hn.2⟩
    · rw [heq]
      exact ⟨fun hn => absurd hn hearlier, fun hn => hn.1⟩

/-- A loop panics if a round does that is reached. -/
theorem forUpTo_panics_iff (good : ∀ i < n, ∀ s, Inv s → ((body i s).1 = .ok () ↔ Good i))
    (bad : ∀ i < n, ∀ s, Inv s → (Panics (body i s).1 ↔ Bad i)) (h : Inv s) :
    Panics (forUpTo body n s).1 ↔ ∃ i < n, (∀ j < i, Good j) ∧ Bad i := by
  induction n with
  | zero => exact ⟨fun hpanics => absurd hpanics (not_panics_ok ()), nofun⟩
  | succ n ih =>
    have keep' := fun i (hi : i < n) => keep i (lt_succ_of_lt hi)
    have good' := fun i (hi : i < n) => good i (lt_succ_of_lt hi)
    have hpanics := ih keep' good' fun i hi => bad i (lt_succ_of_lt hi)
    rw [exists_lt_succ_right, ← hpanics, ← forUpTo_ok_iff keep' good' h]
    rcases forUpTo_succ body n s with ⟨hearlier, heq⟩ | ⟨hearlier, heq⟩
    · rw [heq, bad n (lt_succ_self n) _ (forUpTo_inv keep' h), hearlier]
      exact ⟨fun hn => .inr ⟨rfl, hn⟩, fun hn => (hn.resolve_left (not_panics_ok ())).2⟩
    · rw [heq]
      exact ⟨.inl, fun hn => hn.resolve_right fun hlast => hearlier hlast.1⟩

end

end Loops

/-! ### Arithmetic -/

section

variable {w : Nat} (p : Profile) (a b : BitVec w)

/-- `a + b`. -/
def Profile.add : Except Fault (BitVec w) :=
  if p = .debug ∧ 2 ^ w ≤ a.toNat + b.toNat then .error .overflow else .ok (a + b)

/-- `a - b`. -/
def Profile.sub : Except Fault (BitVec w) :=
  if p = .debug ∧ a.toNat < b.toNat then .error .overflow else .ok (a - b)

/-- `a * b`. -/
def Profile.mul : Except Fault (BitVec w) :=
  if p = .debug ∧ 2 ^ w ≤ a.toNat * b.toNat then .error .overflow else .ok (a * b)

end

/-- `a << n`. -/
def Profile.shl {w : Nat} (p : Profile) (a : BitVec w) (n : Nat) : Except Fault (BitVec w) :=
  if p = .debug ∧ w ≤ n then .error .overflow else .ok (a <<< (n % w))

/-- `a / b`. -/
def div {w : Nat} (a b : BitVec w) : Except Fault (BitVec w) :=
  if b = 0 then .error .divideByZero else .ok (a / b)

section Arithmetic

variable {w : Nat} {p : Profile} {a b c : BitVec w}

@[simp] theorem div_eq_ok : div a b = .ok c ↔ b ≠ 0 ∧ a / b = c := by
  unfold div
  split <;> simp_all

theorem Profile.add_eq_ok : p.add a b = .ok c ↔
    ¬ (p = .debug ∧ 2 ^ w ≤ a.toNat + b.toNat) ∧ a + b = c := by
  unfold Profile.add
  split <;> simp_all

theorem Profile.sub_eq_ok : p.sub a b = .ok c ↔
    ¬ (p = .debug ∧ a.toNat < b.toNat) ∧ a - b = c := by
  unfold Profile.sub
  split <;> simp_all

theorem Profile.mul_eq_ok : p.mul a b = .ok c ↔
    ¬ (p = .debug ∧ 2 ^ w ≤ a.toNat * b.toNat) ∧ a * b = c := by
  unfold Profile.mul
  split <;> simp_all

@[simp] theorem Profile.release_add (a b : BitVec w) : Profile.release.add a b = .ok (a + b) :=
  if_neg nofun

@[simp] theorem Profile.release_sub (a b : BitVec w) : Profile.release.sub a b = .ok (a - b) :=
  if_neg nofun

theorem toNat_ofNat_of_lt {n : Nat} (h : n < 2 ^ w) : (BitVec.ofNat w n).toNat = n := by
  rw [toNat_ofNat, mod_eq_of_lt h]

/-- A sum that fits is the same in either profile. -/
theorem Profile.add_ofNat {x y : Nat} (fits : x + y < 2 ^ w) :
    p.add (BitVec.ofNat w x) (BitVec.ofNat w y) = .ok (BitVec.ofNat w (x + y)) := by
  refine add_eq_ok.mpr ⟨?_, (ofNat_add x y).symm⟩
  rintro ⟨-, hle⟩
  rw [toNat_ofNat_of_lt (by omega), toNat_ofNat_of_lt (by omega)] at hle
  omega

/-- A sum that fits is the sum of the numbers. -/
theorem toNat_of_add_eq_ok {k : Nat} (hadd : p.add a (.ofNat w k) = .ok c)
    (fits : a.toNat + k < 2 ^ w) : c.toNat = a.toNat + k := by
  obtain ⟨-, rfl⟩ := Profile.add_eq_ok.mp hadd
  have hk : k < 2 ^ w := by omega
  rw [toNat_add, toNat_ofNat_of_lt hk, mod_eq_of_lt fits]

/-- Counting up by one overflows at the last number only. -/
theorem Profile.add_one_cases (p : Profile) (a : U64) :
    ((p = .debug ∧ a = allOnes 64) ∧ p.add a 1 = .error .overflow) ∨
      (¬ (p = .debug ∧ a = allOnes 64) ∧ p.add a 1 = .ok (a + 1)) := by
  have hlast : 2 ^ 64 ≤ a.toNat + (1 : U64).toNat ↔ a = allOnes 64 := by
    rw [← toNat_inj, toNat_allOnes]
    have := a.isLt
    have : (1 : U64).toNat = 1 := rfl
    omega
  by_cases h : p = .debug ∧ a = allOnes 64
  · exact .inl ⟨h, if_pos ⟨h.1, hlast.mpr h.2⟩⟩
  · exact .inr ⟨h, if_neg fun h' => h ⟨h'.1, hlast.mp h'.2⟩⟩

/-- A difference that is not negative is the same in either profile. -/
theorem Profile.sub_ofNat {x y : Nat} (fits : x < 2 ^ w) (le : y ≤ x) :
    p.sub (BitVec.ofNat w x) (BitVec.ofNat w y) = .ok (BitVec.ofNat w (x - y)) := by
  refine sub_eq_ok.mpr ⟨?_, ofNat_sub_ofNat_of_le x y (by omega) le⟩
  rintro ⟨-, hlt⟩
  rw [toNat_ofNat_of_lt fits, toNat_ofNat_of_lt (by omega)] at hlt
  omega

theorem Profile.sub_eq_overflow : p.sub a b = .error .overflow ↔
    p = .debug ∧ a.toNat < b.toNat := by
  unfold Profile.sub
  split <;> simp_all

end Arithmetic

/-! ### Options and slices -/

section Slices

variable {α : Type}

/-- `Option::unwrap` and `Option::expect`. -/
def unwrap : Option α → Except Fault α
  | some a => .ok a
  | none => .error .unwrapNone

variable {a : α} {xs : List α} {i : Nat}

@[simp] theorem unwrap_eq_ok {o : Option α} : unwrap o = .ok a ↔ o = some a := by
  cases o with
  | none | some => simp [unwrap]

/-- `xs[i]` as a read. -/
def index (xs : List α) (i : Nat) : Except Fault α :=
  match xs[i]? with
  | some a => .ok a
  | none => .error .outOfBounds

@[simp] theorem index_eq_ok : index xs i = .ok a ↔ xs[i]? = some a := by
  unfold index
  cases xs[i]? with
  | none | some => simp

/-- `&xs[n..]`. -/
def tailFrom (xs : List α) (n : Nat) : Except Fault (List α) :=
  if n ≤ xs.length then .ok (xs.drop n) else .error .outOfBounds

/-- An item of a vector that has been pushed to is an old one or the last. -/
theorem getElem?_push {b : α} (h : (xs ++ [a])[i]? = some b) :
    (i < xs.length ∧ xs[i]? = some b) ∨ (i = xs.length ∧ a = b) := by
  rcases Nat.lt_trichotomy i xs.length with hlt | rfl | hgt
  · rw [getElem?_append_left hlt] at h
    exact .inl ⟨hlt, h⟩
  · exact .inr ⟨rfl, by simpa using h⟩
  · rw [List.getElem?_eq_none (by simp; omega)] at h
    cases h

/-- A write through `&mut xs[i]`. -/
def modifyAt (xs : List α) (i : Nat) (f : α → α) : Except Fault (List α) :=
  if i < xs.length then .ok (xs.modify i f) else .error .outOfBounds

@[simp] theorem modifyAt_eq_ok {ys : List α} {f : α → α} :
    modifyAt xs i f = .ok ys ↔ i < xs.length ∧ xs.modify i f = ys := by
  unfold modifyAt
  split
  all_goals
    rename_i h
    simp [h]

end Slices

end RedoxDrivers.Lib
