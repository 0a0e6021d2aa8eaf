import RedoxDrivers.Lib.Rust
import Mathlib.Logic.Function.Basic

/-!
Tasks that lock the entries of a table.

The table is a concurrent map whose entries are looked at through guards. A write guard
excludes every other guard on its entry, and a task that asks for a guard on an entry waits
until it is free. A task that holds the write guard itself waits forever.

A task is a function of the keys on which it holds write guards and of the table. It returns
a result and the table, or `none` if it waits for itself. `Guarded.getMut` and `Guarded.get` run
the part of the code in which a guard is alive: the guard is dropped at its end, however it
ends. `Blocks` and its lemmas say when a task waits for itself, and `Meets` and its rules say
how a task ends that does not.
-/

namespace RedoxDrivers.Lib

/-- A task over a table with keys `κ` and entries `ε`. -/
def Guarded (κ ε α : Type) : Type :=
  List κ → (κ → Option ε) → Option (Except Stop α × (κ → Option ε))

namespace Guarded

variable {κ ε α β : Type}

instance : Monad (Guarded κ ε) where
  pure a := fun _ table => some (.ok a, table)
  bind x f := fun held table =>
    match x held table with
    | some (.ok a, table) => f a held table
    | some (.error stop, table) => some (.error stop, table)
    | none => none

/-- A computation that looks at no entry. -/
def lift (x : Except Stop α) : Guarded κ ε α := fun _ table => some (x, table)

section Entries

variable [DecidableEq κ]

/-- The code in which a write guard on an entry is alive. -/
def getMut (k : κ) (missing : Errno) (body : ε → Guarded κ ε α) : Guarded κ ε α := fun held table =>
  match table k with
  | none => some (.error (.errno missing), table)
  | some entry => if k ∈ held then none else body entry (k :: held) table

/-- The code in which a read guard on an entry is alive. -/
def get (k : κ) (missing : Errno) (body : ε → Guarded κ ε α) : Guarded κ ε α := fun held table =>
  match table k with
  | none => some (.error (.errno missing), table)
  | some entry => if k ∈ held then none else body entry held table

/-- A write through a guard. -/
def store (k : κ) (entry : ε) : Guarded κ ε Unit := fun _ table =>
  some (.ok (), Function.update table k (some entry))

end Entries

/-- The task waits for a guard that it holds itself. -/
def Blocks (x : Guarded κ ε α) (held : List κ) (table : κ → Option ε) : Prop := x held table = none

section Blocking

variable {held : List κ} {table : κ → Option ε} {x : Guarded κ ε α} {f : α → Guarded κ ε β}

@[simp] theorem pure_apply (a : α) :
    (pure a : Guarded κ ε α) held table = some (.ok a, table) := rfl

theorem bind_apply : (x >>= f) held table =
    match x held table with
    | some (.ok a, table) => f a held table
    | some (.error stop, table) => some (.error stop, table)
    | none => none := rfl

theorem bind_error {stop : Stop} {table' : κ → Option ε}
    (h : x held table = some (.error stop, table')) :
    (x >>= f) held table = some (.error stop, table') := by
  rw [bind_apply, h]

@[simp] theorem lift_ok_bind (a : α) : ((lift (.ok a) : Guarded κ ε α) >>= f) = f a := rfl

theorem blocks_bind (h : Blocks x held table) : Blocks (x >>= f) held table := by
  unfold Blocks at *
  rw [bind_apply, h]

/-- What comes after the last guard does not matter. -/
theorem blocks_bind_iff (hf : ∀ a table, ¬ Blocks (f a) held table) :
    Blocks (x >>= f) held table ↔ Blocks x held table := by
  unfold Blocks
  rw [bind_apply]
  rcases x held table with _ | ⟨stop | a, table'⟩
  · exact ⟨fun _ => rfl, fun _ => rfl⟩
  · exact ⟨nofun, nofun⟩
  · exact ⟨fun h => absurd h (hf a table'), nofun⟩

theorem blocks_bind_pure {g : α → β} :
    Blocks (x >>= fun a => pure (g a)) held table ↔ Blocks x held table :=
  blocks_bind_iff fun _ _ => nofun

theorem blocks_lift_bind {e : Except Stop α} :
    Blocks (lift e >>= f) held table ↔ ∃ a, e = .ok a ∧ Blocks (f a) held table := by
  cases e with
  | error => exact ⟨nofun, nofun⟩
  | ok a => exact ⟨fun h => ⟨a, rfl, h⟩, fun ⟨_, hok, h⟩ => Except.ok.inj hok ▸ h⟩

variable [DecidableEq κ] {k : κ} {missing : Errno} {body : ε → Guarded κ ε α} {entry : ε}

theorem blocks_store_bind {f : Unit → Guarded κ ε β} : Blocks (store k entry >>= f) held table ↔
    Blocks (f ()) held (Function.update table k (some entry)) := Iff.rfl

theorem blocks_getMut : Blocks (getMut k missing body) [] table ↔
    ∃ entry, table k = some entry ∧ Blocks (body entry) [k] table := by
  unfold Blocks getMut
  cases table k with
  | none | some => simp

theorem getMut_some (h : table k = some entry) :
    getMut k missing body [] table = body entry [k] table := by
  rw [getMut, h]
  rfl

/-- A guard that is held already. -/
theorem blocks_getMut_held (h : table k = some entry) (hk : k ∈ held) :
    Blocks (getMut k missing body) held table := by
  unfold Blocks getMut
  rw [h]
  exact if_pos hk

theorem blocks_get_held (h : table k = some entry) (hk : k ∈ held) :
    Blocks (get k missing body) held table := by
  unfold Blocks get
  rw [h]
  exact if_pos hk

end Blocking

/-! ### Tasks that do not wait for themselves -/

/-- Started with a table as in `pre`, the task ends; its result and the table are as in `ok`,
or its error and the table as in `err`. -/
def Meets (held : List κ) (pre : (κ → Option ε) → Prop) (x : Guarded κ ε α)
    (ok : α → (κ → Option ε) → Prop) (err : Stop → (κ → Option ε) → Prop) : Prop :=
  ∀ table, pre table →
    match x held table with
    | some (.ok a, table) => ok a table
    | some (.error stop, table) => err stop table
    | none => False

namespace Meets

variable {held : List κ} {pre : (κ → Option ε) → Prop} {x : Guarded κ ε α} {f : α → Guarded κ ε β}
  {ok : α → (κ → Option ε) → Prop} {ok' : β → (κ → Option ε) → Prop}
  {err : Stop → (κ → Option ε) → Prop} {table table' : κ → Option ε}

theorem not_blocks (h : Meets held pre x ok err) (start : pre table) : ¬ Blocks x held table := by
  intro hblocks
  have hends := h table start
  rw [show x held table = none from hblocks] at hends
  exact hends

theorem of_ok {a : α} (h : Meets held pre x ok err) (start : pre table)
    (hend : x held table = some (.ok a, table')) : ok a table' := by
  have hends := h table start
  rw [hend] at hends
  exact hends

theorem of_error {stop : Stop} (h : Meets held pre x ok err) (start : pre table)
    (hend : x held table = some (.error stop, table')) : err stop table' := by
  have hends := h table start
  rw [hend] at hends
  exact hends

protected theorem pure {a : α} (h : ∀ table, pre table → ok a table) :
    Meets held pre (pure a) ok err := h

protected theorem error {stop : Stop} (h : ∀ table, pre table → err stop table) :
    Meets held pre (lift (.error stop)) ok err := h

protected theorem bind (mid : α → (κ → Option ε) → Prop) (first : Meets held pre x mid err)
    (second : ∀ a, Meets held (mid a) (f a) ok' err) : Meets held pre (x >>= f) ok' err := by
  intro table start
  rw [bind_apply]
  have hfirst := first table start
  revert hfirst
  rcases x held table with _ | ⟨stop | a, table'⟩
  · exact id
  · exact id
  · exact second a table'

/-- A computation that looks at no entry either ends the task or hands on its result. -/
theorem lift_bind {e : Except Stop α} (fails : ∀ stop table, pre table → err stop table)
    (second : ∀ a, e = .ok a → Meets held pre (f a) ok' err) :
    Meets held pre (lift e >>= f) ok' err := by
  cases e with
  | error stop => exact fails stop
  | ok a => exact second a rfl

variable [DecidableEq κ] {k : κ} {missing : Errno} {body : ε → Guarded κ ε α}

protected theorem getMut (free : k ∉ held)
    (absent : ∀ table, pre table → err (.errno missing) table)
    (present : ∀ entry,
      Meets (k :: held) (fun table => pre table ∧ table k = some entry) (body entry) ok err) :
    Meets held pre (getMut k missing body) ok err := by
  intro table start
  unfold Guarded.getMut
  cases hentry : table k with
  | none => exact absent table start
  | some entry =>
    dsimp only
    rw [if_neg free]
    exact present entry table ⟨start, hentry⟩

protected theorem store {entry : ε} {ok : Unit → (κ → Option ε) → Prop}
    (h : ∀ table, pre table → ok () (Function.update table k (some entry))) :
    Meets held pre (store k entry) ok err := h

end Meets

end Guarded

end RedoxDrivers.Lib
