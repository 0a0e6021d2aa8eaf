import Mathlib.Logic.Function.Basic
import RedoxDrivers.Lib.Rust

/-!
Code that works on a device by single accesses.

A program is the tree of the accesses it makes: after a read it goes on with the value it got. What the
accesses go to is left open, so the same program can be looked at in two ways.

* Alone on a memory: `runOn` is the result and the memory it leaves, and `Always` is about every
  memory on the way, also if the program panics.
* With others in between, who may change what the next read gives: `next` is one access, `Safe` says
  that no answer of those that may come leads to a panic or to an access that is not allowed, and
  `exists_finished` that every program comes to its end.
-/

namespace RedoxDrivers.Lib

inductive Accesses (ι ω α : Type) where
  | done (a : α)
  | panic (fault : Fault)
  | read (i : ι) (next : ω → Accesses ι ω α)
  | write (i : ι) (value : ω) (next : Accesses ι ω α)

namespace Accesses

variable {ι ω α β : Type}

protected def bind (x : Accesses ι ω α) (f : α → Accesses ι ω β) : Accesses ι ω β :=
  match x with
  | .done a => f a
  | .panic fault => .panic fault
  | .read i next => .read i fun value => (next value).bind f
  | .write i value next => .write i value (next.bind f)

instance : Monad (Accesses ι ω) where
  pure := .done
  bind := Accesses.bind

def get (i : ι) : Accesses ι ω ω := .read i .done

def set (i : ι) (value : ω) : Accesses ι ω Unit := .write i value (.done ())

/-- A read and a write of what it is to be changed to. -/
def modify (i : ι) (f : ω → ω) : Accesses ι ω Unit := .read i fun value => .write i (f value) (.done ())

/-- A property of programs that goes through `do` blocks. -/
structure Composes (P : (α : Type) → Accesses ι ω α → Prop) : Prop where
  pure : ∀ {α : Type} (a : α), P α (pure a)
  bind : ∀ {α β : Type} {x : Accesses ι ω α} {f : α → Accesses ι ω β}, P α x → (∀ a, P β (f a)) →
    P β (x >>= f)

/-! ### Alone on a memory -/

section Memory

variable [DecidableEq ι]

def runOn : Accesses ι ω α → (ι → ω) → Except Fault α × (ι → ω)
  | .done a, m => (.ok a, m)
  | .panic fault, m => (.error fault, m)
  | .read i next, m => (next (m i)).runOn m
  | .write i value next, m => next.runOn (Function.update m i value)

/-- `P` holds of every memory the program passes through. -/
def Always (P : (ι → ω) → Prop) : Accesses ι ω α → (ι → ω) → Prop
  | .done _, m => P m
  | .panic _, m => P m
  | .read i next, m => (next (m i)).Always P m
  | .write i value next, m => P m ∧ next.Always P (Function.update m i value)

variable {P : (ι → ω) → Prop} {x : Accesses ι ω α} {f : α → Accesses ι ω β} {m m' : ι → ω} {a : α}

theorem runOn_bind (x : Accesses ι ω α) (f : α → Accesses ι ω β) (m : ι → ω) : (x >>= f).runOn m =
    match x.runOn m with
    | (.ok a, m') => (f a).runOn m'
    | (.error fault, m') => (.error fault, m') := by
  induction x generalizing m with
  | done | panic => rfl
  | read i next ih => exact ih (m i) m
  | write i value next ih => exact ih (Function.update m i value)

theorem runOn_bind_ok (h : x.runOn m = (.ok a, m')) : (x >>= f).runOn m = (f a).runOn m' := by
  rw [runOn_bind, h]

theorem always_bind (hx : x.Always P m) (hf : ∀ a m', x.runOn m = (.ok a, m') → (f a).Always P m') :
    (x >>= f).Always P m := by
  induction x generalizing m with
  | done a => exact hf a m rfl
  | panic => exact hx
  | read i next ih => exact ih (m i) hx hf
  | write i value next ih => exact ⟨hx.1, ih hx.2 hf⟩

/-- The last of the memories is the one that is left. -/
theorem Always.runOn (h : x.Always P m) : P (x.runOn m).2 := by
  induction x generalizing m with
  | done | panic => exact h
  | read i next ih => exact ih (m i) h
  | write i value next ih => exact ih h.2

theorem Always.imp {Q : (ι → ω) → Prop} (hpq : ∀ m, P m → Q m) (h : x.Always P m) : x.Always Q m := by
  induction x generalizing m with
  | done | panic => exact hpq m h
  | read i next ih => exact ih (m i) h
  | write i value next ih => exact ⟨hpq m h.1, ih h.2⟩

/-- `P` is never broken by the program. -/
def Keeps (P : (ι → ω) → Prop) (x : Accesses ι ω α) : Prop := ∀ m, P m → x.Always P m

theorem keeps_pure (a : α) : Keeps P (pure a : Accesses ι ω α) := fun _ hm => hm

theorem keeps_panic (fault : Fault) : Keeps P (panic fault : Accesses ι ω α) := fun _ hm => hm

theorem keeps_set {i : ι} {value : ω} (h : ∀ m, P m → P (Function.update m i value)) :
    Keeps P (set i value) :=
  fun m hm => ⟨hm, h m hm⟩

theorem keeps_modify {i : ι} {g : ω → ω} (h : ∀ m, P m → P (Function.update m i (g (m i)))) :
    Keeps P (modify i g) :=
  fun m hm => ⟨hm, h m hm⟩

theorem keeps_bind (hx : Keeps P x) (hf : ∀ a, Keeps P (f a)) : Keeps P (x >>= f) := by
  intro m hm
  refine always_bind (hx m hm) fun a m' hrun => hf a m' ?_
  have hlast := (hx m hm).runOn
  rwa [hrun] at hlast

end Memory

/-! ### With others in between -/

/-- One access: what is left of the program if the device answers with `answer`. -/
def next : Accesses ι ω α → ω → Option (Accesses ι ω α)
  | .done _, _ => none
  | .panic _, _ => none
  | .read _ next, answer => some (next answer)
  | .write _ _ next, _ => some next

/-- What is left after `n` accesses. -/
def follow (x : Accesses ι ω α) (answers : Nat → ω) : Nat → Option (Accesses ι ω α)
  | 0 => some x
  | n + 1 => (follow x answers n).bind (next · (answers n))

def finished : Accesses ι ω α → Bool
  | .done _ => true
  | .panic _ => true
  | .read _ _ => false
  | .write _ _ _ => false

theorem follow_succ (x : Accesses ι ω α) (answers : Nat → ω) (n : Nat) : follow x answers (n + 1) =
      (next x (answers 0)).bind fun y => follow y (fun k => answers (k + 1)) n := by
  induction n with
  | zero =>
    cases h : next x (answers 0) with
    | none | some => simp [follow, h]
  | succ n ih =>
    rw [follow, ih, Option.bind_assoc]
    rfl

/-- A program has no endless branch. -/
theorem exists_finished (x : Accesses ι ω α) (answers : Nat → ω) :
    ∃ n y, follow x answers n = some y ∧ y.finished = true := by
  induction x generalizing answers with
  | done | panic => exact ⟨0, _, rfl, rfl⟩
  | read i next ih =>
    obtain ⟨n, y, hy, hend⟩ := ih (answers 0) fun k => answers (k + 1)
    refine ⟨n + 1, y, ?_, hend⟩
    rw [follow_succ]
    exact hy
  | write i value next ih =>
    obtain ⟨n, y, hy, hend⟩ := ih fun k => answers (k + 1)
    refine ⟨n + 1, y, ?_, hend⟩
    rw [follow_succ]
    exact hy

/-- Whatever is read, as long as it is `fine`, the program does not panic and makes only accesses that
are allowed. -/
def Safe (ok : ι → Prop) (fine : ι → ω → Prop) : Accesses ι ω α → Prop
  | .done _ => True
  | .panic _ => False
  | .read i next => ok i ∧ ∀ value, fine i value → (next value).Safe ok fine
  | .write i _ next => ok i ∧ next.Safe ok fine

section Safe

variable {ok ok' : ι → Prop} {fine fine' : ι → ω → Prop} {x : Accesses ι ω α} {f : α → Accesses ι ω β}

theorem safe_pure (a : α) : (pure a : Accesses ι ω α).Safe ok fine := trivial

theorem safe_bind (hx : x.Safe ok fine) (hf : ∀ a, (f a).Safe ok fine) : (x >>= f).Safe ok fine := by
  induction x with
  | done a => exact hf a
  | panic => exact hx.elim
  | read i next ih => exact ⟨hx.1, fun value hvalue => ih value (hx.2 value hvalue)⟩
  | write i value next ih => exact ⟨hx.1, ih hx.2⟩

theorem composes_safe (ok : ι → Prop) (fine : ι → ω → Prop) :
    Composes fun α (x : Accesses ι ω α) => x.Safe ok fine :=
  ⟨safe_pure, safe_bind⟩

theorem Safe.mono (hok : ∀ i, ok i → ok' i) (hfine : ∀ i value, fine' i value → fine i value)
    (hx : x.Safe ok fine) : x.Safe ok' fine' := by
  induction x with
  | done => trivial
  | panic => exact hx
  | read i next ih => exact ⟨hok i hx.1, fun value hvalue => ih value (hx.2 value (hfine i value hvalue))⟩
  | write i value next ih => exact ⟨hok i hx.1, ih hx.2⟩

end Safe

end Accesses

end RedoxDrivers.Lib
