import RedoxDrivers.Lib.Rust

/-!
Code that works on a state and may stop.

An `Act σ α` runs on a state of type `σ`. It returns a value or stops, with a panic or with an
error code. What it has done to the state until then stays done, as it does for code that
talks to a device. `Keeps` is the rule for invariants: they are kept by code if each of its
parts keeps them, however the code ends. `Meets` adds a condition on the value that is returned.
`Ends` is for code that must not panic, and says when it fails.

A `Try ε σ α` may moreover return an error of its own type to its caller. `Holds` is the weakest
condition for such code not to panic and to return values as wanted: `holds_bind` is exact.
-/

namespace RedoxDrivers.Lib

def Act (σ α : Type) : Type := σ → Except Stop α × σ

namespace Act

variable {σ α β : Type}

instance : Monad (Act σ) where
  pure a := fun s => (.ok a, s)
  bind x f := fun s =>
    match x s with
    | (.ok a, s) => f a s
    | (.error stop, s) => (.error stop, s)

instance : LawfulMonad (Act σ) := by
  refine LawfulMonad.mk' _ (fun x => ?_) (fun a f => rfl) fun x f g => ?_
  · funext s
    show (match x s with | (.ok a, s) => (Except.ok a, s) | (.error stop, s) => (.error stop, s)) = x s
    rcases x s with ⟨_ | _, _⟩ <;> rfl
  · funext s
    simp only [bind]
    rcases x s with ⟨_ | _, _⟩ <;> rfl

/-- A computation that does not look at the state. -/
def lift (x : Except Stop α) : Act σ α := fun s => (x, s)

/-- A value that depends on the state. -/
def read (f : σ → α) : Act σ α := fun s => (.ok (f s), s)

/-- A change of the state. -/
def modify (f : σ → σ) : Act σ Unit := fun s => (.ok (), f s)

/-- Code whose end is looked at by what follows. -/
def attempt (x : Act σ α) : Act σ (Except Stop α) := fun s =>
  match x s with
  | (result, s) => (.ok result, s)

/-- An invariant that holds however the code ends. -/
def Keeps (Inv : σ → Prop) (x : Act σ α) : Prop := ∀ s, Inv s → Inv (x s).2

/-- The same, and what is returned is as `Q` says. -/
def Meets (Inv : σ → Prop) (x : Act σ α) (Q : α → Prop) : Prop :=
  ∀ s, Inv s → Inv (x s).2 ∧ ∀ a, (x s).1 = .ok a → Q a

/-- How code ends: it returns as `Q` says, or with an error code, which only happens in the case
of `E`. -/
def Ends (Q : α → σ → Prop) (E : Prop) (r : Except Stop α × σ) : Prop :=
  match r.1 with
  | .ok a => Q a r.2
  | .error (.errno _) => E
  | .error (.panic _) => False

section Rules

variable {x : Act σ α} {f : α → Act σ β} {s s' : σ} {a : α} {b : β} {Inv : σ → Prop}
  {Q : α → Prop} {R : β → Prop}

@[simp] theorem pure_apply (a : α) (s : σ) : (pure a : Act σ α) s = (.ok a, s) := rfl

@[simp] theorem lift_apply (x : Except Stop α) (s : σ) : lift x s = (x, s) := rfl

@[simp] theorem read_apply (f : σ → α) (s : σ) : read f s = (.ok (f s), s) := rfl

@[simp] theorem modify_apply (f : σ → σ) (s : σ) : modify f s = (.ok (), f s) := rfl

theorem bind_apply : (x >>= f) s =
    match x s with
    | (.ok a, s) => f a s
    | (.error stop, s) => (.error stop, s) := rfl

theorem bind_ok (h : x s = (.ok a, s')) : (x >>= f) s = f a s' := by
  rw [bind_apply, h]

theorem bind_error {stop : Stop} (h : x s = (.error stop, s')) :
    (x >>= f) s = (.error stop, s') := by
  rw [bind_apply, h]

@[simp] theorem lift_ok_bind (a : α) : ((lift (.ok a) : Act σ α) >>= f) = f a := rfl

/-- Code that passes on how another ended. -/
theorem attempt_bind : (attempt x >>= fun result => lift result >>= f) = x >>= f := by
  funext s
  simp only [attempt, bind_apply]
  rcases x s with ⟨_ | _, _⟩ <;> rfl

@[simp] theorem read_bind (g : σ → α) : (read g >>= f) s = f (g s) s := rfl

@[simp] theorem modify_bind {f : Unit → Act σ β} (g : σ → σ) : (modify g >>= f) s = f () (g s) := rfl

/-- Dropping the result does not touch the state. -/
theorem bind_pure_state (x : Act σ α) (b : β) (s : σ) : ((x >>= fun _ => pure b) s).2 = (x s).2 := by
  rw [bind_apply]
  rcases x s with ⟨stop | a, mid⟩
  · rfl
  · rfl

theorem keeps_pure (a : α) : Keeps Inv (pure a : Act σ α) := fun _ h => h

theorem keeps_lift (x : Except Stop α) : Keeps Inv (lift x : Act σ α) := fun _ h => h

theorem keeps_read (f : σ → α) : Keeps Inv (read f) := fun _ h => h

/-- What holds after the first half and is kept by the second holds after both. -/
theorem inv_bind (h : Inv (x s).2) (hf : ∀ a, Keeps Inv (f a)) : Inv ((x >>= f) s).2 := by
  revert h
  rw [bind_apply]
  rcases x s with ⟨stop | a, mid⟩
  · exact id
  · exact hf a mid

theorem keeps_bind (hx : Keeps Inv x) (hf : ∀ a, Keeps Inv (f a)) : Keeps Inv (x >>= f) :=
  fun s hs => inv_bind (hx s hs) hf

theorem Keeps.meets (hx : Keeps Inv x) : Meets Inv x fun _ => True :=
  fun s hs => ⟨hx s hs, fun _ _ => trivial⟩

theorem Meets.keeps (hx : Meets Inv x Q) : Keeps Inv x := fun s hs => (hx s hs).1

theorem meets_pure (h : Q a) : Meets Inv (pure a : Act σ α) Q := by
  refine fun s hs => ⟨hs, fun b hb => ?_⟩
  cases hb
  exact h

theorem meets_lift {x : Except Stop α} (h : ∀ a, x = .ok a → Q a) :
    Meets Inv (lift x : Act σ α) Q :=
  fun _ hs => ⟨hs, h⟩

theorem meets_bind (hx : Meets Inv x Q) (hf : ∀ a, Q a → Meets Inv (f a) R) :
    Meets Inv (x >>= f) R := by
  intro s hs
  have hmid := hx s hs
  rw [bind_apply]
  revert hmid
  rcases x s with ⟨stop | a, mid⟩
  · intro hmid
    exact ⟨hmid.1, fun b hb => by cases hb⟩
  · intro hmid
    exact hf a (hmid.2 a rfl) mid hmid.1

/-- The second half may use what is known of the value that the first returns. -/
theorem keeps_bind_of_meets (hx : Meets Inv x Q) (hf : ∀ a, Q a → Keeps Inv (f a)) :
    Keeps Inv (x >>= f) :=
  (meets_bind hx fun a ha => (hf a ha).meets).keeps

end Rules

section Ending

variable {x : Act σ α} {f : α → Act σ β} {s s' : σ} {a : α} {Q Q' : α → σ → Prop}
  {R : β → σ → Prop} {E : Prop} {r : Except Stop α × σ}

theorem ends_pure (h : Q a s) : Ends Q E ((pure a : Act σ α) s) := h

theorem ends_errno (code : Errno) (h : E) : Ends Q E (.error (.errno code), s) := h

theorem ends_bind (hx : Ends Q E (x s)) (hf : ∀ a s', Q a s' → Ends R E (f a s')) :
    Ends R E ((x >>= f) s) := by
  rw [bind_apply]
  revert hx
  rcases x s with ⟨stop | a, mid⟩
  · cases stop with
    | panic | errno => exact id
  · exact hf a mid

theorem Ends.imp (h : Ends Q E r) (himp : ∀ a s, Q a s → Q' a s) : Ends Q' E r := by
  revert h
  rcases r with ⟨stop | a, s⟩
  · cases stop with
    | panic | errno => exact id
  · exact himp a s

theorem Ends.not_panics (h : Ends Q E r) : ¬ Panics r.1 := by
  rintro ⟨fault, hfault⟩
  rw [Ends, hfault] at h
  exact h

theorem Ends.of_ok (h : Ends Q E r) (hr : r.1 = .ok a) : Q a r.2 := by
  rw [Ends, hr] at h
  exact h

theorem Ends.exists_ok (h : Ends Q E r) (hE : ¬ E) : ∃ a, r.1 = .ok a ∧ Q a r.2 := by
  revert h
  rcases r with ⟨stop | a, s⟩
  · cases stop with
    | panic => exact False.elim
    | errno => exact fun h => absurd h hE
  · exact fun h => ⟨a, rfl, h⟩

end Ending

end Act

/-! ### Errors that are returned -/

/-- Code that returns a `Result` with errors of type `ε`. -/
def Try (ε σ α : Type) : Type := Act σ (Except ε α)

namespace Try

variable {ε ε' σ α β : Type}

instance : Monad (Try ε σ) where
  pure a := fun s => (.ok (.ok a), s)
  bind x f := fun s =>
    match x s with
    | (.ok (.ok a), s) => f a s
    | (.ok (.error e), s) => (.ok (.error e), s)
    | (.error stop, s) => (.error stop, s)

/-- A result that does not depend on the state. -/
def ofExcept (x : Except ε α) : Try ε σ α := fun s => (.ok x, s)

def panic (fault : Fault) : Try ε σ α := fun s => (.error (.panic fault), s)

/-- A computation that may panic and returns no error. -/
def checked (x : Except Fault α) : Try ε σ α := fun s => (Lib.checked (x.map .ok), s)

def read (f : σ → α) : Try ε σ α := fun s => (.ok (.ok (f s)), s)

def modify (f : σ → σ) : Try ε σ Unit := fun s => (.ok (.ok ()), f s)

/-- The value that is returned. -/
def value (r : Except Stop (Except ε α) × σ) : Option α := r.1.toOption.bind Except.toOption

/-- The code does not panic, and an invariant holds however it ends. -/
def Safe (Inv : σ → Prop) (x : Try ε σ α) : Prop := ∀ s, Inv s → Inv (x s).2 ∧ ∃ r, (x s).1 = .ok r

/-- The code does not panic, and what it returns is as `Q` says unless it is an error. -/
def Holds (Q : α → σ → Prop) (r : Except Stop (Except ε α) × σ) : Prop :=
  match r.1 with
  | .ok (.ok a) => Q a r.2
  | .ok (.error _) => True
  | .error _ => False

section Rules

variable {x : Try ε σ α} {f : α → Try ε σ β} {s s' : σ} {a : α} {b : β} {e : ε}
  {Q Q' : α → σ → Prop} {R : β → σ → Prop} {Inv : σ → Prop}

@[simp] theorem pure_apply (a : α) (s : σ) : (pure a : Try ε σ α) s = (.ok (.ok a), s) := rfl

@[simp] theorem ofExcept_apply (x : Except ε α) (s : σ) : (ofExcept x : Try ε σ α) s = (.ok x, s) :=
  rfl

@[simp] theorem panic_apply (fault : Fault) (s : σ) :
    (panic fault : Try ε σ α) s = (.error (.panic fault), s) := rfl

@[simp] theorem read_apply (f : σ → α) (s : σ) : (read f : Try ε σ α) s = (.ok (.ok (f s)), s) := rfl

@[simp] theorem modify_apply (f : σ → σ) (s : σ) :
    (modify f : Try ε σ Unit) s = (.ok (.ok ()), f s) := rfl

theorem bind_apply : (x >>= f) s =
    match x s with
    | (.ok (.ok a), s) => f a s
    | (.ok (.error e), s) => (.ok (.error e), s)
    | (.error stop, s) => (.error stop, s) := rfl

theorem bind_ok (h : x s = (.ok (.ok a), s')) : (x >>= f) s = f a s' := by
  rw [bind_apply, h]

/-- Code returns a value exactly when each of its two halves does. -/
theorem bind_eq_ok : (x >>= f) s = (.ok (.ok b), s') ↔
    ∃ a mid, x s = (.ok (.ok a), mid) ∧ f a mid = (.ok (.ok b), s') := by
  rw [bind_apply]
  rcases x s with ⟨stop | e | a, mid⟩
  all_goals simp

theorem ofExcept_eq_ok {x : Except ε α} :
    (ofExcept x : Try ε σ α) s = (.ok (.ok a), s') ↔ x = .ok a ∧ s = s' := by
  simp

/-- The same for an error that is converted. -/
theorem ofExcept_mapError_eq_ok {x : Except ε α} {g : ε → ε'} :
    (ofExcept (x.mapError g) : Try ε' σ α) s = (.ok (.ok a), s') ↔ x = .ok a ∧ s = s' := by
  cases x with
  | error | ok => simp [Except.mapError]

theorem checked_eq_ok {x : Except Fault α} :
    (checked x : Try ε σ α) s = (.ok (.ok a), s') ↔ x = .ok a ∧ s = s' := by
  cases x with
  | error | ok => simp [checked, Lib.checked, Except.map]

theorem value_eq_some {r : Except Stop (Except ε α) × σ} :
    value r = some a ↔ r = (.ok (.ok a), r.2) := by
  rcases r with ⟨stop | e | b, s⟩
  all_goals simp [value, Except.toOption]

theorem safe_pure (a : α) : Safe Inv (pure a : Try ε σ α) := fun _ h => ⟨h, _, rfl⟩

theorem safe_ofExcept (x : Except ε α) : Safe Inv (ofExcept x : Try ε σ α) := fun _ h => ⟨h, _, rfl⟩

theorem safe_read (g : σ → α) : Safe Inv (read g : Try ε σ α) := fun _ h => ⟨h, _, rfl⟩

theorem safe_bind (hx : Safe Inv x) (hf : ∀ a, Safe Inv (f a)) : Safe Inv (x >>= f) := by
  intro s hs
  have hmid := hx s hs
  revert hmid
  rw [bind_apply]
  rcases x s with ⟨stop | e | a, mid⟩
  · rintro ⟨-, r, hr⟩
    cases hr
  · exact fun h => ⟨h.1, _, rfl⟩
  · exact fun h => hf a mid h.1

theorem holds_bind : Holds R ((x >>= f) s) ↔ Holds (fun a s' => Holds R (f a s')) (x s) := by
  rw [bind_apply]
  rcases x s with ⟨stop | e | a, mid⟩
  all_goals rfl

@[simp] theorem holds_pure : Holds Q ((pure a : Try ε σ α) s) ↔ Q a s := Iff.rfl

@[simp] theorem holds_read {g : σ → α} : Holds Q ((read g : Try ε σ α) s) ↔ Q (g s) s := Iff.rfl

@[simp] theorem holds_modify {g : σ → σ} {Q : Unit → σ → Prop} :
    Holds Q ((modify g : Try ε σ Unit) s) ↔ Q () (g s) := Iff.rfl

@[simp] theorem not_holds_panic {fault : Fault} : ¬ Holds Q ((panic fault : Try ε σ α) s) := id

theorem holds_checked {x : Except Fault α} :
    Holds Q ((checked x : Try ε σ α) s) ↔ ∃ a, x = .ok a ∧ Q a s := by
  cases x with
  | error | ok => simp [checked, Holds, Lib.checked, Except.map]

theorem Holds.not_panics {r : Except Stop (Except ε α) × σ} (h : Holds Q r) : ¬ Panics r.1 := by
  rintro ⟨fault, hfault⟩
  rw [Holds, hfault] at h
  exact h

end Rules

end Try

end RedoxDrivers.Lib
