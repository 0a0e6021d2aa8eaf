import RedoxDrivers.Graphics.Damage
import RedoxDrivers.Net.Scheme

/-!
The scheme of the graphics drivers (`graphics/driver-graphics/src/lib.rs`).

Clients open the screen of a virtual terminal (VT) by its path, and get a handle. What a screen shows is a
resource of the adapter, one for each VT and display. It is made when it is first needed, by an open
or when the VT is activated. `Valid` says that every handle has its resource.

`requests_robust_iff` says which requests make this scheme or the one of the network drivers
panic.
-/

namespace RedoxDrivers.Graphics

open Lib Function Text Net.NetworkScheme Act

/-- What a driver does for the scheme. `ρ` are its resources. -/
structure GraphicsAdapter (α ρ : Type) where
  displays : α → List U64
  displaySize : U64 → α → U32 × U32
  createResource : U32 → U32 → α → ρ × α
  mapResource : ρ → α → U64 × α
  setScanout : U64 → ρ → α → α
  flushResource : U64 → ρ → Option (List Damage) → α → α
  width : ρ → U32
  height : ρ → U32

structure ScreenHandle where
  vt : U64
  screen : U64
deriving DecidableEq, Repr

structure GraphicsScheme (α ρ : Type) where
  adapter : α
  schemeName : List Char
  nextId : U64
  handles : U64 → Option ScreenHandle
  activeVt : U64
  vtsRes : U64 → U64 → Option ρ

inductive VtEventKind where
  | activate
  | deactivate
  | resize
deriving DecidableEq, Repr

inductive GraphicsCall where
  | openPath (path : List Char)
  | fpath (id : U64) (len : Nat)
  | fsync (id : U64)
  | read (id : U64)
  | write (id : U64) (buf : List U8)
  | close (id : U64)
  | mmapPrep (id : U64)
deriving DecidableEq, Repr

/-- What a call returns: a number, or the bytes put into the client's buffer. -/
inductive GraphicsReply where
  | number (n : U64)
  | bytes (data : List U8)
deriving DecidableEq, Repr

namespace GraphicsScheme

variable {α ρ : Type}

def new (adapter : α) (schemeName : List Char) : GraphicsScheme α ρ :=
  ⟨adapter, schemeName, 0, fun _ => none, 0, fun _ _ => none⟩

/-- The screen that the first part of a path names: the numbers of the VT and of the display, with a
dot between them. The second one may be missing, and is zero if it is not a number. -/
def parsePath (path : List Char) : Option Nat × Nat :=
  match split '.' (split '/' path).1 with
  | (vt, rest) =>
    (parse (2 ^ 64) vt, (parse (2 ^ 64) (rest.headD [])).getD 0)

def handleOf (id : U64) (code : Errno) : Act (GraphicsScheme α ρ) ScreenHandle := do
  let s ← read fun s => s
  lift (okOr (s.handles id) code)

/-- `&self.vts_res[vt][screen]`. -/
def resourceOf (handle : ScreenHandle) : Act (GraphicsScheme α ρ) ρ := do
  let s ← read fun s => s
  lift (checked (unwrap (s.vtsRes handle.vt handle.screen)))

def pathOf (A : GraphicsAdapter α ρ) (s : GraphicsScheme α ρ) (handle : ScreenHandle) (resource : ρ) :
    List Char :=
  s.schemeName ++ ':' :: decimal handle.vt.toNat ++ '.' :: decimal handle.screen.toNat ++
    '/' :: decimal (A.width resource).toNat ++ '/' :: decimal (A.height resource).toNat

def addResource (s : GraphicsScheme α ρ) (vt screen : U64) (resource : ρ) (adapter : α) :
    GraphicsScheme α ρ :=
  { s with
    adapter := adapter
    vtsRes := update s.vtsRes vt (update (s.vtsRes vt) screen (some resource)) }

section Calls

variable (A : GraphicsAdapter α ρ)

/-- The resource of a screen, made if there is none yet. -/
def ensureResource (vt screen : U64) (s : GraphicsScheme α ρ) : ρ × GraphicsScheme α ρ :=
  match s.vtsRes vt screen with
  | some resource => (resource, s)
  | none =>
    let size := A.displaySize screen s.adapter
    match A.createResource size.1 size.2 s.adapter with
    | (resource, adapter) => (resource, s.addResource vt screen resource adapter)

def openPath (p : Profile) (path : List Char) : Act (GraphicsScheme α ρ) GraphicsReply :=
  if path = [] then lift (.error (.errno .einval))
  else do
    let vt ← lift (checked (unwrap (parsePath path).1))
    let id := (parsePath path).2
    let s ← read fun s => s
    if (A.displays s.adapter).length ≤ id then lift (.error (.errno .einval))
    else do
      modify fun s => (ensureResource A (.ofNat 64 vt) (.ofNat 64 id) s).2
      let next ← lift (checked (p.add s.nextId 1))
      modify fun s =>
        { s with
          nextId := next
          handles := update s.handles next (some ⟨.ofNat 64 vt, .ofNat 64 id⟩) }
      return .number next

def fpath (id : U64) (len : Nat) : Act (GraphicsScheme α ρ) GraphicsReply := do
  let handle ← handleOf id .ebadf
  let resource ← resourceOf handle
  let s ← read fun s => s
  let path := intoBytes (pathOf A s handle resource)
  if path.length ≤ len then return .bytes path else lift (.error (.panic .outOfBounds))

/-- `flush_resource`, for the VT that is shown. -/
def flush (handle : ScreenHandle) (damage : Option (List Damage)) : Act (GraphicsScheme α ρ) Unit := do
  let resource ← resourceOf handle
  modify fun s =>
    { s with adapter := A.flushResource handle.screen resource damage s.adapter }

def fsync (id : U64) : Act (GraphicsScheme α ρ) GraphicsReply := do
  let handle ← handleOf id .ebadf
  let s ← read fun s => s
  if handle.vt ≠ s.activeVt then return .number 0
  else do
    flush A handle none
    return .number 0

def read (id : U64) : Act (GraphicsScheme α ρ) GraphicsReply := do
  let _ ← handleOf id .ebadf
  lift (.error (.errno .einval))

def write (id : U64) (buf : List U8) : Act (GraphicsScheme α ρ) GraphicsReply := do
  let handle ← handleOf id .ebadf
  let s ← Act.read fun s => s
  if handle.vt ≠ s.activeVt then return .number (.ofNat 64 buf.length)
  else do
    flush A handle (some (Damage.listOfBytes buf))
    return .number (.ofNat 64 buf.length)

def close (id : U64) : Act (GraphicsScheme α ρ) GraphicsReply := do
  let _ ← handleOf id .ebadf
  modify fun s => { s with handles := update s.handles id none }
  return .number 0

def mmapPrep (id : U64) : Act (GraphicsScheme α ρ) GraphicsReply := do
  let handle ← handleOf id .einval
  let resource ← resourceOf handle
  let s ← Act.read fun s => s
  Act.modify fun s => { s with adapter := (A.mapResource resource s.adapter).2 }
  return .number (A.mapResource resource s.adapter).1

def call (p : Profile) : GraphicsCall → Act (GraphicsScheme α ρ) GraphicsReply
  | .openPath path => openPath A p path
  | .fpath id len => fpath A id len
  | .fsync id => fsync A id
  | .read id => read id
  | .write id buf => write A id buf
  | .close id => close id
  | .mmapPrep id => mmapPrep A id

/-- One turn of the loop over the displays when a VT is activated. -/
def showOn (vt : U64) (s : GraphicsScheme α ρ) (display : U64) : GraphicsScheme α ρ :=
  match ensureResource A vt display s with
  | (resource, s) =>
    { s with adapter := A.setScanout display resource s.adapter, activeVt := vt }

def activate (vt : U64) (s : GraphicsScheme α ρ) : GraphicsScheme α ρ :=
  (A.displays s.adapter).foldl (showOn A vt) s

def handleVtEvent (vt : U64) : VtEventKind → GraphicsScheme α ρ → GraphicsScheme α ρ
  | .activate, s => activate A vt s
  | .deactivate, s => s
  | .resize, s => s

/-! ### Runs -/

inductive Event where
  | call (call : GraphicsCall)
  | vt (vt : U64) (kind : VtEventKind)

section

variable (p : Profile) (s : GraphicsScheme α ρ)

/-- After a panic there is no further state. -/
def step : Event → Option (GraphicsScheme α ρ)
  | .call c =>
    match call A p c s with
    | (.error (.panic _), _) => none
    | (_, s') => some s'
  | .vt vt kind => some (handleVtEvent A vt kind s)

def NoPanic : Event → Prop
  | .call c => ¬ Panics (call A p c s).1
  | .vt _ _ => True

/-- Every handle refers to a resource. -/
def Valid (s : GraphicsScheme α ρ) : Prop :=
  ∀ id handle, s.handles id = some handle → (s.vtsRes handle.vt handle.screen).isSome = true

/-- The path starts with the number of a VT, and there is an id for a new handle; the path of a
handle fits in the client's buffer. -/
def Fits : Event → Prop
  | .call (.openPath path) =>
    path ≠ [] → (parsePath path).1.isSome = true ∧
      ((parsePath path).2 < (A.displays s.adapter).length →
        ¬ (p = .debug ∧ s.nextId = BitVec.allOnes 64))
  | .call (.fpath id len) => ∀ handle resource, s.handles id = some handle →
      s.vtsRes handle.vt handle.screen = some resource →
      (intoBytes (pathOf A s handle resource)).length ≤ len
  | _ => True

end

end Calls

section Resources

variable {A : GraphicsAdapter α ρ} {p : Profile} {s s' : GraphicsScheme α ρ} {vt screen : U64}

/-- Nothing is lost: the handles are the same, and resources are only added. -/
structure Grows (s s' : GraphicsScheme α ρ) : Prop where
  handles : s'.handles = s.handles
  resources : ∀ vt screen, (s.vtsRes vt screen).isSome = true → (s'.vtsRes vt screen).isSome = true

theorem Grows.refl (s : GraphicsScheme α ρ) : Grows s s := ⟨rfl, fun _ _ => id⟩

theorem Valid.grows (hvalid : Valid s) (h : Grows s s') : Valid s' := by
  intro id handle hid
  rw [h.handles] at hid
  exact h.resources _ _ (hvalid id handle hid)

theorem isSome_addResource {resource : ρ} {adapter : α} :
    ((s.addResource vt screen resource adapter).vtsRes vt screen).isSome = true := by
  simp [addResource]

theorem grows_addResource {resource : ρ} {adapter : α} :
    Grows s (s.addResource vt screen resource adapter) := by
  refine ⟨rfl, fun vt' screen' hr => ?_⟩
  by_cases hvt : vt' = vt
  · subst hvt
    by_cases hscreen : screen' = screen
    · subst hscreen
      exact isSome_addResource
    · simpa [addResource, update_of_ne hscreen] using hr
  · simpa [addResource, update_of_ne hvt] using hr

theorem ensureResource_spec (A : GraphicsAdapter α ρ) (vt screen : U64) (s : GraphicsScheme α ρ) :
    Grows s (ensureResource A vt screen s).2 ∧
      ((ensureResource A vt screen s).2.vtsRes vt screen).isSome = true := by
  unfold ensureResource
  cases hres : s.vtsRes vt screen with
  | some => exact ⟨.refl s, by rw [hres]; rfl⟩
  | none => exact ⟨grows_addResource, isSome_addResource⟩

theorem grows_activate (A : GraphicsAdapter α ρ) (vt : U64) (s : GraphicsScheme α ρ) :
    Grows s (activate A vt s) := by
  have hloop : ∀ (displays : List U64) (t : GraphicsScheme α ρ), Grows s t →
      Grows s (displays.foldl (showOn A vt) t) := by
    intro displays
    induction displays with
    | nil => exact fun _ h => h
    | cons display displays ih =>
      intro t h
      have hensure := (ensureResource_spec A vt display t).1
      exact ih _ ⟨hensure.handles.trans h.handles,
        fun vt screen hr => hensure.resources vt screen (h.resources vt screen hr)⟩
  exact hloop _ s (.refl s)

end Resources

section Robustness

variable {β : Type} {A : GraphicsAdapter α ρ} {p : Profile} {s : GraphicsScheme α ρ} {id : U64}

theorem handleOf_apply (id : U64) (code : Errno) (s : GraphicsScheme α ρ) :
    handleOf id code s = (okOr (s.handles id) code, s) := rfl

theorem resourceOf_apply (handle : ScreenHandle) (s : GraphicsScheme α ρ) :
    resourceOf handle s = (checked (unwrap (s.vtsRes handle.vt handle.screen)), s) := rfl

/-- A call that starts with the handle goes on with it, or fails. -/
theorem handleOf_elim {motive : Except Stop β × GraphicsScheme α ρ → Prop} {code : Errno}
    {f : ScreenHandle → Act (GraphicsScheme α ρ) β}
    (some : ∀ handle, s.handles id = some handle → motive (f handle s))
    (none : s.handles id = none → motive (.error (.errno code), s)) :
    motive ((handleOf id code >>= f) s) := by
  rw [bind_apply, handleOf_apply]
  cases hid : s.handles id with
  | none => exact none hid
  | some handle => exact some handle hid

variable {handle : ScreenHandle}

/-- The resource of an open handle is there. -/
theorem resourceOf_elim {motive : Except Stop β × GraphicsScheme α ρ → Prop} (hvalid : Valid s)
    (hid : s.handles id = some handle) {f : ρ → Act (GraphicsScheme α ρ) β}
    (some : ∀ resource, s.vtsRes handle.vt handle.screen = some resource → motive (f resource s)) :
    motive ((resourceOf handle >>= f) s) := by
  obtain ⟨resource, hres⟩ := Option.isSome_iff_exists.mp (hvalid id handle hid)
  rw [bind_apply, resourceOf_apply, hres]
  exact some resource hres

/-- How an open ends. The number of a VT must be there, and the resource is made before the id of
the handle. -/
theorem openPath_cases (A : GraphicsAdapter α ρ) (p : Profile) (path : List Char)
    (s : GraphicsScheme α ρ) : (∃ code, openPath A p path s = (.error (.errno code), s) ∧
      (path = [] ∨ (parsePath path).1.isSome = true ∧
        (A.displays s.adapter).length ≤ (parsePath path).2)) ∨
    (openPath A p path s = (.error (.panic .unwrapNone), s) ∧ path ≠ [] ∧ (parsePath path).1 = none) ∨
    ∃ vt, path ≠ [] ∧ (parsePath path).1 = some vt ∧
      (parsePath path).2 < (A.displays s.adapter).length ∧
      ((p = .debug ∧ s.nextId = BitVec.allOnes 64 ∧
          (openPath A p path s).1 = .error (.panic .overflow)) ∨
        (¬ (p = .debug ∧ s.nextId = BitVec.allOnes 64) ∧
          openPath A p path s = (.ok (.number (s.nextId + 1)),
            { (ensureResource A (.ofNat 64 vt) (.ofNat 64 (parsePath path).2) s).2 with
              nextId := s.nextId + 1
              handles := update s.handles (s.nextId + 1)
                (some ⟨.ofNat 64 vt, .ofNat 64 (parsePath path).2⟩) }))) := by
  by_cases hpath : path = []
  · exact .inl ⟨.einval, by rw [openPath, if_pos hpath]; rfl, .inl hpath⟩
  cases hvt : (parsePath path).1 with
  | none =>
    refine .inr (.inl ⟨?_, hpath, rfl⟩)
    rw [openPath, if_neg hpath, hvt]
    rfl
  | some vt =>
    by_cases hdisplay : (A.displays s.adapter).length ≤ (parsePath path).2
    · refine .inl ⟨.einval, ?_, .inr ⟨rfl, hdisplay⟩⟩
      rw [openPath, if_neg hpath, hvt]
      show (if _ then _ else _ : Act (GraphicsScheme α ρ) GraphicsReply) s = _
      rw [if_pos hdisplay]
      rfl
    · refine .inr (.inr ⟨vt, hpath, rfl, by omega, ?_⟩)
      have hensure := (ensureResource_spec A (.ofNat 64 vt) (.ofNat 64 (parsePath path).2) s).1
      rw [openPath, if_neg hpath, hvt]
      rcases p.add_one_cases s.nextId with ⟨hlast, hadd⟩ | ⟨hlast, hadd⟩
      · refine .inl ⟨hlast.1, hlast.2, ?_⟩
        show ((if _ then _ else _ : Act (GraphicsScheme α ρ) GraphicsReply) s).1 = _
        rw [if_neg hdisplay, modify_bind, hadd]
        rfl
      · refine .inr ⟨hlast, ?_⟩
        show (if _ then _ else _ : Act (GraphicsScheme α ρ) GraphicsReply) s = _
        rw [if_neg hdisplay, modify_bind, hadd, ← hensure.handles]
        rfl

theorem valid_openPath (hvalid : Valid s) (path : List Char)
    (hok : ¬ Panics (openPath A p path s).1) : Valid (openPath A p path s).2 := by
  rcases openPath_cases A p path s with ⟨code, heq, -⟩ | ⟨heq, -⟩ | ⟨vt, -, -, -, hend⟩
  · rw [heq]
    exact hvalid
  · rw [heq]
    exact hvalid
  · rcases hend with ⟨-, -, hover⟩ | ⟨-, heq⟩
    · exact absurd ⟨.overflow, hover⟩ hok
    · rw [heq]
      have hspec := ensureResource_spec A (.ofNat 64 vt) (.ofNat 64 (parsePath path).2) s
      intro id other hid
      by_cases hnew : id = s.nextId + 1
      · subst hnew
        obtain rfl : _ = other := by simpa using hid
        exact hspec.2
      · simp only [update_of_ne hnew] at hid
        exact hspec.1.resources _ _ (hvalid id other hid)

theorem valid_close (hvalid : Valid s) (id : U64) : Valid (close id s : _ × GraphicsScheme α ρ).2 := by
  refine handleOf_elim (motive := fun r => Valid r.2) (fun handle hid => ?_) fun _ => hvalid
  intro id' handle' hid'
  by_cases hsame : id' = id
  · subst hsame
    simp at hid'
  · exact hvalid id' handle' (by simpa [update_of_ne hsame] using hid')

/-- A call ends well: it does not panic, and every handle still has its resource. -/
def EndsWell (r : Except Stop β × GraphicsScheme α ρ) : Prop := ¬ Panics r.1 ∧ Valid r.2

theorem endsWell_flush (hvalid : Valid s) (hid : s.handles id = some handle)
    (A : GraphicsAdapter α ρ) (damage : Option (List Damage)) (b : β) :
    EndsWell ((flush A handle damage >>= fun _ => pure b) s) := by
  obtain ⟨adapter, heq⟩ : ∃ adapter, flush A handle damage s = (.ok (), { s with adapter }) :=
    resourceOf_elim (motive := fun r => ∃ adapter, r = (.ok (), { s with adapter })) hvalid hid
      fun _ _ => ⟨_, rfl⟩
  rw [bind_ok heq]
  exact ⟨not_panics_ok _, hvalid⟩

theorem fpath_cases (hvalid : Valid s) (A : GraphicsAdapter α ρ) (id : U64) (len : Nat) :
    (fpath A id len s).2 = s ∧ (¬ Panics (fpath A id len s).1 ↔
      ∀ handle resource, s.handles id = some handle →
        s.vtsRes handle.vt handle.screen = some resource →
        (intoBytes (pathOf A s handle resource)).length ≤ len) := by
  refine handleOf_elim (motive := fun r => r.2 = s ∧ (¬ Panics r.1 ↔ _)) (fun handle hid => ?_)
    fun hnone => ⟨rfl, ⟨fun _ handle resource hid => absurd hid (by simp [hnone]),
      fun _ => not_panics_errno _⟩⟩
  refine resourceOf_elim (motive := fun r => r.2 = s ∧ (¬ Panics r.1 ↔ _)) hvalid hid
    fun resource hres => ?_
  rw [read_bind]
  have hall : (∀ handle' resource', s.handles id = some handle' →
      s.vtsRes handle'.vt handle'.screen = some resource' →
      (intoBytes (pathOf A s handle' resource')).length ≤ len) ↔
        (intoBytes (pathOf A s handle resource)).length ≤ len := by
    constructor
    · exact fun h => h handle resource hid hres
    · intro h handle' resource' hid' hres'
      obtain rfl : handle = handle' := Option.some.inj (hid.symm.trans hid')
      obtain rfl : resource = resource' := Option.some.inj (hres.symm.trans hres')
      exact h
  rw [hall]
  split
  · rename_i hle
    exact ⟨rfl, ⟨fun _ => hle, fun _ => not_panics_ok _⟩⟩
  · rename_i hlong
    exact ⟨rfl, ⟨fun h => absurd ⟨.outOfBounds, rfl⟩ h, fun h => absurd h hlong⟩⟩

theorem noPanic_openPath_iff (A : GraphicsAdapter α ρ) (p : Profile) (path : List Char)
    (s : GraphicsScheme α ρ) :
    ¬ Panics (openPath A p path s).1 ↔ Fits A p s (.call (.openPath path)) := by
  rw [Fits]
  rcases openPath_cases A p path s with
    ⟨code, heq, hwhy⟩ | ⟨heq, hpath, hvt⟩ | ⟨vt, hpath, hvt, hdisplay, hend⟩
  · rw [heq]
    refine ⟨fun _ hpath => ?_, fun _ => not_panics_errno code⟩
    obtain ⟨hvt, hdisplay⟩ := hwhy.resolve_left hpath
    exact ⟨hvt, fun hlt => absurd hlt (Nat.not_lt_of_le hdisplay)⟩
  · rw [heq, hvt]
    exact ⟨fun h => absurd ⟨.unwrapNone, rfl⟩ h, fun h => absurd (h hpath).1 (by simp)⟩
  · rw [hvt]
    rcases hend with ⟨hp, hlast, hover⟩ | ⟨hlast, heq⟩
    · rw [hover]
      exact ⟨fun h => absurd ⟨.overflow, rfl⟩ h, fun h => absurd ⟨hp, hlast⟩ ((h hpath).2 hdisplay)⟩
    · rw [heq]
      exact ⟨fun _ _ => ⟨rfl, fun _ => hlast⟩, fun _ => not_panics_ok _⟩

/-- With every handle's resource there, a call that meets the condition ends well. -/
theorem endsWell_call (hvalid : Valid s) (c : GraphicsCall) (hfits : Fits A p s (.call c)) :
    EndsWell (call A p c s) := by
  have failed : ∀ code, EndsWell ((.error (.errno code), s) : Except Stop GraphicsReply × _) :=
    fun code => ⟨not_panics_errno code, hvalid⟩
  cases c with
  | openPath path =>
    have hok := (noPanic_openPath_iff A p path s).mpr hfits
    exact ⟨hok, valid_openPath hvalid path hok⟩
  | fpath id len =>
    obtain ⟨hsame, hiff⟩ := fpath_cases hvalid A id len
    exact ⟨hiff.mpr hfits, hsame.symm ▸ hvalid⟩
  | fsync =>
    refine handleOf_elim (motive := EndsWell) (fun handle hid => ?_) fun _ => failed _
    rw [Act.read_bind]
    split
    · exact ⟨not_panics_ok _, hvalid⟩
    · exact endsWell_flush hvalid hid A none _
  | read =>
    exact handleOf_elim (motive := EndsWell) (fun _ _ => failed _) fun _ => failed _
  | write =>
    refine handleOf_elim (motive := EndsWell) (fun handle hid => ?_) fun _ => failed _
    rw [Act.read_bind]
    split
    · exact ⟨not_panics_ok _, hvalid⟩
    · exact endsWell_flush hvalid hid A _ _
  | close id =>
    refine ⟨?_, valid_close hvalid id⟩
    exact handleOf_elim (motive := fun r => ¬ Panics r.1) (fun _ _ => not_panics_ok _)
      fun _ => not_panics_errno _
  | mmapPrep =>
    refine handleOf_elim (motive := EndsWell) (fun handle hid => ?_) fun _ => failed _
    exact resourceOf_elim (motive := EndsWell) hvalid hid
      fun resource _ => ⟨not_panics_ok _, hvalid⟩

/-- Only an open and an `fpath` can panic. -/
theorem noPanic_iff (hvalid : Valid s) (e : Event) : NoPanic A p s e ↔ Fits A p s e := by
  cases e with
  | vt => exact Iff.rfl
  | call c =>
    refine ⟨fun hok => ?_, fun hfits => (endsWell_call hvalid c hfits).1⟩
    cases c with
    | openPath path => exact (noPanic_openPath_iff A p path s).mp hok
    | fpath id len => exact (fpath_cases hvalid A id len).2.mp hok
    | _ => trivial

theorem valid_step {s' : GraphicsScheme α ρ} {e : Event} (hvalid : Valid s) (hfits : Fits A p s e)
    (hstep : step A p s e = some s') : Valid s' := by
  cases e with
  | vt vt kind =>
    cases hstep
    cases kind with
    | activate => exact hvalid.grows (grows_activate A vt s)
    | deactivate | resize => exact hvalid
  | call c =>
    have hwell := endsWell_call hvalid c hfits
    simp only [step] at hstep
    split at hstep
    · cases hstep
    · rename_i heq
      cases hstep
      rw [heq] at hwell
      exact hwell.2

end Robustness

end GraphicsScheme

open GraphicsScheme

/-! ### Both schemes -/

/-- **Requests that do not crash the driver.** In every sequence of requests to a network driver,
mixed with whatever happens to the card, no request panics and reads of the address return what is
left of it, exactly if the offsets of these reads are at most 6. In every sequence of requests
to a graphics driver, mixed with VT events, no request panics and all handles keep their resources,
exactly if the paths opened start with the number of a VT and the buffers given to `fpath` are long
enough. In a debug build the ids must also not be used up. -/
theorem requests_robust_iff {α β ρ : Type} (N : Net.NetworkAdapter α) (G : GraphicsAdapter β ρ)
    (p : Profile) (card : α) (adapter : β) (schemeName : List Char)
    (es : List (Event α)) (es' : List Event) :
    (Along (step N p) (.new card schemeName) (Robust N p) es ↔
      Along (step N p) (.new card schemeName) (Fits p) es) ∧
    (Along (step G p) (.new adapter schemeName) (NoPanic G p) es' ∧
        Throughout (step G p) (.new adapter schemeName) Valid es' ↔
      Along (step G p) (.new adapter schemeName) (Fits G p) es') := by
  constructor
  · have keep : ∀ s e s', True → Fits p s e →
        step N p s e = some s' → True := fun _ _ _ _ _ _ => trivial
    exact along_congr trivial keep fun s e _ => robust_iff N p s e
  · have init : Valid (.new adapter schemeName : GraphicsScheme β ρ) := nofun
    have keep : ∀ s e s', Valid s → Fits G p s e →
        step G p s e = some s' → Valid s' :=
      fun _ _ _ hvalid hfits hstep => valid_step hvalid hfits hstep
    have steps : Along (step G p) _ (NoPanic G p) es' ↔
        Along (step G p) _ (Fits G p) es' :=
      along_congr init keep fun _ e hvalid => noPanic_iff hvalid e
    constructor
    · exact fun h => steps.mp h.1
    · exact fun h => ⟨steps.mpr h, throughout_of_along init keep h⟩

/-- A card with the address zero that never has a packet. -/
def silentCard : Net.NetworkAdapter Unit where
  macAddress _ := Vector.replicate 6 0
  readPacket _ s := (.ok none, s)
  writePacket buf s := (.ok buf.length, s)

/-- One display that shows nothing. -/
def blindDisplay : GraphicsAdapter Unit Unit where
  displays _ := [0]
  displaySize _ _ := (1, 1)
  createResource _ _ s := ((), s)
  mapResource _ s := (0, s)
  setScanout _ _ s := s
  flushResource _ _ _ s := s
  width _ := 1
  height _ := 1

/-- A client opens `mac` and reads at offset 7; a client of a display opens `x`, or asks for the path
of its screen with a buffer of one byte. Each of them makes the driver panic. -/
theorem three_requests_panic : (run (step silentCard .release) (.new () [])
        [.call (.xopen ['m', 'a', 'c'] 0), .call (.read 1 6 7 0)]).isNone ∧
      Panics (call blindDisplay .release (.openPath ['x']) (.new () [])).1 ∧
      (run (step blindDisplay .release) (.new () [])
        [.call (.openPath ['1'])]).isSome ∧
      (run (step blindDisplay .release) (.new () [])
        [.call (.openPath ['1']), .call (.fpath 1 1)]).isNone := by
  decide +kernel

end RedoxDrivers.Graphics
