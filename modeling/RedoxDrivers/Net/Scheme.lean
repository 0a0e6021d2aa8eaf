import Mathlib.Logic.Function.Basic
import RedoxDrivers.Lib.Act
import RedoxDrivers.Lib.Runs
import RedoxDrivers.Lib.Text

/-!
The scheme of the network drivers (`net/driver-network/src/lib.rs`).

Clients open the packets of the network card (the empty path) or its address (`mac`). The card is
a `NetworkAdapter`, whose functions work on a state of their own. A call returns `none` if it has
to wait for a packet.

`NetworkScheme.robust_iff` says which calls panic: the address is cut at the client's offset
without a look at its length.
-/

namespace RedoxDrivers.Net

open Lib Act

/-- What a driver does for the scheme. `readPacket` is given the length of the client's buffer, and
returns the bytes it puts there. -/
structure NetworkAdapter (α : Type) where
  macAddress : α → Vector U8 6
  readPacket : Nat → α → Except Errno (Option (List U8)) × α
  writePacket : List U8 → α → Except Errno Nat × α

inductive NetHandle where
  | data
  | mac
deriving DecidableEq, Repr

structure NetworkScheme (α : Type) where
  adapter : α
  schemeName : List Char
  nextId : U64
  handles : U64 → Option NetHandle

inductive NetCall where
  | xopen (path : List Char) (uid : U32)
  | read (id : U64) (len : Nat) (offset : U64) (fcntlFlags : U32)
  | write (id : U64) (buf : List U8)
  | fevent (id : U64)
  | fpath (id : U64) (len : Nat)
  | fstat (id : U64)
  | fsync (id : U64)
  | close (id : U64)
deriving DecidableEq, Repr

/-- What a call returns: a handle, and whether it keeps a position; the bytes put into the client's
buffer; a count; no events; the mode, and the size if it is set. -/
inductive NetReply where
  | opened (id : U64) (positioned : Bool)
  | bytes (data : List U8)
  | count (n : Nat)
  | noEvents
  | stat (mode : U16) (size : Option U64)
deriving DecidableEq, Repr

namespace NetworkScheme

variable {α : Type}

def new (adapter : α) (schemeName : List Char) : NetworkScheme α :=
  ⟨adapter, schemeName, 0, fun _ => none⟩

/-- Code of the adapter. -/
def device {β : Type} (x : α → Except Errno β × α) : Act (NetworkScheme α) β := fun s =>
  match x s.adapter with
  | (result, adapter) => (propagate result, { s with adapter })

def handleOf (id : U64) : Act (NetworkScheme α) NetHandle := do
  let s ← read fun s => s
  lift (okOr (s.handles id) .ebadf)

/-- A new handle gets the next id. -/
def install (p : Profile) (handle : NetHandle) (positioned : Bool) :
    Act (NetworkScheme α) (Option NetReply) := do
  let id ← read nextId
  let next ← lift (checked (p.add id 1))
  modify fun s =>
    { s with nextId := next, handles := Function.update s.handles next (some handle) }
  return some (.opened next positioned)

def xopen (p : Profile) (path : List Char) (uid : U32) : Act (NetworkScheme α) (Option NetReply) :=
  if uid ≠ 0 then lift (.error (.errno .eacces))
  else if path = [] then install p .data false
  else if path = ['m', 'a', 'c'] then install p .mac true
  else lift (.error (.errno .einval))

def O_NONBLOCK : U32 := 0x00040000

def MODE_FILE : U16 := 0x8000

def close (id : U64) : Act (NetworkScheme α) (Option NetReply) := do
  let _ ← handleOf id
  modify fun s => { s with handles := Function.update s.handles id none }
  return some (.count 0)

def fpath (id : U64) (len : Nat) : Act (NetworkScheme α) (Option NetReply) := do
  let handle ← handleOf id
  let schemeName ← read schemeName
  let path :=
    match handle with
    | .data => []
    | .mac => ['m', 'a', 'c']
  return some (.bytes ((Text.intoBytes (schemeName ++ ':' :: path)).take len))

def fstat (id : U64) : Act (NetworkScheme α) (Option NetReply) := do
  match ← handleOf id with
  | .data => return some (.stat (MODE_FILE ||| 0o700) none)
  | .mac => return some (.stat (MODE_FILE ||| 0o400) (some 6))

section Calls

variable (A : NetworkAdapter α)

def read (id : U64) (len : Nat) (offset : U64) (fcntlFlags : U32) :
    Act (NetworkScheme α) (Option NetReply) := do
  match ← handleOf id with
  | .mac => do
    let mac ← Act.read fun s => (A.macAddress s.adapter).toList
    let data ← Act.lift (checked (tailFrom mac offset.toNat))
    return some (.bytes (data.take len))
  | .data => do
    match ← device (A.readPacket len) with
    | some packet => return some (.bytes packet)
    | none =>
      if fcntlFlags &&& O_NONBLOCK ≠ 0 then Act.lift (.error (.errno .ewouldblock))
      else return none

def write (id : U64) (buf : List U8) : Act (NetworkScheme α) (Option NetReply) := do
  match ← handleOf id with
  | .mac => lift (.error (.errno .einval))
  | .data => do
    let n ← device (A.writePacket buf)
    return some (.count n)

def call (p : Profile) : NetCall → Act (NetworkScheme α) (Option NetReply)
  | .xopen path uid => xopen p path uid
  | .read id len offset fcntlFlags => read A id len offset fcntlFlags
  | .write id buf => write A id buf
  | .fevent id => do
    let _ ← handleOf id
    return some .noEvents
  | .fpath id len => fpath id len
  | .fstat id => fstat id
  | .fsync id => do
    let _ ← handleOf id
    return some (.count 0)
  | .close id => close id

/-! ### Runs -/

/-- A call of a client, or something happens to the card. -/
inductive Event (α : Type) where
  | call (call : NetCall)
  | arrive (change : α → α)

/-- After a panic there is no further state. -/
def step (p : Profile) (s : NetworkScheme α) : Event α → Option (NetworkScheme α)
  | .call c =>
    match call A p c s with
    | (.error (.panic _), _) => none
    | (_, s') => some s'
  | .arrive change => some { s with adapter := change s.adapter }

/-- The call does not panic, and a read of the address returns what there is of it from the offset
on, up to the length of the buffer. -/
def Robust (p : Profile) (s : NetworkScheme α) : Event α → Prop
  | .arrive _ => True
  | .call c => ¬ Panics (call A p c s).1 ∧
      ∀ id len offset flags, c = .read id len offset flags → s.handles id = some .mac →
        (call A p c s).1 =
          .ok (some (.bytes (((A.macAddress s.adapter).toList.drop offset.toNat).take len)))

end Calls

/-- The offset is in the address or right behind it, and there is an id for a new handle. -/
def Fits (p : Profile) (s : NetworkScheme α) : Event α → Prop
  | .call (.xopen path uid) =>
    uid = 0 → path = [] ∨ path = ['m', 'a', 'c'] →
      ¬ (p = .debug ∧ s.nextId = BitVec.allOnes 64)
  | .call (.read id _ offset _) => s.handles id = some .mac → offset.toNat ≤ 6
  | _ => True

section Robustness

variable {β : Type} {A : NetworkAdapter α} {p : Profile} {s : NetworkScheme α} {id : U64}

theorem handleOf_apply (id : U64) (s : NetworkScheme α) :
    handleOf id s = (okOr (s.handles id) .ebadf, s) := rfl

/-- Without a handle a call fails, and with one it goes on. -/
theorem panics_handleOf_bind {f : NetHandle → Act (NetworkScheme α) β} :
    Panics ((handleOf id >>= f) s).1 ↔
      ∃ handle, s.handles id = some handle ∧ Panics (f handle s).1 := by
  rw [bind_apply, handleOf_apply]
  cases s.handles id with
  | none | some => simp [okOr]

/-- The adapter does not panic. -/
theorem panics_device_bind {x : α → Except Errno β × α} {γ : Type}
    {f : β → Act (NetworkScheme α) γ} (h : Panics ((device x >>= f) s).1) :
    ∃ b adapter, Panics (f b { s with adapter }).1 := by
  rw [bind_apply, device] at h
  revert h
  rcases x s.adapter with ⟨code | b, adapter⟩
  · exact fun h => absurd h (not_panics_errno code)
  · exact fun h => ⟨b, adapter, h⟩

theorem panics_install_iff {handle : NetHandle} {positioned : Bool} :
    Panics (install p handle positioned s).1 ↔ p = .debug ∧ s.nextId = BitVec.allOnes 64 := by
  rw [install, read_bind, bind_apply]
  rcases p.add_one_cases s.nextId with ⟨hlast, hadd⟩ | ⟨hlast, hadd⟩
  · rw [hadd]
    exact ⟨fun _ => hlast, fun _ => ⟨.overflow, rfl⟩⟩
  · rw [hadd]
    exact ⟨fun h => absurd h (not_panics_ok _), fun h => absurd h hlast⟩

theorem panics_xopen_iff {path : List Char} {uid : U32} : Panics (xopen p path uid s).1 ↔
    uid = 0 ∧ (path = [] ∨ path = ['m', 'a', 'c']) ∧ p = .debug ∧ s.nextId = BitVec.allOnes 64 := by
  unfold xopen
  split
  · rename_i huid
    exact ⟨fun h => absurd h (not_panics_errno _), fun h => absurd h.1 huid⟩
  · rename_i huid
    rw [not_not] at huid
    split
    · rename_i hpath
      rw [panics_install_iff]
      simp [huid, hpath]
    · split
      · rename_i hpath
        rw [panics_install_iff]
        simp [huid, hpath]
      · rename_i hdata hmac
        simp [hdata, hmac]

/-- The bytes of the address from the offset on. -/
theorem read_mac (hmac : s.handles id = some .mac) (len : Nat) (offset : U64) (flags : U32) :
    (read A id len offset flags s).1 =
      (checked (tailFrom (A.macAddress s.adapter).toList offset.toNat)).map
        fun data => some (.bytes (data.take len)) := by
  rw [read, Act.bind_apply, handleOf_apply, hmac]
  dsimp only [okOr]
  rw [Act.read_bind, Act.bind_apply, Act.lift_apply]
  rcases checked (tailFrom (A.macAddress s.adapter).toList offset.toNat) with stop | data
  · rfl
  · rfl

theorem panics_read_iff {len : Nat} {offset : U64} {flags : U32} :
    Panics (read A id len offset flags s).1 ↔ s.handles id = some .mac ∧ 6 < offset.toNat := by
  constructor
  · intro h
    obtain ⟨handle, hhandle, hpanics⟩ := panics_handleOf_bind.mp h
    cases handle with
    | mac =>
      refine ⟨hhandle, ?_⟩
      rw [read_mac hhandle, tailFrom] at h
      split at h
      · exact absurd h (not_panics_ok _)
      · rename_i hlen
        simpa using hlen
    | data =>
      obtain ⟨packet, adapter, hrest⟩ := panics_device_bind hpanics
      cases packet with
      | some => exact absurd hrest (not_panics_ok _)
      | none =>
        dsimp only at hrest
        split at hrest
        · exact absurd hrest (not_panics_errno _)
        · exact absurd hrest (not_panics_ok _)
  · rintro ⟨hmac, hlt⟩
    refine ⟨.outOfBounds, ?_⟩
    rw [read_mac hmac, tailFrom, if_neg (by simpa using hlt)]
    rfl

theorem not_panics_write {buf : List U8} : ¬ Panics (write A id buf s).1 := by
  intro h
  obtain ⟨handle, -, hpanics⟩ := panics_handleOf_bind.mp h
  cases handle with
  | mac => exact absurd hpanics (not_panics_errno _)
  | data =>
    obtain ⟨n, adapter, hrest⟩ := panics_device_bind hpanics
    exact absurd hrest (not_panics_ok _)

/-- A call that only looks at its handle, or forgets it, does not panic. -/
theorem not_panics_of_handleOf {f : NetHandle → Act (NetworkScheme α) β}
    (h : ∀ handle, ∃ b, (f handle s).1 = .ok b) : ¬ Panics ((handleOf id >>= f) s).1 := by
  rw [panics_handleOf_bind]
  rintro ⟨handle, -, hpanics⟩
  obtain ⟨b, hb⟩ := h handle
  exact absurd (hb ▸ hpanics) (not_panics_ok b)

/-- Only an open that runs out of ids and a read behind the address panic. -/
theorem robust_iff (A : NetworkAdapter α) (p : Profile) (s : NetworkScheme α) (e : Event α) :
    Robust A p s e ↔ Fits p s e := by
  cases e with
  | arrive => exact Iff.rfl
  | call c =>
    cases c with
    | xopen path uid =>
      show ¬ Panics (xopen p path uid s).1 ∧ _ ↔ _
      rw [panics_xopen_iff, Fits]
      constructor
      · rintro ⟨h, -⟩ huid hpath hlast
        exact h ⟨huid, hpath, hlast⟩
      · intro h
        exact ⟨fun ⟨huid, hpath, hlast⟩ => h huid hpath hlast, nofun⟩
    | read id len offset flags =>
      show ¬ Panics (read A id len offset flags s).1 ∧ _ ↔ _
      rw [panics_read_iff, Fits]
      constructor
      · rintro ⟨h, -⟩ hmac
        exact Nat.le_of_not_lt fun hlt => h ⟨hmac, hlt⟩
      · intro h
        refine ⟨fun ⟨hmac, hlt⟩ => absurd (h hmac) (Nat.not_le_of_lt hlt), ?_⟩
        intro id' len' offset' flags' heq hmac
        cases heq
        show (read A id len offset flags s).1 = _
        rw [read_mac hmac, tailFrom, if_pos (by simpa using h hmac)]
        rfl
    | write => exact ⟨fun _ => trivial, fun _ => ⟨not_panics_write, nofun⟩⟩
    | fevent | fpath | fsync | close =>
      exact ⟨fun _ => trivial, fun _ => ⟨not_panics_of_handleOf fun _ => ⟨_, rfl⟩, nofun⟩⟩
    | fstat =>
      refine ⟨fun _ => trivial, fun _ => ⟨not_panics_of_handleOf fun handle => ?_, nofun⟩⟩
      cases handle with
      | data | mac => exact ⟨_, rfl⟩

end Robustness

end NetworkScheme

end RedoxDrivers.Net
