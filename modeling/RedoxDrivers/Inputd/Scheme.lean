import Mathlib.Logic.Function.Basic
import RedoxDrivers.Lib.Act
import RedoxDrivers.Lib.Endian
import RedoxDrivers.Lib.Runs
import RedoxDrivers.Lib.Text

/-!
The input daemon (`inputd/src/main.rs`).

Producers write input events. Consumers read them, each for one virtual terminal (VT), and get what
is written while their VT is the active one. A graphics driver opens a display handle under the name of
its device, makes VTs with it and reads which of them are activated and deactivated. The VT is
switched by a control handle, or by a producer that writes the keys Super and F1 to F12. A driver
that opens `handle` takes over the VTs of all devices opened with `handle_early`.

`iterate` is one turn of the daemon's loop: a request, the takeover it asks for, and the
notifications. What the loop does to the state is collected in `Effect`, which is the one place where
requests are taken apart.

The layout of an event is that of `orbclient`, which is not part of the repository: `decode` reads
the 24 bytes of an event. The ids of handles and VTs count up in natural numbers; they are
`AtomicUsize`s, which makes no difference to runs of fewer than `2 ^ 64 - 1` requests
(`InputScheme.run_wrapped`).
-/

namespace RedoxDrivers.Inputd

open Lib
open Act (lift modify)

/-! ### State -/

inductive VtEventKind where
  | activate
  | deactivate
  | resize
deriving DecidableEq, Repr

structure VtEvent where
  kind : VtEventKind
  vt : Nat
  width : U32
  height : U32
  stride : U32
deriving DecidableEq, Repr

/-- What the daemon looks at in an input event. -/
inductive EventOption where
  | key (scancode : U8) (pressed : Bool)
  | resize (width height : U32)
  | other
deriving DecidableEq, Repr

/-- A handle that reads input. `taken` is not part of the daemon's state: it keeps the bytes that
were read before. -/
structure Consumer where
  events : U64
  pending : List U8
  needsHandoff : Bool
  notified : Bool
  vt : Nat
  taken : List U8
deriving DecidableEq, Repr

/-- A handle of a graphics driver. `taken` keeps the events that were read before. -/
structure Display where
  events : U64
  pending : List VtEvent
  notified : Bool
  device : List Char
  isEarlyfb : Bool
  taken : List VtEvent
deriving DecidableEq, Repr

inductive Handle where
  | producer
  | consumer (c : Consumer)
  | display (d : Display)
  | control
deriving DecidableEq, Repr

/-- `vts` has the device that each VT is shown on. Handles and VTs are numbered from 0 and 1 on, and
their numbers are below `nextId` and `nextVtId`. -/
structure InputScheme where
  handles : Nat → Option Handle
  nextId : Nat
  nextVtId : Nat
  vts : Nat → Option (List Char)
  superKey : Bool
  activeVt : Option Nat
  hasNewEvents : Bool
  maybePerformHandoffTo : Option (List Char)

/-- What the path of an `open` asks for. -/
inductive Opening where
  | producer
  | consumer (vt : Nat)
  | handleEarly (device : List Char)
  | handle (device : List Char)
  | control
deriving DecidableEq, Repr

inductive Request where
  | openPath (path : List Char)
  | fpath (id len : Nat)
  | read (id len : Nat)
  | write (id : Nat) (buf : List U8)
  | fevent (id : Nat) (flags : U64)
  | close (id : Nat)
  | sendFd
  | cancellation
deriving DecidableEq, Repr

/-- What a call returns: a number, bytes or events put into the client's buffer, or nothing. -/
inductive Reply where
  | number (n : Nat)
  | bytes (data : List U8)
  | events (data : List VtEvent)
  | none
deriving DecidableEq, Repr

def EVENT_SIZE : Nat := 24

def VT_EVENT_SIZE : Nat := 32

def VT_ACTIVATE_SIZE : Nat := 8

def EVENT_READ : U64 := 1

/-- `events.contains(EVENT_READ)`. -/
def Subscribed (events : U64) : Prop := events &&& EVENT_READ = EVENT_READ

instance (events : U64) : Decidable (Subscribed events) := inferInstanceAs (Decidable (_ = _))

/-- The whole events in a buffer. -/
def chunks (buf : List U8) : List (List U8) :=
  (List.range (buf.length / EVENT_SIZE)).map fun i => Endian.field buf (EVENT_SIZE * i) EVENT_SIZE

/-- The VT that an event asks to switch to. -/
def newActive (superKey : Bool) : EventOption → Option Nat
  | .key scancode _ =>
    if superKey then
      if 0x3B ≤ scancode ∧ scancode ≤ 0x44 then some (scancode.toNat - 0x3A)
      else if scancode = 0x57 then some 11
      else if scancode = 0x58 then some 12
      else none
    else none
  | _ => none

def superAfter (superKey : Bool) : EventOption → Bool
  | .key scancode pressed => if scancode = 0x5B then pressed else superKey
  | _ => superKey

namespace Display

/-- The event for a display whose VT is left. -/
def leave (old : Option (Nat × List Char)) (d : Display) : Display :=
  match old with
  | some (vt, device) =>
    if device = d.device then
      { d with pending := d.pending ++ [⟨.deactivate, vt, 0, 0, 0⟩], notified := false }
    else d
  | none => d

/-- The event for a display whose VT is shown. -/
def enter (new : Nat × List Char) (d : Display) : Display :=
  if new.2 = d.device then
    { d with pending := d.pending ++ [⟨.activate, new.1, 0, 0, 0⟩], notified := false }
  else d

/-- The events for a display when the VT is switched. -/
def switch (old : Option (Nat × List Char)) (new : Nat × List Char) (d : Display) : Display :=
  (d.leave old).enter new

def resize (vt : Nat) (device : List Char) (width height : U32) (d : Display) : Display :=
  if device = d.device then
    { d with pending := d.pending ++ [⟨.resize, vt, width, height, width⟩], notified := false }
  else d

end Display

namespace Handle

def onDisplay (f : Display → Display) : Handle → Handle
  | .display d => .display (f d)
  | h => h

def onConsumer (f : Consumer → Consumer) : Handle → Handle
  | .consumer c => .consumer (f c)
  | h => h

def isDisplay : Handle → Bool
  | .display _ => true
  | _ => false

def isEarly (device : List Char) : Handle → Bool
  | .display d => d.isEarlyfb && d.device = device
  | _ => false

def setNotified : Handle → Handle
  | .consumer c => .consumer { c with notified := true }
  | .display d => .display { d with notified := true }
  | h => h

end Handle

open Handle

namespace InputScheme

def new : InputScheme where
  handles _ := none
  nextId := 0
  nextVtId := 1
  vts _ := none
  superKey := false
  activeVt := none
  hasNewEvents := false
  maybePerformHandoffTo := none

/-- A loop over all handles. -/
def mapHandles (f : Handle → Handle) (s : InputScheme) : InputScheme :=
  { s with handles := fun id => (s.handles id).map f }

def setHandle (id : Nat) (h : Handle) (s : InputScheme) : InputScheme :=
  { s with handles := Function.update s.handles id (some h) }

/-- Whether there is a handle with a property. -/
def anyHandle (s : InputScheme) (P : Handle → Bool) : Bool :=
  (List.range s.nextId).any fun id => (s.handles id).any P

/-! ### Switching -/

/-- The VT that is left and its device. The lookup is made for each display. -/
def leaving (s : InputScheme) : Except Fault (Option (Nat × List Char)) :=
  match s.activeVt with
  | none => .ok none
  | some vt =>
    match s.vts vt with
    | some device => .ok (some (vt, device))
    | none => if s.anyHandle isDisplay then .error .unwrapNone else .ok none

/-- The displays are told, and the VT is active. -/
def switched (s : InputScheme) (old : Option (Nat × List Char)) (new : Nat × List Char) : InputScheme :=
  { s.mapHandles (onDisplay (Display.switch old new)) with activeVt := some new.1 }

def switchVt (newVt : Nat) : Act InputScheme Unit := do
  let s ← Act.read fun s => s
  if s.activeVt = some newVt then return ()
  else
    match s.vts newVt with
    | none => return ()
    | some device => do
      let old ← lift (checked s.leaving)
      modify fun s => s.switched old (newVt, device)

/-- A `Resize` goes to the displays of the active VT. -/
def resize (width height : U32) : Act InputScheme Unit := do
  let s ← Act.read fun s => s
  if s.anyHandle isDisplay then do
    let vt ← lift (checked (unwrap s.activeVt))
    let device ← lift (checked (unwrap (s.vts vt)))
    modify fun s => s.mapHandles (onDisplay (Display.resize vt device width height))
  else return ()

def switchIf : Option Nat → Act InputScheme Unit
  | some vt => switchVt vt
  | none => return ()

/-- The body of the loop over the events of a write. -/
def handleEvent : EventOption → Act InputScheme Unit
  | .key scancode pressed => do
    let s ← Act.read fun s => s
    modify fun s => { s with superKey := superAfter s.superKey (.key scancode pressed) }
    switchIf (newActive s.superKey (.key scancode pressed))
  | .resize width height => resize width height
  | .other => return ()

def handleEvents : List EventOption → Act InputScheme Unit
  | [] => return ()
  | e :: es => do
    handleEvent e
    handleEvents es

/-! ### Calls -/

/-- The pieces of a path are between slashes. -/
def parseOpen (path : List Char) : Option Opening :=
  match Text.split '/' path with
  | (command, rest) =>
    if command = "producer".toList then some .producer
    else if command = "consumer".toList then
      (rest.head?.bind (Text.parse (2 ^ 64))).map .consumer
    else if command = "handle_early".toList then some (.handleEarly (['.'].intercalate rest))
    else if command = "handle".toList then some (.handle (['.'].intercalate rest))
    else if command = "control".toList then some .control
    else none

/-- The new handle. One for `handle` starts with the activation of the active VT. -/
def newHandle (activeVt : Option Nat) : Opening → Handle
  | .producer => .producer
  | .consumer vt => .consumer ⟨0, [], false, false, vt, []⟩
  | .handleEarly device => .display ⟨0, [], false, device, true, []⟩
  | .handle device =>
    .display ⟨0, (activeVt.map fun vt => ⟨.activate, vt, 0, 0, 0⟩).toList, false, device, false, []⟩
  | .control => .control

/-- Only `handle` asks for a takeover. -/
def handoffFor (before : Option (List Char)) : Opening → Option (List Char)
  | .handle device => some device
  | _ => before

def openPath (path : List Char) : Act InputScheme Reply := do
  let fd ← Act.read nextId
  modify fun s => { s with nextId := s.nextId + 1 }
  let opening ← lift (okOr (parseOpen path) .einval)
  modify fun s =>
    { s.setHandle fd (newHandle s.activeVt opening) with
      maybePerformHandoffTo := handoffFor s.maybePerformHandoffTo opening }
  return .number fd

def handleOf (id : Nat) : Act InputScheme Handle := do
  let s ← Act.read fun s => s
  lift (okOr (s.handles id) .einval)

def fpath (id len : Nat) : Act InputScheme Reply := do
  match ← handleOf id with
  | .consumer c => do
    let s ← Act.read fun s => s
    let device ← lift (okOr (s.vts c.vt) .einval)
    return .bytes ((Text.intoBytes (device ++ ':' :: Text.decimal c.vt)).take len)
  | _ => lift (.error (.errno .einval))

def readConsumer (id len : Nat) (c : Consumer) : Act InputScheme Reply :=
  if c.needsHandoff then do
    modify (setHandle id (.consumer { c with needsHandoff := false }))
    lift (.error (.errno .estale))
  else do
    modify (setHandle id (.consumer
      { c with pending := c.pending.drop len, taken := c.taken ++ c.pending.take len }))
    return .bytes (c.pending.take len)

/-- A new VT, shown on a device. -/
def createVt (device : List Char) (s : InputScheme) : InputScheme :=
  { s with nextVtId := s.nextVtId + 1, vts := Function.update s.vts s.nextVtId (some device) }

def readDisplay (id len : Nat) (d : Display) : Act InputScheme Reply :=
  if len = 0 then do
    let vt ← Act.read nextVtId
    modify (createVt d.device)
    return .number vt
  else if len % VT_EVENT_SIZE = 0 then do
    let copy := len / VT_EVENT_SIZE
    modify (setHandle id (.display
      { d with pending := d.pending.drop copy, taken := d.taken ++ d.pending.take copy }))
    return .events (d.pending.take copy)
  else lift (.error (.errno .einval))

def read (id len : Nat) : Act InputScheme Reply := do
  match ← handleOf id with
  | .consumer c => readConsumer id len c
  | .display d => readDisplay id len d
  | _ => lift (.error (.errno .einval))

/-- The bytes of a write go to the consumers of a VT. -/
def delivered (s : InputScheme) (vt : Nat) (buf : List U8) : InputScheme :=
  s.mapHandles (onConsumer fun c =>
    if c.vt = vt then { c with pending := c.pending ++ buf, notified := false } else c)

def writeControl (buf : List U8) : Act InputScheme Reply :=
  if buf.length ≠ VT_ACTIVATE_SIZE then lift (.error (.errno .einval))
  else do
    switchVt (Endian.ofLe buf)
    return .number buf.length

/-- A single byte above `0xf4` is not an event, and is dropped. -/
def IsNoise (buf : List U8) : Prop := ∃ b, buf = [b] ∧ 0xf4 < b

instance (buf : List U8) : Decidable (IsNoise buf) :=
  match buf with
  | [b] => decidable_of_iff (0xf4 < b) ⟨fun h => ⟨b, rfl, h⟩, fun ⟨_, heq, h⟩ => by cases heq; exact h⟩
  | [] => .isFalse fun ⟨_, heq, _⟩ => by cases heq
  | _ :: _ :: _ => .isFalse fun ⟨_, heq, _⟩ => by cases heq

section Daemon

variable (decode : List U8 → EventOption)

def writeProducer (id : Nat) (buf : List U8) : Act InputScheme Reply :=
  if IsNoise buf then return .number 1
  else do
    handleEvents ((chunks buf).map decode)
    match ← handleOf id with
    | .producer => do
      let s ← Act.read fun s => s
      let vt ← lift (checked (unwrap s.activeVt))
      modify fun s => s.delivered vt buf
      return .number buf.length
    | _ => lift (.error (.panic .assertFailed))

def write (id : Nat) (buf : List U8) : Act InputScheme Reply := do
  modify fun s => { s with hasNewEvents := true }
  match ← handleOf id with
  | .control => writeControl buf
  | .consumer _ => lift (.error (.errno .einval))
  | .display _ => lift (.error (.errno .einval))
  | .producer => writeProducer decode id buf

def fevent (id : Nat) (flags : U64) : Act InputScheme Reply := do
  match ← handleOf id with
  | .consumer c => do
    modify (setHandle id (.consumer { c with events := flags, notified := false }))
    return .none
  | .display d => do
    modify (setHandle id (.display { d with events := flags, notified := false }))
    return .none
  | _ => lift (.error (.errno .einval))

def close (_id : Nat) : Act InputScheme Reply := return .number 0

def call : Request → Act InputScheme Reply
  | .openPath path => openPath path
  | .fpath id len => fpath id len
  | .read id len => read id len
  | .write id buf => write decode id buf
  | .fevent id flags => fevent id flags
  | .close id => close id
  | .sendFd => return .none
  | .cancellation => return .none

/-! ### The loop -/

section

variable (s : InputScheme)

/-- Whether a VT is shown on a device that was opened with `handle_early`. -/
def isEarlyVt (vt : Nat) : Bool := (s.vts vt).any fun device => s.anyHandle (isEarly device)

/-- A device takes over the VTs of the early ones, and their consumers are told. -/
def takeOver (device : List Char) : InputScheme :=
  { s.mapHandles (onConsumer fun c =>
      if s.isEarlyVt c.vt then { c with needsHandoff := true, notified := false } else c) with
    vts := fun vt => if s.isEarlyVt vt then some device else s.vts vt
    hasNewEvents := s.hasNewEvents || (List.range s.nextVtId).any s.isEarlyVt
    maybePerformHandoffTo := none }

def handoff : InputScheme :=
  match s.maybePerformHandoffTo with
  | some device => s.takeOver device
  | none => s

/-- A consumer that the loop stops at, if it has not been told yet. -/
def Waiting (c : Consumer) : Prop :=
  (c.needsHandoff = true ∨ c.pending ≠ []) ∧ c.notified = false ∧ Subscribed c.events

instance (c : Consumer) : Decidable (Waiting c) := inferInstanceAs (Decidable (_ ∧ _ ∧ _))

/-- Whether an event is posted for a handle. -/
def Posts (activeVt : Option Nat) : Handle → Prop
  | .consumer c => Waiting c ∧ (c.needsHandoff = true ∨ activeVt = some c.vt)
  | .display d => d.pending ≠ [] ∧ d.notified = false ∧ Subscribed d.events
  | _ => False

instance (activeVt : Option Nat) (h : Handle) : Decidable (Posts activeVt h) := by
  cases h <;> unfold Posts <;> infer_instance

def isWaiting : Handle → Bool
  | .consumer c => Waiting c
  | _ => false

/-- The handles for which an event is posted are marked. -/
def marked : InputScheme :=
  s.mapHandles fun h => if Posts s.activeVt h then setNotified h else h

/-- The ids for which an event is posted. -/
def posts : List Nat :=
  (List.range s.nextId).filter fun id => (s.handles id).any fun h => Posts s.activeVt h

/-- The notifications. `active_vt` is unwrapped for a consumer that is waiting. -/
def notify : Except Fault (InputScheme × List Nat) :=
  if s.hasNewEvents = false then .ok (s, [])
  else if s.activeVt = none ∧ s.anyHandle isWaiting = true then .error .unwrapNone
  else .ok (s.marked, s.posts)

end

/-- The rest of a turn, once the request has been handled. After a panic there is none. -/
def finish : Except Stop Reply × InputScheme → Option (InputScheme × List Nat)
  | (.error (.panic _), _) => none
  | (_, s) => (notify s.handoff).toOption

/-- One turn of the loop: the state after it, and the ids for which an event is posted. -/
def iterate (s : InputScheme) (request : Request) : Option (InputScheme × List Nat) :=
  finish (call decode request { s with hasNewEvents := false })

def step (s : InputScheme) (request : Request) : Option InputScheme :=
  (iterate decode s request).map Prod.fst

end Daemon

end InputScheme

end RedoxDrivers.Inputd
