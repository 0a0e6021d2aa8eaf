import RedoxDrivers.Lib.Serving
import RedoxDrivers.Net.Scheme

/-!
The console scheme (`graphics/fbcond/src/scheme.rs`, `main.rs`) and the event loops of the schemes
that keep requests.

A client of `fbcond` reads the bytes that were typed on a virtual terminal (VT), and what it writes
is drawn there. A read waits until there are bytes. How text is drawn is up to `draw`, which also
says which bytes the terminal answers.

`fbcond` and the network drivers have the same event loop, up to its order. `handle_event` of
`fbcond` takes new requests, or the input of a VT, and then tries the requests that wait.
`NetworkScheme::tick` tries those first. Either of them is a server of `RedoxDrivers.Lib.Serving`,
and `requests_answered_once` says that it answers every request once. Neither loop goes back: a
request that was tried early in a round may be left although later packets have come in the round
(`latePackets_not_waitsForAll`).
-/

namespace RedoxDrivers.Graphics

open Lib Lib.Serving Act Server Net

/-- A VT, with the bytes that were typed and not read yet. -/
structure TextScreen (δ : Type) where
  display : δ
  input : List U8

structure FbconHandle where
  vt : U64
  flags : U64
  events : U64
  notifiedRead : Bool
deriving DecidableEq, Repr

structure FbconScheme (δ : Type) where
  vts : U64 → Option (TextScreen δ)
  nextId : U64
  handles : U64 → Option FbconHandle

inductive FbconCall where
  | openPath (path : List Char) (flags : U64)
  | fevent (id : U64) (flags : U64)
  | fpath (id : U64) (len : Nat)
  | fsync (id : U64)
  | read (id : U64) (len : Nat)
  | write (id : U64) (buf : List U8)
  | close (id : U64)
deriving DecidableEq, Repr

/-- What a call returns: a number, or the bytes put into the client's buffer. -/
inductive FbconReply where
  | number (n : Nat)
  | bytes (data : List U8)
deriving DecidableEq, Repr

namespace FbconScheme

variable {δ : Type}

def O_NONBLOCK : U64 := 0x00040000

def handleOf (id : U64) : Act (FbconScheme δ) FbconHandle := do
  let s ← read fun s => s
  lift (okOr (s.handles id) .ebadf)

def screenOf (vt : U64) (code : Errno) : Act (FbconScheme δ) (TextScreen δ) := do
  let s ← read fun s => s
  lift (okOr (s.vts vt) code)

def setScreen (vt : U64) (screen : TextScreen δ) : Act (FbconScheme δ) Unit :=
  modify fun s => { s with vts := Function.update s.vts vt (some screen) }

def openPath (p : Profile) (path : List Char) (flags : U64) :
    Act (FbconScheme δ) (Option FbconReply) := do
  let number ← lift (okOr (Text.parse (2 ^ 64) path) .enoent)
  let vt : U64 := .ofNat 64 number
  let _ ← screenOf vt .enoent
  let id ← read nextId
  let next ← lift (checked (p.add id 1))
  modify fun s =>
    { s with nextId := next, handles := Function.update s.handles id (some ⟨vt, flags, 0, false⟩) }
  return some (.number id.toNat)

def fevent (id : U64) (flags : U64) : Act (FbconScheme δ) (Option FbconReply) := do
  let handle ← handleOf id
  modify fun s =>
    { s with handles :=
        Function.update s.handles id (some { handle with notifiedRead := false, events := flags }) }
  return some (.number 0)

def fpath (id : U64) (len : Nat) : Act (FbconScheme δ) (Option FbconReply) := do
  let handle ← handleOf id
  let path := "fbcon:".toList ++ Text.decimal handle.vt.toNat
  return some (.bytes ((Text.intoBytes path).take len))

def fsync (id : U64) : Act (FbconScheme δ) (Option FbconReply) := do
  let _ ← handleOf id
  return some (.number 0)

def read (id : U64) (len : Nat) : Act (FbconScheme δ) (Option FbconReply) := do
  let handle ← handleOf id
  let screen ← screenOf handle.vt .ebadf
  if screen.input = [] ∧ handle.flags &&& O_NONBLOCK ≠ O_NONBLOCK then return none
  else do
    setScreen handle.vt { screen with input := screen.input.drop len }
    return some (.bytes (screen.input.take len))

section

variable (draw : List U8 → δ → δ × List U8)

def write (id : U64) (buf : List U8) : Act (FbconScheme δ) (Option FbconReply) := do
  let handle ← handleOf id
  let screen ← screenOf handle.vt .ebadf
  let drawn := draw buf screen.display
  setScreen handle.vt ⟨drawn.1, screen.input ++ drawn.2⟩
  return some (.number buf.length)

def close (id : U64) : Act (FbconScheme δ) (Option FbconReply) := do
  let _ ← handleOf id
  modify fun s => { s with handles := Function.update s.handles id none }
  return some (.number 0)

def call (p : Profile) : FbconCall → Act (FbconScheme δ) (Option FbconReply)
  | .openPath path flags => openPath p path flags
  | .fevent id flags => fevent id flags
  | .fpath id len => fpath id len
  | .fsync id => fsync id
  | .read id len => read id len
  | .write id buf => write draw id buf
  | .close id => close id

/-- The event loop of `fbcond`: what comes in is taken first. -/
def service (p : Profile) : Service FbconCall (Except Errno FbconReply) (FbconScheme δ) :=
  .ofCalls .requestsFirst (call draw p)

end

end FbconScheme

open FbconScheme

/-- The event loop of a network driver: the requests that wait are tried first. -/
def networkService {α : Type} (A : NetworkAdapter α) (p : Profile) :
    Service NetCall (Except Errno NetReply) (NetworkScheme α) :=
  .ofCalls .retryFirst (NetworkScheme.call A p)

/-- **Requests are answered once.** This holds for the event loops of the network drivers and of
`fbcond`, in every run, with requests and cancellations in any order and data arriving between
any two steps. -/
theorem requests_answered_once :
    (∀ (α : Type) (A : NetworkAdapter α) (p : Profile) (scheme : NetworkScheme α)
        (es : List (Event U64 NetCall (NetworkScheme α))),
      Throughout (step (networkService A p)) (.new scheme)
          (AnswersOnce (networkService A p)) es ∧
        Along (step (networkService A p)) (.new scheme)
          (CancelsOnlyBlocked (networkService A p)) es) ∧
    (∀ (δ : Type) (draw : List U8 → δ → δ × List U8) (p : Profile) (scheme : FbconScheme δ)
        (es : List (Event U64 FbconCall (FbconScheme δ))),
      Throughout (step (service draw p)) (.new scheme)
          (AnswersOnce (service draw p)) es ∧
        Along (step (service draw p)) (.new scheme)
          (CancelsOnlyBlocked (service draw p)) es) :=
  ⟨fun _ A p scheme es => throughout_answersOnce (networkService A p) scheme es,
    fun _ draw p scheme es => throughout_answersOnce (service draw p) scheme es⟩

section LatePackets

/-- A network card that keeps the packets until they are read. -/
def queueAdapter : NetworkAdapter (List (List U8)) where
  macAddress _ := .replicate 6 0
  readPacket len
    | [] => (.ok none, [])
    | packet :: packets => (.ok (some (packet.take len)), packets)
  writePacket buf packets := (.ok buf.length, packets)

/-- Two clients wait for a packet. In the next round two packets arrive when the first of them has
been tried and the second has not. -/
def latePackets : List (Event U64 NetCall (NetworkScheme (List (List U8)))) :=
  [.wake .requests, .retry, .call 1 (.xopen [] 0), .call 2 (.read 1 64 0 0),
    .call 3 (.read 1 64 0 0), .drained,
    .wake .data, .retry, .arrive fun s => { s with adapter := s.adapter ++ [[1], [2]] },
    .retry, .retry, .drained]

/-- The second client gets the first packet, and the round ends with the other packet in the card
and the first client waiting. The interrupt of the packets starts another round. -/
theorem latePackets_not_waitsForAll :
    ¬ Throughout (step (networkService queueAdapter .release)) (.new (.new [] []))
      WaitsForAll latePackets := by
  intro throughout
  have hrun : (run (step (networkService queueAdapter .release)) (.new (.new [] []))
      latePackets).map (fun s => decide s.WaitsForAll) = some false := rfl
  obtain ⟨s, hs, hwaits⟩ := Option.map_eq_some_iff.mp hrun
  exact of_decide_eq_false hwaits (throughout _ List.prefix_rfl s hs)

end LatePackets

end RedoxDrivers.Graphics
