import RedoxDrivers.Lib.Holdings
import RedoxDrivers.Xhci.Configure

/-!
Attaching and detaching devices (`attach_device`, `detach_device` and what they call in
`xhcid/src/xhci/mod.rs`).

For a device that is connected the controller enables a slot. The driver gives it an entry
in `port_states` when the device has an address, and fills in its description once that is
read. The slots that are enabled and the entries that hold them are an account in the sense
of `Lib.Holdings`.

`Enumeration.slots_accounted_iff` says what attaching promises. The slots of the entries are
enabled in every run. That no other slots are, that an attach that fails leaves nothing behind,
and that the entries are described, each has an exact condition on what may fail.
-/

namespace RedoxDrivers.Xhci

open Lib Function Option

/-! ### Speeds of USB 3 -/

namespace ProtocolSpeed

variable (self : ProtocolSpeed)

inductive Lp where
  | superSpeed
  | superSpeedPlus
  | rsvd2
  | rsvd3
deriving DecidableEq, Repr

def lpRaw : U8 := ((self.a &&& 0x0000C000) >>> 14).setWidth 8

def lp : Lp :=
  if self.lpRaw = 0 then .superSpeed
  else if self.lpRaw = 1 then .superSpeedPlus
  else if self.lpRaw = 2 then .rsvd2
  else .rsvd3

/-- A speed of so many gigabits in both directions at once. -/
def isGbps (psim : U16) (lp : Lp) : Bool :=
  self.psim == psim && self.psie == .gbps && self.pfd && self.lp == lp

def isSuperspeedGen1x1 : Bool := self.isGbps 5 .superSpeed

def isSuperspeedplusGen2x1 : Bool := self.isGbps 10 .superSpeedPlus

def isSuperspeedplusGen1x2 : Bool := self.isGbps 10 .superSpeedPlus

def isSuperspeedplusGen2x2 : Bool := self.isGbps 20 .superSpeedPlus

def isSuperspeedGenX : Bool :=
  self.isSuperspeedGen1x1 || self.isSuperspeedplusGen2x1 || self.isSuperspeedplusGen1x2 ||
    self.isSuperspeedplusGen2x2

end ProtocolSpeed

namespace Scheme

/-! ### Steps of attaching -/

/-- What attaching a device finds, and how the steps of it end that may fail. `connected` is
the connect status of the port, and `slot` the one that the controller enables. -/
structure AttachOutcomes where
  connected : Bool
  slot : Except Errno U8
  input : Except Errno Unit
  ring : Except Errno PageAddr
  speed : Option ProtocolSpeed
  address : Except Errno Unit
  packetSize : Except Errno U8
  evaluateContext : Except Errno Unit
  answers : Answers
  updatePipe : Except Errno Unit

/-- The packet size that a device is addressed with. -/
def initialPacketSize (speed : ProtocolSpeed) : Except Fault U32 :=
  if speed.isLowspeed then .ok 8
  else if speed.isFullspeed then .ok 64
  else if speed.isHighspeed then .ok 64
  else if speed.isSuperspeedGenX then .ok 512
  else .error .unreachable

def addressDevice (out : AttachOutcomes) : Except Stop (Ring × InputContext) := do
  let page ← propagate out.ring
  let ring := Ring.new page.addr 16 true
  let speed ← checked (unwrap out.speed)
  let maxPacketSize ← checked (initialPacketSize speed)
  propagate out.address
  return (ring, {
    dropContext := 0
    addContext := 1 <<< 1 ||| 1
    control := 0
    slotA := 1 <<< 27
    endpoints := (Vector.replicate 31 default).setIfInBounds 0 {
      a := 0
      b := 3 <<< 1 ||| 4 <<< 3 ||| maxPacketSize <<< 16
      trl := ring.register.setWidth 32
      trh := (ring.register >>> 32).setWidth 32
      c := 0 } })

/-- The entry of a device that has an address. -/
def newPortState (out : AttachOutcomes) (slot : U8) : Except Stop PortState := do
  propagate out.input
  let (ring, inputContext) ← addressDevice out
  return {
    slot
    cfgIdx := none
    inputContext
    devDesc := none
    endpointStates := fun endpNum => if endpNum = 0 then some ⟨.ring ring, .init⟩ else none }

/-- The packet size of the control endpoint in an input context. -/
def InputContext.setMaxPacketSize (self : InputContext) (packetSize : U8) : InputContext :=
  { self with
    endpoints := self.endpoints.setIfInBounds 0 { self.endpoints[0] with
      b := (self.endpoints[0].b &&& 0x0000FFFF) ||| packetSize.setWidth 32 <<< 16 } }

/-- The steps of `attach_device` on the entry it has made. What they have done to it stays
when one of them fails. -/
def describe (p : Profile) (out : AttachOutcomes) (port : PortState) :
    Except Stop Unit × PortState :=
  match out.packetSize with
  | .error code => (.error (.errno code), port)
  | .ok packetSize =>
    let port := { port with inputContext := port.inputContext.setMaxPacketSize packetSize }
    match out.evaluateContext with
    | .error code => (.error (.errno code), port)
    | .ok () =>
      match out.answers.getDesc p 4089 with
      | .error stop => (.error stop, port)
      | .ok devDesc =>
        (propagate out.updatePipe, { port with
          devDesc := some devDesc
          inputContext := {
            port.inputContext.setMaxPacketSize devDesc.packetSize with
              addContext := 1 <<< 1
              dropContext := 0 } })

/-! ### The driver and the slots of its controller -/

structure Enumeration where
  portStates : Nat → Option PortState
  slots : Finset U8

namespace Enumeration

def empty : Enumeration := ⟨fun _ => none, ∅⟩

def attachDevice (p : Profile) (out : AttachOutcomes) (i : Nat) (s : Enumeration) :
    Except Stop Unit × Enumeration :=
  if (s.portStates i).isSome then (.error (.errno .eagain), s)
  else if !out.connected then (.ok (), s)
  else
    match out.slot with
    | .error code => (.error (.errno code), s)
    | .ok slot =>
      let s := { s with slots := insert slot s.slots }
      match newPortState out slot with
      | .error stop => (.error stop, s)
      | .ok port =>
        let (result, port) := describe p out port
        (result, { s with portStates := Function.update s.portStates i (some port) })

/-- A slot that fails to be disabled stays enabled. -/
def detachDevice (disableSlot : Except Errno Unit) (i : Nat) (s : Enumeration) :
    Except Errno Unit × Enumeration :=
  match s.portStates i with
  | none => (.ok (), s)
  | some port =>
    let s := { s with portStates := Function.update s.portStates i none }
    match disableSlot with
    | .error code => (.error code, s)
    | .ok () => (.ok (), { s with slots := s.slots.erase port.slot })

inductive Call where
  | attach (i : U8) (out : AttachOutcomes)
  | detach (i : Nat) (disableSlot : Except Errno Unit)

section

variable (p : Profile) (s : Enumeration)

/-- A controller enables a slot that is not enabled yet. -/
def freshSlot (out : AttachOutcomes) : Bool :=
  match out.slot with
  | .ok slot => slot ∉ s.slots
  | .error _ => true

/-- One call of the enumerator. What it has done stays when it fails or panics. -/
def step : Call → Option Enumeration
  | .attach i out => if s.freshSlot out then some (attachDevice p out i.toNat s).2 else none
  | .detach i disableSlot => some (detachDevice disableSlot i s).2

/-! ### Accounts -/

def slotOf (i : Nat) : Option U8 := (s.portStates i).map PortState.slot

/-- The slots of the entries are enabled, and each is in one entry only. -/
def Covers : Prop := Covered s.slotOf s.slots

/-- The slots that are enabled are those of the entries. -/
def Sound : Prop := Accounts s.slotOf s.slots

def Described : Prop := ∀ i port, s.portStates i = some port → port.devDesc.isSome

/-- An attach that does not succeed leaves no entry for its port, and no slot enabled. -/
def Reports : Call → Prop
  | .attach i out => (attachDevice p out i.toNat s).1 = .ok () ∨
      (attachDevice p out i.toNat s).2.portStates i.toNat = none ∧
        (attachDevice p out i.toNat s).2.slots = s.slots
  | .detach _ _ => True

/-- After an attach that succeeds, the entry of the port is described. -/
def Describes : Call → Prop
  | .attach i out => (attachDevice p out i.toNat s).1 = .ok () →
      ∀ port, (attachDevice p out i.toNat s).2.portStates i.toNat = some port → port.devDesc.isSome
  | .detach _ _ => True

/-! ### What may fail -/

/-- The device gets its address, so that there is an entry. -/
structure Addressed (out : AttachOutcomes) : Prop where
  input : out.input = .ok ()
  ring : ∃ page, out.ring = .ok page
  speed : ∃ speed, out.speed = some speed ∧ ∃ size, initialPacketSize speed = .ok size
  address : out.address = .ok ()

/-- The description is read. -/
structure Fetched (out : AttachOutcomes) : Prop where
  packetSize : ∃ packetSize, out.packetSize = .ok packetSize
  evaluateContext : out.evaluateContext = .ok ()
  desc : ∃ devDesc, out.answers.getDesc p 4089 = .ok devDesc

/-- Nothing fails once the slot is enabled. -/
structure Attaches (out : AttachOutcomes) : Prop extends Addressed out, Fetched p out where
  updatePipe : out.updatePipe = .ok ()

/-- The call enables a slot. -/
structure Enables (i : Nat) (out : AttachOutcomes) : Prop where
  free : s.portStates i = none
  connected : out.connected = true
  slot : out.slot.isOk

/-- Nothing fails between a slot and its entry. -/
def Houses : Call → Prop
  | .attach i out => s.Enables i.toNat out → Addressed out
  | .detach i disableSlot => (s.portStates i).isSome → disableSlot = .ok ()

/-- Nothing fails between an entry and its description. -/
def Fetches : Call → Prop
  | .attach i out => s.Enables i.toNat out → Addressed out → Fetched p out
  | .detach _ _ => True

/-- The port is not attached, and nothing fails after its slot. -/
def Unharmed : Call → Prop
  | .attach i out => s.portStates i.toNat = none ∧ (s.Enables i.toNat out → Attaches p out)
  | .detach _ _ => True

end

/-! ### One call -/

/-- What becomes of an attach. -/
inductive Attaching (p : Profile) (out : AttachOutcomes) (i : Nat) (s : Enumeration) :
    Except Stop Unit × Enumeration → Prop where
  | again : (s.portStates i).isSome → Attaching p out i s (.error (.errno .eagain), s)
  | idle {result} : s.portStates i = none → ¬ s.Enables i out → Attaching p out i s (result, s)
  | noEntry {slot stop} : s.Enables i out → out.slot = .ok slot → ¬ Addressed out →
      Attaching p out i s (.error stop, { s with slots := insert slot s.slots })
  | entry {slot port} : s.Enables i out → out.slot = .ok slot → Addressed out →
      port.slot = slot → port.devDesc = none → Attaching p out i s ((describe p out port).1,
        ⟨update s.portStates i (some (describe p out port).2), insert slot s.slots⟩)

section Calls

variable {p : Profile} {out : AttachOutcomes} {port : PortState} {slot : U8} {i : Nat}
  {s s' : Enumeration} {call : Call}

theorem newPortState_of_addressed (h : Addressed out) (slot : U8) :
    ∃ port, newPortState out slot = .ok port := by
  obtain ⟨page, hring⟩ := h.ring
  obtain ⟨speed, hspeed, size, hsize⟩ := h.speed
  simp only [newPortState, addressDevice, h.input, hring, h.address, hspeed, hsize, propagate,
    unwrap, checked_ok, ok_bind]
  exact ⟨_, rfl⟩

theorem newPortState_eq_ok (h : newPortState out slot = .ok port) :
    Addressed out ∧ port.slot = slot ∧ port.devDesc = none := by
  obtain ⟨⟨⟩, hinput, h⟩ := bind_eq_ok.mp h
  obtain ⟨⟨ring, input⟩, haddress, h⟩ := bind_eq_ok.mp h
  obtain ⟨page, hring, haddress⟩ := bind_eq_ok.mp haddress
  obtain ⟨speed, hspeed, haddress⟩ := bind_eq_ok.mp haddress
  obtain ⟨size, hsize, haddress⟩ := bind_eq_ok.mp haddress
  obtain ⟨⟨⟩, haddress, -⟩ := bind_eq_ok.mp haddress
  cases h
  refine ⟨⟨propagate_eq_ok.mp hinput, ⟨page, propagate_eq_ok.mp hring⟩, ⟨speed, ?_, size, ?_⟩,
    propagate_eq_ok.mp haddress⟩, rfl, rfl⟩
  · exact unwrap_eq_ok.mp (checked_eq_ok.mp hspeed)
  · exact checked_eq_ok.mp hsize

theorem describe_slot : (describe p out port).2.slot = port.slot := by
  unfold describe
  split
  · rfl
  · split
    · rfl
    · split <;> rfl

/-- A description that has been read is kept, even if the last step fails. -/
theorem describe_described_iff (h : port.devDesc = none) :
    (describe p out port).2.devDesc.isSome ↔ Fetched p out := by
  unfold describe
  split
  · exact iff_of_false (by simp [h]) fun fetched => by simpa [*] using fetched.packetSize
  · split
    · exact iff_of_false (by simp [h]) fun fetched => by simpa [*] using fetched.evaluateContext
    · split
      · exact iff_of_false (by simp [h]) fun fetched => by simpa [*] using fetched.desc
      · exact iff_of_true rfl ⟨⟨_, ‹_›⟩, ‹_›, ⟨_, ‹_›⟩⟩

theorem describe_ok_iff :
    (describe p out port).1 = .ok () ↔ Fetched p out ∧ out.updatePipe = .ok () := by
  unfold describe
  split
  · exact ⟨nofun, fun h => by simpa [*] using h.1.packetSize⟩
  · split
    · exact ⟨nofun, fun h => by simpa [*] using h.1.evaluateContext⟩
    · split
      · exact ⟨nofun, fun h => by simpa [*] using h.1.desc⟩
      · rw [propagate_eq_ok]
        exact (and_iff_right ⟨⟨_, ‹_›⟩, ‹_›, ⟨_, ‹_›⟩⟩).symm

theorem attaching_attachDevice (p : Profile) (out : AttachOutcomes) (i : Nat) (s : Enumeration) :
    Attaching p out i s (attachDevice p out i s) := by
  unfold attachDevice
  split
  · exact .again ‹_›
  · have free := not_isSome_iff_eq_none.mp ‹_›
    split
    · exact .idle free fun h => by simp_all [h.connected]
    · have connected : out.connected = true := by simp_all
      split
      · rename_i hslot
        exact .idle free fun h => by cases hslot ▸ h.slot
      · rename_i slot hslot
        have enables : s.Enables i out := ⟨free, connected, by rw [hslot]; rfl⟩
        dsimp only
        split
        · rename_i hentry
          refine .noEntry enables hslot fun addressed => ?_
          obtain ⟨port, hport⟩ := newPortState_of_addressed addressed slot
          cases hentry.symm.trans hport
        · obtain ⟨addressed, hsame, hdesc⟩ := newPortState_eq_ok ‹_›
          exact .entry enables hslot addressed hsame hdesc

/-- An attach is a step if the slot is a new one. -/
theorem step_attach {i : U8} (h : step p s (.attach i out) = some s') :
    (∀ slot, out.slot = .ok slot → slot ∉ s.slots) ∧ Attaching p out i.toNat s
      ((attachDevice p out i.toNat s).1, s') := by
  simp only [step] at h
  split at h
  · rename_i hfresh
    cases h
    refine ⟨fun slot hslot => ?_, attaching_attachDevice p out i.toNat s⟩
    simpa [freshSlot, hslot] using hfresh
  · cases h

theorem slotOf_update {entry : Option PortState} {slots : Finset U8} :
    slotOf ⟨update s.portStates i entry, slots⟩ = update s.slotOf i (entry.map PortState.slot) :=
  Function.comp_update (Option.map PortState.slot) s.portStates i entry

theorem slotOf_eq_some (h : s.portStates i = some port) : s.slotOf i = some port.slot := by
  rw [slotOf, h]
  rfl

/-- Whatever fails, the slots of the entries are enabled. -/
theorem covers_step (covers : s.Covers) (h : step p s call = some s') : s'.Covers := by
  cases call with
  | attach =>
    obtain ⟨fresh, hattach⟩ := step_attach h
    generalize (attachDevice p _ _ s).1 = result at hattach
    cases hattach with
    | again | idle => exact covers
    | noEntry => exact covers.leak
    | entry _ hslot _ hsame =>
      unfold Covers
      rw [slotOf_update, map_some, describe_slot, hsame]
      exact covers.take (fresh _ hslot)
  | detach i disableSlot =>
    cases h
    unfold detachDevice
    cases hport : s.portStates i with
    | none => exact covers
    | some port =>
      cases disableSlot with
      | error =>
        unfold Covers
        rw [slotOf_update]
        exact covers.drop
      | ok =>
        unfold Covers
        rw [slotOf_update]
        exact covers.giveBack (slotOf_eq_some hport)

/-- From an exact account, a call leads to one exactly if nothing fails between a slot and its
entry. -/
theorem sound_step_iff (sound : s.Sound) (h : step p s call = some s') : s'.Sound ↔ s.Houses call := by
  have covers := sound.toCovered
  cases call with
  | attach i =>
    obtain ⟨fresh, hattach⟩ := step_attach h
    generalize (attachDevice p _ _ s).1 = result at hattach
    cases hattach with
    | again hentry =>
      exact iff_of_true sound fun enables => by simp [enables.free] at hentry
    | idle _ hidle => exact iff_of_true sound fun enables => absurd enables hidle
    | noEntry enables hslot hnot =>
      exact iff_of_false (covers.not_accounts_leak (fresh _ hslot)) fun h => hnot (h enables)
    | entry enables hslot addressed hsame =>
      refine iff_of_true ?_ fun _ => addressed
      unfold Sound
      rw [slotOf_update, map_some, describe_slot, hsame]
      refine sound.take (fresh _ hslot) ?_
      rw [slotOf, enables.free]
      rfl
  | detach i disableSlot =>
    cases h
    simp only [detachDevice, Houses]
    cases hport : s.portStates i with
    | none => exact iff_of_true sound nofun
    | some port =>
      have hholds := slotOf_eq_some hport
      cases disableSlot with
      | error =>
        refine iff_of_false ?_ fun h => by cases h rfl
        unfold Sound
        rw [slotOf_update]
        exact covers.not_accounts_drop hholds
      | ok =>
        refine iff_of_true ?_ fun _ => rfl
        unfold Sound
        rw [slotOf_update]
        exact sound.giveBack hholds

theorem described_update {entry : Option PortState} {slots : Finset U8} (described : s.Described) :
    Described ⟨update s.portStates i entry, slots⟩ ↔
      ∀ port, entry = some port → port.devDesc.isSome := by
  constructor
  · intro h port hport
    exact h i port ((update_self i entry s.portStates).trans hport)
  · intro h j port hj
    change update s.portStates i entry j = some port at hj
    rcases eq_or_ne j i with rfl | hne
    · rw [update_self] at hj
      exact h port hj
    · rw [update_of_ne hne] at hj
      exact described j port hj

/-- An entry is left without a description exactly if the description is not read. -/
theorem described_step_iff (described : s.Described) (h : step p s call = some s') :
    s'.Described ↔ Fetches p s call := by
  cases call with
  | attach i =>
    obtain ⟨-, hattach⟩ := step_attach h
    generalize (attachDevice p _ _ s).1 = result at hattach
    cases hattach with
    | again hentry =>
      exact iff_of_true described fun enables => by simp [enables.free] at hentry
    | idle _ hidle => exact iff_of_true described fun enables => absurd enables hidle
    | noEntry _ _ hnot => exact iff_of_true described fun _ addressed => absurd addressed hnot
    | entry enables hslot addressed _ hdesc =>
      rw [described_update described]
      constructor
      · exact fun h _ _ => (describe_described_iff hdesc).mp (h _ rfl)
      · rintro h _ ⟨⟩
        exact (describe_described_iff hdesc).mpr (h enables addressed)
  | detach i disableSlot =>
    cases h
    refine iff_of_true ?_ trivial
    unfold detachDevice
    cases s.portStates i with
    | none => exact described
    | some port =>
      cases disableSlot with
      | error => exact (described_update described).mpr nofun
      | ok => exact (described_update described).mpr nofun

/-- What an attach reports depends on this call alone. -/
theorem reports_iff (h : step p s call = some s') : Reports p s call ↔ Unharmed p s call := by
  cases call with
  | attach i out =>
    have hattach := attaching_attachDevice p out i.toNat s
    have fresh := (step_attach h).1
    simp only [Reports, Unharmed]
    generalize attachDevice p out i.toNat s = result at hattach ⊢
    cases hattach with
    | again hentry =>
      have attached := isSome_iff_ne_none.mp hentry
      exact iff_of_false (by rintro (⟨⟨⟩⟩ | ⟨hnone, -⟩); exact attached hnone) fun h => attached h.1
    | idle free hidle =>
      exact iff_of_true (.inr ⟨free, rfl⟩) ⟨free, fun enables => absurd enables hidle⟩
    | noEntry enables hslot hnot =>
      refine iff_of_false ?_ fun h => hnot (h.2 enables).toAddressed
      rintro (⟨⟨⟩⟩ | ⟨-, hslots⟩)
      exact fresh _ hslot (Finset.insert_eq_self.mp hslots)
    | entry enables hslot addressed =>
      simp only [update_self, reduceCtorEq, false_and, or_false, describe_ok_iff]
      constructor
      · exact fun ⟨fetched, hpipe⟩ => ⟨enables.free, fun _ => ⟨addressed, fetched, hpipe⟩⟩
      · exact fun h => ⟨(h.2 enables).toFetched, (h.2 enables).updatePipe⟩
  | detach => exact Iff.rfl

/-- An attach that succeeds has described the device, whatever else happened. -/
theorem describes (s : Enumeration) (call : Call) : Describes p s call := by
  cases call with
  | attach i out =>
    have hattach := attaching_attachDevice p out i.toNat s
    simp only [Describes]
    generalize attachDevice p out i.toNat s = result at hattach ⊢
    cases hattach with
    | again | noEntry => rintro ⟨⟩
    | idle free =>
      intro _ port hport
      cases free.symm.trans hport
    | entry _ _ _ _ hdesc =>
      intro hok port hport
      cases (update_self _ _ _).symm.trans hport
      exact (describe_described_iff hdesc).mpr (describe_ok_iff.mp hok).1
  | detach => trivial

end Calls

/-- **Attached devices.** In every run of calls on any ports, whatever fails, the slots of the
entries are enabled and each is in one entry only, and an attach that succeeds has described its
device. An attach that does not succeed leaves neither an entry nor a slot exactly if its port was
not attached and nothing failed after the slot. No other slots are enabled exactly if nothing
ever fails between a slot and its entry, and no entry is without description exactly if each of
them could be read. -/
theorem slots_accounted_iff (p : Profile) {calls : List Call} {s : Enumeration}
    (h : run (step p) empty calls = some s) : Throughout (step p) empty Covers calls ∧
    Along (step p) empty
      (fun s call => Describes p s call ∧ (Reports p s call ↔ Unharmed p s call)) calls ∧
    (Throughout (step p) empty Sound calls ↔ Along (step p) empty Houses calls) ∧
    (Throughout (step p) empty Described calls ↔ Along (step p) empty (Fetches p) calls) := by
  have sound : Sound empty := Accounts.empty
  refine ⟨fun pre _ s hs => ?_, ?_, ?_, ?_⟩
  · exact invariant_of_run (I := Covers) sound.toCovered (fun s call s' => covers_step) hs
  · refine along_of_along (I := fun _ => True) (P := fun _ _ => True) trivial
      (fun _ _ _ _ _ _ => trivial) ?_ h fun _ _ _ _ _ _ => trivial
    exact fun s call s' _ _ hstep => ⟨describes s call, reports_iff hstep⟩
  · exact throughout_iff_along sound sound
      (fun s call s' hs hc hstep => (sound_step_iff hs hstep).mpr hc)
      (fun s call s' hs hstep => sound_step_iff hs hstep) h
  · exact throughout_iff_along (I := Described) nofun nofun
      (fun s call s' hs hc hstep => (described_step_iff hs hstep).mpr hc)
      (fun s call s' hs hstep => described_step_iff hs hstep) h

/-! ### A storage device -/

section Storage

/-- A storage device is plugged in, and nothing fails. -/
def storage (slot : U8) : AttachOutcomes where
  connected := true
  slot := .ok slot
  input := .ok ()
  ring := .ok ringPage
  speed := some highSpeed
  address := .ok ()
  packetSize := .ok 64
  evaluateContext := .ok ()
  answers := storageAnswers
  updatePipe := .ok ()

/-- The device does not take its address. -/
def unaddressed (slot : U8) : AttachOutcomes := { storage slot with address := .error .eio }

/-- The description of the device cannot be read. -/
def undescribed (slot : U8) : AttachOutcomes := { storage slot with packetSize := .error .eio }

theorem storage_addressed (slot : U8) : Addressed (storage slot) :=
  ⟨rfl, ⟨_, rfl⟩, ⟨_, rfl, _, rfl⟩, rfl⟩

theorem step_storage : ∃ port, step .release empty (.attach 0 (storage 1)) =
    some ⟨update empty.portStates 0 (some port), insert 1 empty.slots⟩ := by
  obtain ⟨port, hport⟩ := newPortState_of_addressed (storage_addressed 1) 1
  have hfresh : empty.freshSlot (storage 1) = true := rfl
  have hslot : (storage 1).slot = .ok 1 := rfl
  refine ⟨(describe .release (storage 1) port).2, ?_⟩
  simp only [step, hfresh, if_true, attachDevice, hslot, hport]
  rfl

/-- Two devices, of which the second cannot be described: both have their slots, and the first
is detached again. -/
theorem storage_accounted : Throughout (step .release) empty Sound
      [.attach 0 (storage 1), .attach 1 (undescribed 2), .detach 0 (.ok ())] := by
  obtain ⟨port, hstep⟩ := step_storage
  obtain ⟨s, hrun⟩ : ∃ s, run (step .release) empty
      [.attach 0 (storage 1), .attach 1 (undescribed 2), .detach 0 (.ok ())] = some s := by
    rw [run_cons, hstep]
    exact ⟨_, rfl⟩
  refine (slots_accounted_iff .release hrun).2.2.1.mpr (along_cons.mpr ⟨?_, fun s _ => ?_⟩)
  · exact fun _ => storage_addressed 1
  refine along_cons.mpr ⟨fun _ => ?_, fun s _ => along_cons.mpr ⟨fun _ => rfl, fun _ _ => along_nil⟩⟩
  exact ⟨rfl, ⟨_, rfl⟩, ⟨_, rfl, _, rfl⟩, rfl⟩

/-- A device that does not take its address leaves its slot enabled, and no entry holds it. One
that cannot be described leaves its entry too, without a description. Neither is reported as it
should be. -/
theorem failed_attach_leaves_slot :
    (∃ s, step .release empty (.attach 0 (unaddressed 1)) = some s ∧ ¬ s.Sound ∧
      (attachDevice .release (unaddressed 1) 0 empty).1 = .error (.errno .eio) ∧
      ¬ Reports .release empty (.attach 0 (unaddressed 1))) ∧
    ∃ s, step .release empty (.attach 0 (undescribed 1)) = some s ∧
      (attachDevice .release (undescribed 1) 0 empty).1 = .error (.errno .eio) ∧
      (s.portStates 0).map PortState.devDesc = some none ∧
      ¬ Reports .release empty (.attach 0 (undescribed 1)) := by
  refine ⟨⟨_, rfl, ?_, rfl, ?_⟩, ⟨_, rfl, rfl, rfl, ?_⟩⟩
  · intro sound
    obtain ⟨i, hi⟩ := sound.held 1 (Finset.mem_insert_self _ _)
    cases hi
  · rintro (⟨⟨⟩⟩ | ⟨-, hslots⟩)
    exact absurd hslots (by decide)
  · rintro (⟨⟨⟩⟩ | ⟨⟨⟩, -⟩)

end Storage

end Enumeration

end Scheme

end RedoxDrivers.Xhci
