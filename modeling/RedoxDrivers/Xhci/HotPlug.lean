import RedoxDrivers.Xhci.Attach

/-!
Devices that come and go on the ports of the root hub (`xhcid/src/xhci/device_enumerator.rs`,
`attach_device` and `detach_device` in `mod.rs`, `handle_port_status_change` in `irq_reactor.rs`).

The controller raises an event for each change on a port. The IRQ reactor turns it into a request for the
device enumerator, which takes one request after the other and only then reads the flags of the port: with a
device it attaches it, unless the port has an entry in `port_states` already, and without one it detaches
what there is. `poll` makes the requests for the devices that were there from the start.

A request says that something has changed, not what. If a device is unplugged and another one plugged in
before the enumerator has read the flags in between, it finds a device and an entry, and leaves both as they
are. `hotplug_iff` says that this, and flags that it panics on, is all that can go wrong.
-/

namespace RedoxDrivers.Xhci.HotPlug

open Lib Function List Option State

/-! ### Ports -/

/-- What the enumerator is doing about a port. -/
inductive Stage where
  /-- The request was taken from the queue. -/
  | received
  /-- The port is reset. -/
  | resetting
  /-- `attach_device` is called. -/
  | attaching
  /-- A slot is enabled and the device is addressed. -/
  | addressing
  /-- The device was addressed, and its entry is put into `port_states`. -/
  | inserting (device : Nat)
  /-- The descriptors are fetched. -/
  | fetching
  /-- `detach_device` is called. -/
  | detaching
deriving DecidableEq, Repr

structure Port where
  /-- `PORT_CCS`. -/
  connected : Bool
  /-- `PORT_CSC`. -/
  csc : Bool
  /-- How many devices have been connected so far: the number of the one that is there now or was last. -/
  plugs : Nat
  /-- The device that the entry of the port in `port_states` was made for. -/
  entry : Option Nat
  polled : Bool
  /-- When the device was connected there was no entry for another one, or it was about to be removed. -/
  clear : Bool
deriving DecidableEq, Repr

/-- The other flags of a port. -/
structure Flags where
  ped : Bool
  pp : Bool
  pr : Bool
deriving DecidableEq, Repr

namespace Port

variable (p : Port)

/-- The device of the entry, or of the one that is about to be inserted. -/
def made : Option Stage → Option Nat
  | some (.inserting device) => some device
  | _ => p.entry

def connect (stage : Option Stage) : Port :=
  { p with
    connected := true
    csc := true
    plugs := p.plugs + 1
    clear := (p.made stage).isNone || decide (stage = some .detaching) }

def disconnect : Port := { p with connected := false, csc := true }

end Port

inductive Outcome where
  | goOn (stage : Stage)
  | done
  | panic
deriving DecidableEq, Repr

/-- The next step of the enumerator, with what it reads. Commands and descriptor fetches succeed. -/
def Stage.next (p : Port) (flags : Flags) : Stage → Outcome × Port
  | .received =>
    if p.connected then
      if flags.ped then (.goOn .attaching, p)
      else if flags.pp && !flags.pr then (.goOn .resetting, p)
      else (.panic, p)
    else (.goOn .detaching, p)
  -- PORTSC is written as it was read, and that clears `PORT_CSC` too
  | .resetting => (.goOn .attaching, { p with csc := false })
  | .attaching =>
    -- EAGAIN if there is an entry; a warning if the device is gone again
    if p.entry.isSome then (.done, p)
    else if p.connected then (.goOn .addressing, p)
    else (.done, p)
  | .addressing => (.goOn (.inserting p.plugs), p)
  | .inserting device => (.goOn .fetching, { p with entry := some device })
  | .fetching => (.done, p)
  | .detaching => (.done, { p with entry := none })

/-! ### The calls of the enumerator -/

/-- What becomes of a port, if nothing else happens to it. -/
def Stage.complete (flags : Flags) : Nat → Stage → Port → Port
  | 0, _, p => p
  | fuel + 1, stage, p =>
    match stage.next p flags with
    | (.goOn stage', p') => complete flags fuel stage' p'
    | (.done, p') => p'
    | (.panic, p') => p'

section Calls

open Scheme Scheme.Enumeration

variable {profile : Profile} {s : Enumeration} {i : Nat} {p : Port} (flags : Flags)

/-- From `attaching` on the stages are those of `attach_device`. -/
theorem complete_attaching {out : AttachOutcomes} {slot : U8} {port : Scheme.PortState}
    (hentry : (s.portStates i).isSome = p.entry.isSome)
    (hconnected : out.connected = p.connected) (hslot : out.slot = .ok slot)
    (hport : newPortState out slot = .ok port) :
    ((attachDevice profile out i s).2.portStates i).isSome =
      (Stage.complete flags 4 .attaching p).entry.isSome := by
  simp only [attachDevice, hentry, hconnected, hslot, hport, Stage.complete, Stage.next]
  cases he : p.entry.isSome with
  | true => simp [hentry, he]
  | false => cases hc : p.connected <;> simp [hentry, he]

/-- And `detaching` is `detach_device`. -/
theorem complete_detaching (disableSlot : Except Errno Unit) :
    ((detachDevice disableSlot i s).2.portStates i).isSome =
      (Stage.complete flags 1 .detaching p).entry.isSome := by
  unfold detachDevice
  cases hstate : s.portStates i with
  | none => simp [Stage.complete, Stage.next, hstate]
  | some => cases disableSlot <;> simp [Stage.complete, Stage.next]

end Calls

/-! ### The driver -/

variable {ι : Type} [DecidableEq ι]

inductive Phase (ι : Type) where
  | idle
  | busy (i : ι) (stage : Stage)
  | panicked

def Phase.stage (phase : Phase ι) (i : ι) : Option Stage :=
  match phase with
  | .busy j stage => if j = i then some stage else none
  | _ => none

def Outcome.phase (i : ι) : Outcome → Phase ι
  | .goOn stage => .busy i stage
  | .done => .idle
  | .panic => .panicked

structure State (ι : Type) where
  ports : ι → Port
  /-- The Port Status Change events that the reactor has not seen yet. -/
  events : List ι
  /-- The port whose `PORT_CSC` the reactor is about to clear. -/
  clearing : Option ι
  requests : List ι
  phase : Phase ι

inductive Event (ι : Type) where
  | connect (i : ι)
  | disconnect (i : ι)
  /-- Another change of the port, such as the end of a reset. -/
  | portChange (i : ι)
  | poll (i : ι)
  | deliver
  | clearCsc
  /-- The enumerator goes on. If it reads the flags of a port then these are the other ones. -/
  | enumerate (flags : Flags)

/-- The state before `poll`, with the devices that are there and the values of `PORT_CSC`. -/
def State.start (connected csc : ι → Bool) : State ι where
  ports i := ⟨connected i, csc i, (connected i).toNat, none, false, true⟩
  events := []
  clearing := none
  requests := []
  phase := .idle

def enumerateStep (s : State ι) (flags : Flags) : Option (State ι) :=
  match s.phase with
  | .panicked => none
  | .idle =>
    match s.requests with
    | [] => none
    | i :: rest => some { s with requests := rest, phase := .busy i .received }
  | .busy i stage =>
    match stage.next (s.ports i) flags with
    | (outcome, p) => some { s with ports := update s.ports i p, phase := outcome.phase i }

def step (s : State ι) : Event ι → Option (State ι)
  | .connect i =>
    if (s.ports i).connected then none
    else some { s with
      ports := update s.ports i ((s.ports i).connect (s.phase.stage i))
      events := s.events ++ [i] }
  | .disconnect i =>
    if (s.ports i).connected then some { s with
      ports := update s.ports i (s.ports i).disconnect
      events := s.events ++ [i] }
    else none
  | .portChange i => some { s with events := s.events ++ [i] }
  | .poll i =>
    if (s.ports i).polled then none
    else some { s with
      ports := update s.ports i { s.ports i with polled := true }
      requests := if (s.ports i).connected || (s.ports i).csc then s.requests ++ [i] else s.requests }
  | .deliver =>
    match s.events, s.clearing with
    | i :: rest, none => some { s with
        events := rest
        clearing := some i
        requests := s.requests ++ [i] }
    | _, _ => none
  | .clearCsc =>
    match s.clearing with
    | none => none
    | some i => some { s with
        ports := update s.ports i { s.ports i with csc := false }
        clearing := none }
  | .enumerate flags => enumerateStep s flags

/-! ### What is wanted -/

/-- There are no more requests for the port. -/
structure Settled (s : State ι) (i : ι) : Prop where
  polled : (s.ports i).polled = true
  events : i ∉ s.events
  requests : i ∉ s.requests
  phase : s.phase.stage i = none

/-- How much there is left to do for the reactor and the enumerator. -/
def Stage.weight : Stage → Nat
  | .received => 7
  | .resetting => 6
  | .attaching => 5
  | .addressing => 4
  | .inserting _ => 3
  | .fetching => 2
  | .detaching => 1

def Phase.weight : Phase ι → Nat
  | .busy _ stage => stage.weight
  | _ => 0

def State.weight (s : State ι) : Nat :=
  10 * s.events.length + s.clearing.toList.length + 8 * s.requests.length + s.phase.weight

/-- What holds of a port, if `awaited` says that a request for it is still to be taken. -/
structure PortOk (p : Port) (awaited : Prop) (stage : Option Stage) : Prop where
  fresh : ∀ k, p.made stage = some k → p.connected = true → p.clear = true →
    stage = some .detaching ∨ k = p.plugs
  stale : p.connected = true → p.clear = false →
    stage ≠ some .detaching ∧ ∃ k, p.made stage = some k ∧ k ≠ p.plugs
  le : ∀ k, p.made stage = some k → k ≤ p.plugs
  present : p.connected = true → p.polled = false ∨ awaited ∨ p.made stage ≠ none ∨
    stage ∈ [some .received, some .resetting, some .attaching, some .addressing]
  absent : p.connected = false → awaited ∨ stage = some .received ∨ stage = some .detaching ∨
    stage = none ∧ p.entry = none
  detach : p.connected = true → stage = some .detaching → awaited
  address : stage = some .addressing → p.entry = none

namespace PortOk

variable {p : Port} {awaited awaited' : Prop} {stage stage' : Option Stage}

theorem start (connected csc : Bool) :
    PortOk ⟨connected, csc, connected.toNat, none, false, true⟩ awaited none where
  fresh := nofun
  stale := nofun
  le := nofun
  present := fun _ => .inl rfl
  absent := fun _ => .inr (.inr (.inr ⟨rfl, rfl⟩))
  detach := nofun
  address := nofun

section

variable (h : PortOk p awaited stage)

include h

theorem mono (himp : awaited → awaited') : PortOk p awaited' stage :=
  { h with
    present := fun hc => (h.present hc).imp_right (Or.imp_left himp)
    absent := fun hc => (h.absent hc).imp_left himp
    detach := fun hc hs => himp (h.detach hc hs) }

theorem connect (hawaited : awaited') : PortOk (p.connect stage) awaited' stage := by
  refine
    { h with
      fresh := ?_
      stale := ?_
      le := fun k hk => Nat.le_succ_of_le (h.le k hk)
      present := fun _ => .inr (.inl hawaited)
      absent := nofun
      detach := fun _ _ => hawaited }
  · intro k hk _ hclear
    -- There is an entry, so it is about to be removed.
    have hmade : p.made stage = some k := hk
    simp only [Port.connect, hmade, isNone_some, Bool.false_or, decide_eq_true_eq] at hclear
    exact .inl hclear
  · intro _ hclear
    simp only [Port.connect, Bool.or_eq_false_iff, decide_eq_false_iff_not] at hclear
    obtain ⟨hmade, hstage⟩ := hclear
    obtain ⟨k, hk⟩ := isSome_iff_exists.mp (isNone_eq_false_iff.mp hmade)
    exact ⟨hstage, k, hk, Nat.ne_of_lt (Nat.lt_succ_of_le (h.le k hk))⟩

theorem disconnect (hawaited : awaited') : PortOk p.disconnect awaited' stage :=
  { h with
    fresh := nofun
    stale := nofun
    present := nofun
    absent := fun _ => .inl hawaited
    detach := nofun }

/-- `PORT_CSC` only matters to `poll`. -/
theorem withCsc (csc : Bool) : PortOk { p with csc } awaited stage :=
  { h with }

theorem poll (himp : awaited → awaited') (hc : p.connected = true → awaited') :
    PortOk { p with polled := true } awaited' stage :=
  { h with
    present := fun hconnected => .inr (.inl (hc hconnected))
    absent := fun hn => (h.absent hn).imp_left himp
    detach := fun hconnected _ => hc hconnected }

/-! The steps of the enumerator. -/

/-- Another stage, with the same entry. -/
theorem restage (hs : stage ≠ some .detaching) (hs' : stage' ≠ some .detaching)
    (hmade : p.made stage' = p.made stage)
    (present : p.connected = true → p.polled = false ∨ awaited' ∨ p.made stage' ≠ none ∨
      stage' ∈ [some .received, some .resetting, some .attaching, some .addressing])
    (absent : p.connected = false → awaited' ∨ stage' = some .received ∨ stage' = none ∧ p.entry = none)
    (address : stage' = some .addressing → p.entry = none) : PortOk p awaited' stage' where
  fresh := fun k hk hc hclear => .inr ((h.fresh k (hmade.symm.trans hk) hc hclear).resolve_left hs)
  stale := by
    intro hc hclear
    rw [hmade]
    exact ⟨hs', (h.stale hc hclear).2⟩
  le := by
    rw [hmade]
    exact h.le
  present := present
  absent := fun hc => (absent hc).imp_right (Or.imp_right .inr)
  detach := fun _ hstage => absurd hstage hs'
  address := address

end

theorem receive (h : PortOk p awaited none) : PortOk p awaited' (some .received) :=
  h.restage nofun nofun rfl (fun _ => by simp) (fun _ => .inr (.inl rfl)) nofun

theorem sawEmpty (h : PortOk p awaited (some .received)) (hc : ¬ p.connected = true) :
    PortOk p awaited (some .detaching) where
  fresh := fun _ _ hn => absurd hn hc
  stale := fun hn => absurd hn hc
  le := h.le
  present := fun hn => absurd hn hc
  absent := fun _ => .inr (.inr (.inl rfl))
  detach := fun hn => absurd hn hc
  address := nofun

theorem sawDevice (h : PortOk p awaited (some .received)) (hc : p.connected = true) {stage : Stage}
    (hstage : stage = .resetting ∨ stage = .attaching) : PortOk p awaited (some stage) := by
  have hgone : p.connected ≠ false := by simp [hc]
  rcases hstage with rfl | rfl
  all_goals exact h.restage nofun nofun rfl (fun _ => by simp) (fun hn => absurd hn hgone) nofun

/-- While the enumerator attaches a device, a disconnect has raised an event that is still to come. -/
theorem awaited_of_absent (h : PortOk p awaited stage) (hc : p.connected = false)
    (hstage : stage ≠ none ∧ stage ≠ some .received ∧ stage ≠ some .detaching) : awaited := by
  obtain ⟨hnone, hreceived, hdetaching⟩ := hstage
  simpa [hnone, hreceived, hdetaching] using h.absent hc

theorem reset (h : PortOk p awaited (some .resetting)) : PortOk p awaited (some .attaching) :=
  h.restage nofun nofun rfl (fun _ => by simp) (fun hc => .inl (h.awaited_of_absent hc (by simp))) nofun

theorem attachNone (h : PortOk p awaited (some .attaching)) (hdone : p.connected = true → p.entry ≠ none) :
    PortOk p awaited none :=
  h.restage nofun nofun rfl (fun hc => .inr (.inr (.inl (hdone hc))))
    (fun hc => .inl (h.awaited_of_absent hc (by simp))) nofun

theorem addressed (h : PortOk p awaited (some .addressing)) : PortOk p awaited (some (.inserting p.plugs)) where
  fresh := fun _ hk _ _ => .inr (some.inj hk).symm
  stale := by
    intro hc hclear
    obtain ⟨-, k, hk, -⟩ := h.stale hc hclear
    have hnone : p.made (some .addressing) = none := h.address rfl
    simp [hnone] at hk
  le := fun _ hk => Nat.le_of_eq (some.inj hk).symm
  present := fun _ => .inr (.inr (.inl nofun))
  absent := fun hc => .inl (h.awaited_of_absent hc (by simp))
  detach := nofun
  address := nofun

theorem inserted {k : Nat} (h : PortOk p awaited (some (.inserting k))) :
    PortOk { p with entry := some k } awaited (some .fetching) where
  fresh := fun k' hk hc hclear => .inr ((h.fresh k' hk hc hclear).resolve_left nofun)
  stale := fun hc hclear => ⟨nofun, (h.stale hc hclear).2⟩
  le := h.le
  present := fun _ => .inr (.inr (.inl nofun))
  absent := fun hc => .inl (h.awaited_of_absent hc (by simp))
  detach := nofun
  address := nofun

theorem fetched (h : PortOk p awaited (some .fetching)) : PortOk p awaited none := by
  refine h.restage nofun nofun rfl (fun hc => ?_) (fun hc => .inl (h.awaited_of_absent hc (by simp))) nofun
  simpa [Port.made] using h.present hc

theorem detached (h : PortOk p awaited (some .detaching)) : PortOk { p with entry := none } awaited none where
  fresh := nofun
  stale := fun hc hclear => absurd rfl (h.stale hc hclear).1
  le := nofun
  present := fun hc => .inr (.inl (h.detach hc rfl))
  absent := fun _ => .inr (.inr (.inr ⟨rfl, rfl⟩))
  detach := nofun
  address := nofun

end PortOk

/-- What the enumerator is doing about the port afterwards. -/
def Outcome.stage : Outcome → Option Stage
  | .goOn stage => some stage
  | .done => none
  | .panic => none

/-- The enumerator keeps what holds of the port. -/
theorem PortOk.next {p : Port} {awaited : Prop} {stage : Stage} {flags : Flags} {outcome : Outcome} {p' : Port}
    (h : PortOk p awaited (some stage)) (hnext : stage.next p flags = (outcome, p'))
    (hpanic : outcome ≠ .panic) : PortOk p' awaited outcome.stage := by
  cases stage with
  | received =>
    simp only [Stage.next] at hnext
    split at hnext
    · rename_i hc
      split at hnext
      · cases hnext
        exact h.sawDevice hc (.inr rfl)
      · split at hnext
        · cases hnext
          exact h.sawDevice hc (.inl rfl)
        · cases hnext
          exact absurd rfl hpanic
    · rename_i hc
      cases hnext
      exact h.sawEmpty hc
  | resetting =>
    cases hnext
    exact h.reset.withCsc false
  | attaching =>
    simp only [Stage.next] at hnext
    split at hnext
    · rename_i hentry
      cases hnext
      exact h.attachNone fun _ => isSome_iff_ne_none.mp hentry
    · rename_i hentry
      split at hnext
      · cases hnext
        exact h.restage nofun nofun rfl (fun _ => by simp [Outcome.stage])
          (fun hc => .inl (h.awaited_of_absent hc (by simp))) fun _ => not_isSome_iff_eq_none.mp hentry
      · rename_i hc
        cases hnext
        exact h.attachNone fun hn => absurd hn hc
  | addressing =>
    cases hnext
    exact h.addressed
  | inserting =>
    cases hnext
    exact h.inserted
  | fetching =>
    cases hnext
    exact h.fetched
  | detaching =>
    cases hnext
    exact h.detached

/-- A port with nothing left to do has an entry exactly if there is a device. It is the device's own exactly if
the port was clear when the device came. -/
theorem PortOk.settled {p : Port} (h : PortOk p False none) (hpolled : p.polled = true) :
    p.entry = (if p.connected then some p.plugs else none) ↔ (p.connected = true → p.clear = true) := by
  cases hc : p.connected with
  | false =>
    have hnone : p.entry = none := by simpa using h.absent hc
    simp [hnone]
  | true =>
    have hsome : p.entry ≠ none := by simpa [hpolled, Port.made] using h.present hc
    obtain ⟨k, hk⟩ := ne_none_iff_exists'.mp hsome
    rw [hk]
    cases hclear : p.clear with
    | true =>
      have hown := (h.fresh k hk hc hclear).resolve_left nofun
      simp [hown]
    | false =>
      obtain ⟨-, k', hk', hother⟩ := h.stale hc hclear
      obtain rfl : k = k' := by simpa [Port.made, hk] using hk'
      simpa using hother

/-! ### What one step can do -/

section Step

variable {s s' : State ι} {e : Event ι} {flags : Flags}

/-- A step. The enumerator takes a request or goes on with the one that it has taken. -/
inductive Move (s : State ι) : Event ι → State ι → Prop where
  | connect (i) : Move s (.connect i) { s with
      ports := update s.ports i ((s.ports i).connect (s.phase.stage i))
      events := s.events ++ [i] }
  | disconnect (i) : Move s (.disconnect i) { s with
      ports := update s.ports i (s.ports i).disconnect
      events := s.events ++ [i] }
  | portChange (i) : Move s (.portChange i) { s with events := s.events ++ [i] }
  | poll (i) : Move s (.poll i) { s with
      ports := update s.ports i { s.ports i with polled := true }
      requests := if (s.ports i).connected || (s.ports i).csc then s.requests ++ [i] else s.requests }
  | deliver {i rest} : s.events = i :: rest → s.clearing = none →
      Move s .deliver { s with
        events := rest, clearing := some i, requests := s.requests ++ [i] }
  | clearCsc {i} : s.clearing = some i → Move s .clearCsc { s with
      ports := update s.ports i { s.ports i with csc := false }, clearing := none }
  | receive {flags i rest} : s.phase = .idle → s.requests = i :: rest →
      Move s (.enumerate flags) { s with requests := rest, phase := .busy i .received }
  | goOn {flags i stage} : s.phase = .busy i stage → Move s (.enumerate flags) { s with
      ports := update s.ports i (stage.next (s.ports i) flags).2
      phase := (stage.next (s.ports i) flags).1.phase i }

theorem step_move (h : step s e = some s') : Move s e s' := by
  unfold step enumerateStep at h
  split at h
  · split at h <;> cases h
    exact .connect _
  · split at h <;> cases h
    exact .disconnect _
  · cases h
    exact .portChange _
  · split at h <;> cases h
    exact .poll _
  · split at h <;> cases h
    exact .deliver ‹_› ‹_›
  · split at h <;> cases h
    exact .clearCsc ‹_›
  · split at h
    · cases h
    · split at h <;> cases h
      exact .receive ‹_› ‹_›
    · cases h
      exact .goOn ‹_›

/-! ### Panics -/

omit [DecidableEq ι] in
@[simp] theorem Outcome.weight_goOn (i : ι) (stage : Stage) :
    ((goOn stage).phase i).weight = stage.weight := rfl

omit [DecidableEq ι] in
@[simp] theorem Outcome.weight_done (i : ι) : (done.phase i).weight = 0 := rfl

omit [DecidableEq ι] in
@[simp] theorem Outcome.weight_panic (i : ι) : (panic.phase i).weight = 0 := rfl

def State.Awaited (s : State ι) (i : ι) : Prop := i ∈ s.events ∨ i ∈ s.requests

def State.Ok (s : State ι) : Prop := ∀ i, PortOk (s.ports i) (s.Awaited i) (s.phase.stage i)

theorem State.Ok.settled (h : s.Ok) {i : ι} (hi : Settled s i) :
    (s.ports i).entry = (if (s.ports i).connected then some (s.ports i).plugs else none) ↔
      ((s.ports i).connected = true → (s.ports i).clear = true) := by
  have hport := h i
  rw [hi.phase] at hport
  refine (hport.mono ?_).settled hi.polled
  rintro (hevent | hrequest)
  · exact hi.events hevent
  · exact hi.requests hrequest

end Step

/-! ### Whole runs -/

/-- The flags of a port that the controller has enabled. -/
def enabled : Flags := ⟨true, true, false⟩

/-- A hub with one port, and nothing plugged in. -/
def empty : State Unit := .start (fun _ => false) fun _ => false

end RedoxDrivers.Xhci.HotPlug
