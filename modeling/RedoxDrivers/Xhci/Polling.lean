import RedoxDrivers.Xhci.Reactor

/-!
The reactor's loop over the event ring (`run_polling` in
`xhcid/src/xhci/irq_reactor.rs`), together with the controller that posts events and
the other threads of the driver.

The loop keeps its position twice, in a local index and in the ring's own, which is one
ahead, and writes the latter to the dequeue register. `consumes_iff_advances` says that
in every run the events are dispatched in order, their slots cleared and the register
right, and that the loop goes on exactly if the event it is at is not Event Ring
Full, on which it waits forever, and can be dispatched.
-/

namespace RedoxDrivers.Xhci

open Lib List Nat Reactor

/-- `EventRing::erdp`. -/
def Ring.erdp (self : Ring) : U64 := self.register &&& 0xFFFFFFFFFFFFFFF0

/-- The pointer that `update_erdp` writes. (`event_handler_finished` writes it again, with
the flag EHB below it.) -/
def updateErdp (eventRing : Ring) : Except Fault U64 :=
  if eventRing.erdp &&& 0xFFFFFFFFFFFFFFFE &&& 0xFFFFFFFFFFFFFFF0 =
      eventRing.erdp &&& 0xFFFFFFFFFFFFFFFE then
    .ok (eventRing.erdp &&& 0xFFFFFFFFFFFFFFFE)
  else .error .assertFailed

/-- A full event ring is noticed, but `grow_event_ring` does nothing yet. -/
def checkEventRingFull (eventTrb : Trb) : Bool :=
  eventTrb.trbType == TrbType.hostController.toU8 &&
    eventTrb.completionCode == TrbCompletionCode.eventRingFull.toU8

def Reactor.handleRequests (self : Reactor) (irqReceiver : List State) : Reactor :=
  { self with states := self.states ++ irqReceiver }

/-- The loop's variables, the pointer last written to ERDP, and the events so far: those
that the controller posted and those that the loop dispatched. -/
structure Polling where
  reactor : Reactor
  irqReceiver : List State
  eventRing : Ring
  eventTrbIndex : Nat
  erdp : U64
  posted : List Trb
  dispatched : List Trb

/-! ### The dequeue register -/

theorem and_aligned (x : U64) : x &&& (0xFFFFFFFFFFFFFFF0 : U64) = x ↔ x.toNat % 16 = 0 := by
  have hmask : (0xFFFFFFFFFFFFFFF0 : U64) = BitVec.allOnes 64 <<< 4 := by decide
  have hshift : x &&& BitVec.allOnes 64 <<< 4 = (x >>> 4) <<< 4 := by
    ext i hi
    simp only [BitVec.getElem_and, BitVec.getElem_shiftLeft, BitVec.getElem_allOnes,
      BitVec.getElem_ushiftRight]
    by_cases h : i < 4
    · simp [h]
    · simp [h, hi, Nat.add_sub_cancel' (Nat.not_lt.mp h)]
  rw [hmask, hshift, ← BitVec.toNat_inj, BitVec.toNat_shiftLeft, BitVec.toNat_ushiftRight,
    Nat.shiftRight_eq_div_pow, Nat.shiftLeft_eq]
  omega

theorem updateErdp_slot {r : Ring} (aligned : r.base &&& ~~~0xF = r.base)
    (plain : r.cycle = false) :
    r.erdp = Ring.slotAddr r.base r.i ∧ updateErdp r = .ok (Ring.slotAddr r.base r.i) := by
  -- A slot of an aligned ring is aligned, so that the masks of ERDP change nothing.
  have haligned : Ring.slotAddr r.base r.i &&& (0xFFFFFFFFFFFFFFF0 : U64) = Ring.slotAddr r.base r.i := by
    have hbase : r.base.toNat % 16 = 0 := (and_aligned r.base).mp aligned
    rw [and_aligned, Ring.slotAddr]
    bv_omega
  have herdp : r.erdp = Ring.slotAddr r.base r.i := by
    have hregister : r.register = Ring.slotAddr r.base r.i := by
      unfold Ring.register
      rw [if_neg (by simp [plain])]
      exact BitVec.or_zero
    rw [Ring.erdp, hregister, haligned]
  have hmask : Ring.slotAddr r.base r.i &&& (0xFFFFFFFFFFFFFFFE : U64) =
      Ring.slotAddr r.base r.i := by
    rw [← haligned, BitVec.and_assoc]
    rfl
  refine ⟨herdp, ?_⟩
  unfold updateErdp
  rw [herdp, hmask, haligned, if_pos rfl]

namespace Polling

/-- The driver has initialised ERDP, and the loop has taken its first index. -/
def start (hci : Hci) (eventRing : Ring) : Except Fault Polling := do
  let (eventTrbIndex, ring) ← eventRing.nextIndex
  return ⟨⟨hci, [], [], []⟩, [], ring, eventTrbIndex, eventRing.erdp, [], []⟩

/-- One round of the loop. -/
def round (p : Profile) (self : Polling) : Except Fault Polling := do
  let eventTrb ← index self.eventRing.trbs self.eventTrbIndex
  if eventTrb.completionCode = TrbCompletionCode.invalid.toU8 then return self
  else if checkEventRingFull eventTrb then return self
  else
    let reactor ← (self.reactor.handleRequests self.irqReceiver).dispatch p eventTrb
    let trbs ← modifyAt self.eventRing.trbs self.eventTrbIndex fun _ => .reserved false
    let erdp ← updateErdp { self.eventRing with trbs }
    let (eventTrbIndex, eventRing) ← { self.eventRing with trbs }.nextIndex
    return { self with
      reactor, irqReceiver := [], eventRing, eventTrbIndex, erdp,
      dispatched := self.dispatched ++ [eventTrb] }

inductive Move where
  /-- The controller posts an event. -/
  | post (trb : Trb)
  /-- A task sends a state. -/
  | register (state : State)
  /-- Other threads work on the rings and the ports. -/
  | work (hci : Hci)
  /-- The loop makes a round. -/
  | poll

/-- The controller never runs past the dequeue pointer: it does not write to the slot at
ERDP unless the ring is empty. -/
def CanPost (self : Polling) (trb : Trb) : Prop :=
  trb.completionCode ≠ TrbCompletionCode.invalid.toU8 ∧
    (self.posted.length = self.dispatched.length ∨
      Ring.slotAddr self.eventRing.base (self.posted.length % self.eventRing.trbs.length) ≠
        self.erdp)

instance (self : Polling) (trb : Trb) : Decidable (self.CanPost trb) :=
  inferInstanceAs (Decidable (_ ∧ _))

def step (p : Profile) (s : Polling) : Move → Option Polling
  | .post trb => if s.CanPost trb then
      some { s with
        eventRing := { s.eventRing with
          trbs := s.eventRing.trbs.set (s.posted.length % s.eventRing.trbs.length) trb }
        posted := s.posted ++ [trb] } else none
  | .register state => if s.reactor.hci.Admits state then
      some { s with irqReceiver := s.irqReceiver ++ [state] } else none
  | .work hci => if s.reactor.hci.SameLayout hci then
      some { s with reactor := { s.reactor with hci } } else none
  | .poll => (s.round p).toOption

/-! ### The invariant -/

/-- The loop is at the slot of the first event that it has not dispatched, the ring one
ahead; the slots hold the events not yet dispatched, and nothing else. -/
structure Inv (base : U64) (n : Nat) (s : Polling) : Prop where
  plain : s.eventRing.link = false ∧ s.eventRing.cycle = false
  atBase : s.eventRing.base = base
  length : s.eventRing.trbs.length = n
  here : s.eventTrbIndex = s.dispatched.length % n
  ahead : s.eventRing.i = (s.dispatched.length + 1) % n
  erdp : s.erdp = Ring.slotAddr base (s.dispatched.length % n)
  order : s.dispatched <+: s.posted
  lag : s.posted.length ≤ s.dispatched.length + n
  waiting : ∀ (k : Nat) trb, s.posted[k]? = some trb → s.dispatched.length ≤ k →
    s.eventRing.trbs[k % n]? = some trb
  idle : ∀ k, s.posted.length ≤ k → k < s.dispatched.length + n →
    s.eventRing.trbs[k % n]? = some (.reserved false)
  valid : ∀ trb ∈ s.posted, trb.completionCode ≠ TrbCompletionCode.invalid.toU8
  ports : s.reactor.hci.ports.length ≤ 255
  fits : s.reactor.hci.CmdFits
  admits : ∀ state ∈ s.reactor.states ++ s.irqReceiver, s.reactor.hci.Admits state

variable {p : Profile} {base : U64} {n : Nat} {s s' : Polling} {hci : Hci}

theorem start_inv (placed : Placed base n) (hn : 0 < n) (ports : hci.ports.length ≤ 255)
    (fits : hci.CmdFits) (h : start hci (.new base n false) = .ok s) : Inv base n s := by
  have hlen : (Ring.new base n false).trbs.length = n := length_replicate
  have hnext := Ring.nextIndex_plain (r := .new base n false) rfl (by rw [hlen]; exact hn)
  obtain ⟨⟨i, ring⟩, hi, h⟩ := bind_eq_ok.mp h
  rw [hnext, hlen] at hi
  cases hi
  cases h
  exact {
    plain := ⟨rfl, rfl⟩
    atBase := rfl
    length := hlen
    here := (zero_mod n).symm
    ahead := rfl
    erdp := by
      rw [(updateErdp_slot (r := .new base n false) placed.aligned rfl).1]
      show Ring.slotAddr base 0 = Ring.slotAddr base (0 % n)
      rw [zero_mod]
    order := nil_prefix
    lag := zero_le _
    waiting := nofun
    idle := fun k _ _ => by
      have hk := mod_lt k hn
      simp only [Ring.new, getElem?_replicate, if_pos hk]
      rfl
    valid := nofun
    ports
    fits
    admits := nofun }

theorem Inv.post (inv : Inv base n s) (hn : 0 < n) {trb : Trb} (h : s.CanPost trb) :
    Inv base n { s with
      eventRing := { s.eventRing with
        trbs := s.eventRing.trbs.set (s.posted.length % s.eventRing.trbs.length) trb }
      posted := s.posted ++ [trb] } := by
  -- The slot that the controller writes to holds no event.
  have hroom : s.posted.length < s.dispatched.length + n := by
    rcases h.2 with hempty | hfree
    · omega
    · have hne : s.posted.length ≠ s.dispatched.length + n := by
        intro heq
        apply hfree
        rw [inv.atBase, inv.length, inv.erdp, heq, add_mod_right]
      have := inv.lag
      omega
  have hbehind := inv.order.length_le
  have hslot : s.posted.length % n < s.eventRing.trbs.length := by
    rw [inv.length]
    exact mod_lt _ hn
  rw [inv.length]
  exact { inv with
    length := by
      rw [length_set]
      exact inv.length
    order := inv.order.trans (prefix_append _ _)
    lag := by
      rw [length_append, length_singleton]
      exact hroom
    waiting := by
      intro k u hu hle
      change s.dispatched.length ≤ k at hle
      rcases getElem?_push hu with ⟨hlt, hold⟩ | ⟨rfl, rfl⟩
      · rw [getElem?_set_ne (slot_ne hlt (by omega)).symm]
        exact inv.waiting k u hold hle
      · exact getElem?_set_self hslot
    idle := by
      intro k hle hlt
      change k < s.dispatched.length + n at hlt
      rw [length_append, length_singleton] at hle
      rw [getElem?_set_ne (slot_ne hle (by omega))]
      exact inv.idle k (by omega) hlt
    valid := by
      intro u hu
      rcases mem_append.mp hu with hold | hnew
      · exact inv.valid u hold
      · rw [mem_singleton.mp hnew]
        exact h.1 }

/-! ### A round of the loop -/

/-- The state after the dispatch of `trb` has left `reactor`. -/
def advanced (s : Polling) (reactor : Reactor) (trb : Trb) : Polling :=
  { s with
    reactor, irqReceiver := []
    eventRing := { s.eventRing with
      trbs := s.eventRing.trbs.modify s.eventTrbIndex fun _ => .reserved false
      i := (s.eventRing.i + 1) % s.eventRing.trbs.length }
    eventTrbIndex := s.eventRing.i
    erdp := Ring.slotAddr s.eventRing.base s.eventRing.i
    dispatched := s.dispatched ++ [trb] }

section

variable (inv : Inv base n s)

include inv

/-- At an empty slot the loop waits. -/
theorem Inv.round_idle (hn : 0 < n) (h : s.posted[s.dispatched.length]? = none) :
    s.round p = .ok s := by
  have hslot : s.eventRing.trbs[s.eventTrbIndex]? = some (.reserved false) := by
    rw [inv.here]
    exact inv.idle _ (by simpa using h) (by omega)
  unfold round
  rw [index_eq_ok.mpr hslot, ok_bind, if_pos (Trb.completionCode_reserved false)]
  rfl

/-- At an event the loop waits if it is Event Ring Full, and otherwise dispatches it. -/
theorem Inv.round_event (placed : Placed base n) (hn : 0 < n) {trb : Trb}
    (h : s.posted[s.dispatched.length]? = some trb) :
    s.round p = if checkEventRingFull trb then .ok s else do
      let reactor ← (s.reactor.handleRequests s.irqReceiver).dispatch p trb
      return s.advanced reactor trb := by
  have hslot : s.eventRing.trbs[s.eventTrbIndex]? = some trb := by
    rw [inv.here]
    exact inv.waiting _ trb h le_rfl
  have hvalid := inv.valid trb (mem_of_getElem? h)
  unfold round
  rw [index_eq_ok.mpr hslot, ok_bind, if_neg hvalid]
  by_cases hfull : checkEventRingFull trb = true
  · rw [if_pos hfull, if_pos hfull]
    rfl
  · rw [if_neg hfull, if_neg hfull]
    cases hdispatch : (s.reactor.handleRequests s.irqReceiver).dispatch p trb with
    | error => rfl
    | ok =>
      have hclear : modifyAt s.eventRing.trbs s.eventTrbIndex (fun _ => .reserved false) = .ok _ :=
        modifyAt_eq_ok.mpr ⟨(List.getElem?_eq_some_iff.mp hslot).1, rfl⟩
      have hahead : s.eventRing.i < s.eventRing.trbs.length := by
        rw [inv.ahead, inv.length]
        exact mod_lt _ hn
      have herdp := (updateErdp_slot (r := { s.eventRing with
        trbs := s.eventRing.trbs.modify s.eventTrbIndex fun _ => .reserved false })
        (inv.atBase ▸ placed.aligned) inv.plain.2).2
      have hnext := Ring.nextIndex_plain (r := { s.eventRing with
        trbs := s.eventRing.trbs.modify s.eventTrbIndex fun _ => .reserved false })
        inv.plain.1 (by simpa using hahead)
      rw [ok_bind, ok_bind, hclear, ok_bind, herdp, ok_bind, hnext, ok_bind]
      simp only [advanced, length_modify]

/-- The round clears the slot of the event that it dispatched, and no other. -/
theorem Inv.advanced_slot (hn : 0 < n) (reactor : Reactor) (trb : Trb) {k : Nat}
    (hle : s.dispatched.length ≤ k) (hlt : k < s.dispatched.length + n) :
    (s.advanced reactor trb).eventRing.trbs[k % n]? =
      if k = s.dispatched.length then some (.reserved false) else s.eventRing.trbs[k % n]? := by
  show (s.eventRing.trbs.modify s.eventTrbIndex fun _ => .reserved false)[k % n]? = _
  rw [inv.here]
  by_cases hk : k = s.dispatched.length
  · have hslot : k % n < s.eventRing.trbs.length := by
      rw [inv.length]
      exact Nat.mod_lt _ hn
    rw [if_pos hk, ← hk, getElem?_modify_eq, getElem?_eq_getElem hslot]
    rfl
  · rw [if_neg hk]
    exact getElem?_modify_ne _ _ (slot_ne (by omega) hlt)

/-- A dispatch clears the slot and moves both indices on. -/
theorem Inv.advance (hn : 0 < n) {trb : Trb} {reactor : Reactor}
    (h : s.posted[s.dispatched.length]? = some trb)
    (hdispatch : (s.reactor.handleRequests s.irqReceiver).dispatch p trb = .ok reactor) :
    Inv base n (s.advanced reactor trb) := by
  have hlt : s.dispatched.length < s.posted.length := (List.getElem?_eq_some_iff.mp h).1
  have hlag := inv.lag
  have hlen : (s.advanced reactor trb).dispatched.length = s.dispatched.length + 1 := by
    simp [advanced]
  obtain ⟨layout, -, -, -, hsub⟩ := dispatch_conserves hdispatch inv.fits inv.admits
  exact {
    plain := inv.plain
    atBase := inv.atBase
    length := (length_modify _ _ _).trans inv.length
    here := by
      rw [hlen]
      exact inv.ahead
    ahead := by
      show (s.eventRing.i + 1) % s.eventRing.trbs.length = _
      rw [inv.ahead, inv.length, mod_add_mod, hlen]
    erdp := by
      show Ring.slotAddr s.eventRing.base s.eventRing.i = _
      rw [inv.atBase, inv.ahead, hlen]
    order := snoc_prefix inv.order h
    lag := by
      exact hlag.trans (by omega)
    waiting := by
      intro k u hu hle
      have hk : k < s.posted.length := (List.getElem?_eq_some_iff.mp hu).1
      rw [inv.advanced_slot hn reactor trb (by omega) (by omega), if_neg (by omega)]
      exact inv.waiting k u hu (by omega)
    idle := by
      intro k hle hk
      change s.posted.length ≤ k at hle
      by_cases hnear : k < s.dispatched.length + n
      · rw [inv.advanced_slot hn reactor trb (by omega) hnear, if_neg (by omega)]
        exact inv.idle k hle hnear
      · -- The slot of the dispatched event, one lap later.
        obtain rfl : k = s.dispatched.length + n := by omega
        rw [add_mod_right, inv.advanced_slot hn reactor trb le_rfl (by omega), if_pos rfl]
    valid := inv.valid
    ports := layout.ports.trans_le inv.ports
    fits := layout.cmdFits inv.fits
    admits := by
      intro state hstate
      rw [advanced, append_nil] at hstate
      exact layout.admits (inv.admits state (hsub.subset hstate)) }

/-- Every move keeps the invariant. -/
theorem Inv.step (placed : Placed base n) (hn : 0 < n) {move : Move} (h : s.step p move = some s') :
    Inv base n s' := by
  cases move with
  | post =>
    obtain ⟨hcan, ⟨⟩⟩ := Option.ite_none_right_eq_some.mp h
    exact inv.post hn hcan
  | register =>
    obtain ⟨hadmits, ⟨⟩⟩ := Option.ite_none_right_eq_some.mp h
    refine { inv with admits := ?_ }
    intro x hx
    rw [← append_assoc] at hx
    rcases mem_append.mp hx with hold | hnew
    · exact inv.admits x hold
    · rw [mem_singleton.mp hnew]
      exact hadmits
  | work =>
    obtain ⟨layout, ⟨⟩⟩ := Option.ite_none_right_eq_some.mp h
    exact { inv with
      ports := layout.ports.trans_le inv.ports
      fits := layout.cmdFits inv.fits
      admits := fun x hx => layout.admits (inv.admits x hx) }
  | poll =>
    have hround := toOption_eq_some.mp h
    cases hnext : s.posted[s.dispatched.length]? with
    | none =>
      rw [inv.round_idle hn hnext] at hround
      cases hround
      exact inv
    | some =>
      rw [inv.round_event placed hn hnext] at hround
      split at hround
      · cases hround
        exact inv
      · obtain ⟨reactor, hdispatch, hround⟩ := bind_eq_ok.mp hround
        cases hround
        exact inv.advance hn hnext hdispatch

/-! ### The event ring over whole runs -/

end

/-- The events that were dispatched are the first ones posted, each once and in order; ERDP
points behind the last of them; and their slots are clear until they are posted to again. -/
structure Tidy (base : U64) (n : Nat) (s : Polling) : Prop where
  order : s.dispatched <+: s.posted
  erdp : s.erdp = Ring.slotAddr base (s.dispatched.length % n)
  cleared : ∀ k < s.dispatched.length, s.posted.length ≤ k + n →
    s.eventRing.trbs[k % n]? = some (.reserved false)

/-- The next round dispatches the next event, if there is one. -/
def GoesOn (p : Profile) (s : Polling) : Prop :=
  ∀ trb, s.posted[s.dispatched.length]? = some trb →
    ∃ s', s.step p .poll = some s' ∧ s'.dispatched = s.dispatched ++ [trb]

/-- The next event, if there is one, is not Event Ring Full and can be dispatched. -/
def Advances (s : Polling) : Prop :=
  ∀ trb, s.posted[s.dispatched.length]? = some trb → checkEventRingFull trb = false ∧
    Dispatchable s.reactor.hci (s.reactor.states ++ s.irqReceiver) trb

theorem Inv.tidy (inv : Inv base n s) : Tidy base n s where
  order := inv.order
  erdp := inv.erdp
  cleared k hk hclear := by
    rw [← add_mod_right]
    exact inv.idle (k + n) hclear (by omega)

theorem Inv.goesOn_iff (inv : Inv base n s) (placed : Placed base n) (hn : 0 < n) :
    GoesOn p s ↔ Advances s := by
  refine forall₂_congr fun trb htrb => ?_
  have hdispatch : (∃ r, (s.reactor.handleRequests s.irqReceiver).dispatch p trb = .ok r) ↔
      Dispatchable s.reactor.hci (s.reactor.states ++ s.irqReceiver) trb :=
    dispatch_isOk inv.ports inv.fits inv.admits
  have hround : ∀ s', s.step p .poll = some s' ↔ s.round p = .ok s' := fun s' => toOption_eq_some
  simp only [hround, inv.round_event placed hn htrb]
  by_cases hfull : checkEventRingFull trb = true
  · -- The round ends where it began.
    rw [if_pos hfull]
    constructor
    · rintro ⟨s', ⟨⟩, hsame⟩
      simp at hsame
    · rintro ⟨hnot, -⟩
      rw [hfull] at hnot
      cases hnot
  · rw [if_neg hfull]
    constructor
    · rintro ⟨s', hs', -⟩
      obtain ⟨reactor, hreactor, -⟩ := bind_eq_ok.mp hs'
      exact ⟨Bool.not_eq_true _ ▸ hfull, hdispatch.mp ⟨reactor, hreactor⟩⟩
    · rintro ⟨-, hdispatchable⟩
      obtain ⟨reactor, hreactor⟩ := hdispatch.mpr hdispatchable
      exact ⟨s.advanced reactor trb, bind_eq_ok.mpr ⟨reactor, hreactor, rfl⟩, rfl⟩

/-- **The event ring is a queue, until the loop stops.** In every run of the loop with a
controller that posts any events, tasks that register states and threads that work on the
rings: the events dispatched are those posted first, in order, after the `k`-th of them
ERDP is the address of slot `(k + 1) % n`, and the slots are cleared. The loop then goes on
with the next event exactly if that one is not a Host Controller Event with the code
Event Ring Full and can be dispatched. -/
theorem consumes_iff_advances (p : Profile) (hci : Hci) (ports : hci.ports.length ≤ 255)
    (fits : hci.CmdFits) (base : U64) (n : Nat) (hn : 0 < n) (placed : Placed base n)
    (s₀ : Polling) (h₀ : start hci (.new base n false) = .ok s₀) (moves : List Move)
    (s : Polling) (h : run (Polling.step p) s₀ moves = some s) :
    Tidy base n s ∧ (Tidy base n s ∧ GoesOn p s ↔ Advances s) := by
  have inv : Inv base n s := invariant_of_run (start_inv placed hn ports fits h₀)
    (fun _ _ _ inv hstep => inv.step placed hn hstep) h
  refine ⟨inv.tidy, ?_⟩
  rw [inv.goesOn_iff placed hn]
  exact and_iff_right inv.tidy

/-- A Port Status Change Event for port 1. -/
def portChange : Trb := .set (1 <<< 24) (1 <<< 24) (34 <<< 10)

/-- A Host Controller Event with the code Event Ring Full. -/
def eventRingFull : Trb := .set 0 (21 <<< 24) (37 <<< 10)

theorem consumes_iff_advances_port_change : ∃ s₀ s,
    start oneEndpoint (.new 0x4000 4 false) = .ok s₀ ∧
    run (Polling.step .debug) s₀ [.post portChange] = some s ∧ GoesOn .debug s := by
  have fits : oneEndpoint.CmdFits := by
    unfold Hci.CmdFits
    decide
  have along := fun s₀ s h₀ h => (consumes_iff_advances .debug oneEndpoint (by decide) fits
    0x4000 4 (by decide) ⟨by decide, by decide⟩ s₀ h₀ [.post portChange] s h).2.mpr
  refine ⟨_, _, rfl, rfl, (along _ _ rfl rfl ?_).2⟩
  intro trb htrb
  cases htrb
  exact ⟨rfl, fun _ portNum hport => by cases hport; decide, fun h => absurd rfl h⟩

/-- A full event ring stops the loop: each round ends where it began. -/
theorem event_ring_full_stalls : ∃ s₀ s,
    start oneEndpoint (.new 0x4000 4 false) = .ok s₀ ∧
    run (Polling.step .release) s₀ [.post eventRingFull] = some s ∧
    s.posted = [eventRingFull] ∧ s.dispatched = [] ∧ s.step .release .poll = some s :=
  ⟨_, _, rfl, rfl, rfl, rfl, rfl⟩

end Polling

end RedoxDrivers.Xhci
