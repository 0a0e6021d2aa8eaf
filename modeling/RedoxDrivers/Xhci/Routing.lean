import RedoxDrivers.Xhci.Calls

/-!
Which waiter an event goes to.

The reactor compares the pointer of a transfer event with the first and the last address
that each waiter registered, and takes the first waiter that matches. `routes_iff` gives
the exact condition under which this finds the waiter whose work contains the TRB. Two
things stand in the way: `execute_transfer` registers its last TRB only, and a control
transfer that wraps around its ring matches every address outside of the ring.
-/

namespace RedoxDrivers.Xhci

open Lib List Option Nat Reactor

/-- A call whose future is registered with the reactor. `ring` is the ring as it is now,
`slots` are those of the call's TRBs. -/
structure Waiter where
  call : Call
  state : State
  ring : Ring
  slots : List Nat

namespace Waiter

/-- The call has enqueued its TRBs, in distinct slots, on a ring that is still alive. -/
structure Pending (hci : Hci) (w : Waiter) : Prop where
  picked : w.call.ring hci = some w.ring
  live : ∀ id, w.call.ringId = some id → hci.withRing id = some w.ring
  fits : w.ring.base.toNat + 16 * w.ring.trbs.length ≤ 2 ^ 64
  reachable : w.ring.physBase hci.ac64 = w.ring.base
  enqueued : ∃ r r', r.Usable ∧ r.SamePlace w.ring ∧
    w.call.execute hci.ac64 r = .ok (⟨w.slots, w.state.kind, w.state.isIsochOrVf⟩, r')
  nodup : w.slots.Nodup

/-- Two waiters have rings in disjoint memory, or share a ring but no slot. -/
structure Separate (w w' : Waiter) : Prop where
  rings : w.ring = w'.ring ∨
    w.ring.base.toNat + 16 * w.ring.trbs.length ≤ w'.ring.base.toNat ∨
    w'.ring.base.toNat + 16 * w'.ring.trbs.length ≤ w.ring.base.toNat
  slots : w.ring = w'.ring → w.slots.Disjoint w'.slots
  states : w.state ≠ w'.state

/-- The type of the event that completes a call. -/
def eventType (w : Waiter) : TrbType :=
  match w.call with
  | .command _ => .commandCompletion
  | _ => .transfer

/-- The event points to the TRB of `w` in slot `j`. -/
structure PointedBy (w : Waiter) (j : Nat) (event : Trb) : Prop where
  type : event.trbType = w.eventType.toU8
  pointer : event.transferEventTrbPointer = some (Ring.slotAddr w.ring.base j)

/-- A control transfer that continues in the first slot of its ring. -/
def Wraps (w : Waiter) : Prop :=
  match w.call with
  | .control .. => ∃ first last, w.slots.head? = some first ∧ w.slots.getLast? = some last ∧
      last < first
  | _ => False

/-- Of the TRBs of `execute_transfer` only the last is registered. -/
def Registered (w : Waiter) (j : Nat) : Prop :=
  match w.call with
  | .transfer .. => w.slots.getLast? = some j
  | _ => True

variable {hci : Hci} {w w' : Waiter} {j : Nat} {event : Trb}

/-! ### Addresses and slots -/

theorem inTransfer_iff {a b p : U64} : inTransfer a b p = true ↔
    if a.toNat ≤ b.toNat then a.toNat ≤ p.toNat ∧ p.toNat ≤ b.toNat
    else a.toNat ≤ p.toNat ∨ p.toNat ≤ b.toNat := by
  unfold inTransfer
  by_cases h : a.toNat ≤ b.toNat
  all_goals simp [BitVec.le_def]

section

variable (pending : Pending hci w)

include pending

/-- The slots are a segment of the ring no longer than a lap. -/
theorem Pending.segment : ∃ k len, k < w.ring.trbs.length - 1 ∧
    len < w.ring.trbs.length - 1 ∧
    w.slots = Lib.segment (w.ring.trbs.length - 1) k (len + 1) ∧
    w.call.Registers hci.ac64 w.ring w.slots w.state.kind := by
  obtain ⟨r, r', usable, place, h⟩ := pending.enqueued
  obtain ⟨⟨len, hslots⟩, hregisters⟩ := Call.execute_segment usable h
  have htwo := usable.two
  rw [← place.length] at htwo
  rw [← place.length] at hslots
  have hmod : w.slots = Lib.segment (w.ring.trbs.length - 1)
      (r.i % (w.ring.trbs.length - 1)) (len + 1) :=
    hslots.trans (segment_congr (mod_mod _ _)).symm
  have hlen := length_le_of_nodup_segment (by omega) (hmod ▸ pending.nodup)
  refine ⟨_, len, mod_lt _ (by omega), by omega, hmod, ?_⟩
  cases hcall : w.call with
  | command | control | transfer =>
    simpa only [Call.Registers, hcall, place.trbPhysPtr] using hregisters

/-- A slot is one of the waiter's exactly if it lies between the first and the last, or, if
these wrap around, outside of what lies between them. -/
theorem Pending.mem_slots_iff {first last : Nat} (hfirst : w.slots.head? = some first)
    (hlast : w.slots.getLast? = some last) (hj : j < w.ring.trbs.length - 1) :
    j ∈ w.slots ↔ if first ≤ last then first ≤ j ∧ j ≤ last else first ≤ j ∨ j ≤ last := by
  obtain ⟨k, len, hk, hlen, hslots, -⟩ := pending.segment
  rw [hslots, head?_segment, some.injEq, mod_eq_of_lt hk] at hfirst
  rw [hslots, getLast?_segment, some.injEq] at hlast
  rw [hslots, mem_segment_iff hk hlen hj, hlast, hfirst]

theorem Pending.lt_of_mem (hj : j ∈ w.slots) : j < w.ring.trbs.length - 1 := by
  obtain ⟨k, len, hk, -, hslots, -⟩ := pending.segment
  rw [hslots] at hj
  exact lt_of_mem_segment (by omega) hj

/-- An address of the ring matches the transfer from slot `a` to slot `b` as the slots do. -/
theorem Pending.inTransfer_slot {a b : Nat} (ha : a < w.ring.trbs.length)
    (hb : b < w.ring.trbs.length) (hj : j < w.ring.trbs.length) :
    inTransfer (w.ring.trbPhysPtr hci.ac64 a) (w.ring.trbPhysPtr hci.ac64 b)
        (Ring.slotAddr w.ring.base j) = true ↔
      if a ≤ b then a ≤ j ∧ j ≤ b else a ≤ j ∨ j ≤ b := by
  rw [inTransfer_iff, Ring.trbPhysPtr, Ring.trbPhysPtr, pending.reachable,
    Ring.slotAddr_toNat pending.fits ha, Ring.slotAddr_toNat pending.fits hb,
    Ring.slotAddr_toNat pending.fits hj]
  by_cases hab : a ≤ b
  · rw [if_pos hab, if_pos (by omega)]
    omega
  · rw [if_neg hab, if_neg (by omega)]
    omega

/-! ### Which waiters an event answers -/

end

theorem answeredBy_transfer {state : State} {first last : U64} {id : RingId}
    (hkind : state.kind = .transfer first last id) {p : U64}
    (htype : event.trbType = TrbType.transfer.toU8)
    (hptr : event.transferEventTrbPointer = some p) :
    state.answeredBy event = inTransfer first last p := by
  simp [State.answeredBy, hkind, htype, hptr]

/-- The waiter is answered by an event for one of its TRBs, if that one is registered. -/
theorem Pending.answered_self (pending : Pending hci w) (hj : j ∈ w.slots)
    (pointed : w.PointedBy j event) : w.state.answeredBy event = true ↔ w.Registered j := by
  have hlt := pending.lt_of_mem hj
  obtain ⟨-, -, -, -, -, hregisters⟩ := pending.segment
  have htype := pointed.type
  unfold Registered
  unfold eventType at htype
  cases hcall : w.call with
  | command =>
    simp only [hcall, Call.Registers] at hregisters htype
    obtain ⟨i, hslots, hkind⟩ := hregisters
    obtain rfl : j = i := by simpa [hslots] using hj
    have hptr : event.completionTrbPointer = _ := pointed.pointer
    simp [State.answeredBy, hkind, htype, hptr, Ring.trbPhysPtr, pending.reachable]
  | control port setup tk d last =>
    simp only [hcall, Call.Registers] at hregisters htype
    obtain ⟨a, b, ha, hb, hkind⟩ := hregisters
    have halt := pending.lt_of_mem (mem_of_mem_head? ha)
    have hblt := pending.lt_of_mem (mem_of_mem_getLast? hb)
    rw [answeredBy_transfer hkind htype pointed.pointer,
      pending.inTransfer_slot (by omega) (by omega) (by omega), ← pending.mem_slots_iff ha hb hlt]
    exact iff_of_true hj trivial
  | transfer port endpNum streamId d last =>
    simp only [hcall, Call.Registers] at hregisters htype
    obtain ⟨b, hb, hkind⟩ := hregisters
    have hblt := pending.lt_of_mem (mem_of_mem_getLast? hb)
    rw [answeredBy_transfer hkind htype pointed.pointer,
      pending.inTransfer_slot (by omega) (by omega) (by omega), if_pos le_rfl]
    simp only [hb, some.injEq]
    omega

theorem eventType_cases (w : Waiter) :
    (w.eventType = .commandCompletion ∧ ∃ f, w.call = .command f) ∨ w.eventType = .transfer := by
  unfold eventType
  cases hcall : w.call with
  | command f => exact .inl ⟨rfl, f, rfl⟩
  | control | transfer => exact .inr rfl

section

variable (pending : Pending hci w) (pending' : Pending hci w') (separate : Separate w' w)
  (hj : j ∈ w.slots) (pointed : w.PointedBy j event)

include pending pending' separate hj pointed

/-- A command is not answered by an event for another waiter: the other commands are in
other slots of the same ring. -/
theorem Pending.not_answered_command {f : Store} (hcall' : w'.call = .command f) :
    w'.state.answeredBy event = false := by
  obtain ⟨-, -, -, -, -, hregisters⟩ := pending'.segment
  rw [hcall'] at hregisters
  obtain ⟨i, hslots, hkind⟩ := hregisters
  rcases w.eventType_cases with ⟨-, g, hcall⟩ | htransfer
  · have hring : w'.ring = w.ring := by
      have hpicked := pending.picked
      have hpicked' := pending'.picked
      rw [hcall] at hpicked
      rw [hcall'] at hpicked'
      exact some.inj (hpicked'.symm.trans hpicked)
    have hi : i ∈ w'.slots := hslots ▸ mem_singleton_self i
    have hne : i ≠ j := fun heq => separate.slots hring hi (heq ▸ hj)
    have haddr : Ring.slotAddr w.ring.base j ≠ w'.ring.trbPhysPtr hci.ac64 i := by
      have hlt := pending.lt_of_mem hj
      have hilt := pending'.lt_of_mem hi
      intro heq
      rw [Ring.trbPhysPtr, pending'.reachable, hring] at heq
      rw [hring] at hilt
      exact hne (Ring.slotAddr_inj pending.fits (by omega) (by omega) heq).symm
    have hptr : event.completionTrbPointer = _ := pointed.pointer
    simp [State.answeredBy, hkind, hptr, haddr]
  · have htype : event.trbType ≠ TrbType.commandCompletion.toU8 := by
      rw [pointed.type, htransfer]
      decide
    simp [State.answeredBy, hkind, htype]

/-- A transfer from slot `a` to slot `b` is answered by an event for another waiter exactly
if it wraps around another ring. -/
theorem Pending.answered_transfer {a b : Nat} {id : RingId}
    (hkind : w'.state.kind = .transfer (w'.ring.trbPhysPtr hci.ac64 a) (w'.ring.trbPhysPtr hci.ac64 b) id)
    (ha : a ∈ w'.slots) (hb : b ∈ w'.slots)
    (hspan : ∀ i < w'.ring.trbs.length - 1, (if a ≤ b then a ≤ i ∧ i ≤ b else a ≤ i ∨ i ≤ b) → i ∈ w'.slots) :
    w'.state.answeredBy event = true ↔ w.eventType = .transfer ∧ b < a ∧ w'.ring ≠ w.ring := by
  have hlt := pending.lt_of_mem hj
  have halt := pending'.lt_of_mem ha
  have hblt := pending'.lt_of_mem hb
  rcases w.eventType_cases with ⟨hcommand, -⟩ | htransfer
  · have htype : event.trbType ≠ TrbType.transfer.toU8 := by
      rw [pointed.type, hcommand]
      decide
    simp [State.answeredBy, hkind, htype, hcommand]
  · have htype : event.trbType = TrbType.transfer.toU8 := by rw [pointed.type, htransfer]
    rw [answeredBy_transfer hkind htype pointed.pointer]
    by_cases hring : w'.ring = w.ring
    · rw [← hring] at hlt ⊢
      rw [pending'.inTransfer_slot (by omega) (by omega) (by omega)]
      constructor
      · exact fun h => absurd hj (separate.slots hring (hspan j hlt h))
      · exact fun h => absurd rfl h.2.2
    · -- An address outside of the ring matches exactly if the transfer wraps around.
      have houtside : w.ring.base.toNat + 16 * j < w'.ring.base.toNat ∨
          w'.ring.base.toNat + 16 * w'.ring.trbs.length ≤ w.ring.base.toNat + 16 * j := by
        rcases separate.rings with heq | hbelow | habove
        · exact absurd heq hring
        · exact .inr (by omega)
        · exact .inl (by omega)
      rw [inTransfer_iff, Ring.trbPhysPtr, Ring.trbPhysPtr, pending'.reachable,
        Ring.slotAddr_toNat pending'.fits (by omega), Ring.slotAddr_toNat pending'.fits (by omega),
        Ring.slotAddr_toNat pending.fits (by omega)]
      simp only [htransfer, hring, ne_eq, not_false_eq_true, true_and, and_true]
      by_cases hab : a ≤ b
      · rw [if_pos (by omega)]
        omega
      · rw [if_neg (by omega)]
        omega

/-- **Who else is answered.** An event for a transfer also answers each control transfer
that wraps around another ring, and nobody else. -/
theorem Pending.answered_other : w'.state.answeredBy event = true ↔
      w.eventType = .transfer ∧ w'.Wraps ∧ w'.ring ≠ w.ring := by
  obtain ⟨-, -, -, -, -, hregisters⟩ := pending'.segment
  unfold Wraps
  cases hcall' : w'.call with
  | command =>
    simp [pending.not_answered_command pending' separate hj pointed hcall']
  | control =>
    rw [hcall'] at hregisters
    obtain ⟨a, b, ha, hb, hkind⟩ := hregisters
    rw [pending.answered_transfer pending' separate hj pointed hkind
      (mem_of_mem_head? ha) (mem_of_mem_getLast? hb)
      fun i hi => (pending'.mem_slots_iff ha hb hi).mpr]
    simp [ha, hb]
  | transfer =>
    rw [hcall'] at hregisters
    obtain ⟨b, hb, hkind⟩ := hregisters
    have hmem := mem_of_mem_getLast? hb
    rw [pending.answered_transfer pending' separate hj pointed hkind hmem hmem ?_]
    · simp
    · intro i _ hi
      rw [if_pos le_rfl] at hi
      exact le_antisymm hi.1 hi.2 ▸ hmem

end

section

variable (pending : Pending hci w)

include pending

/-- Nobody in a list is answered by an event for another waiter, exactly if no control
transfer in it wraps around another ring. -/
theorem Pending.unanswered_iff {ws : List Waiter} (hpending : ∀ x ∈ ws, Pending hci x)
    (hseparate : ∀ x ∈ ws, Separate x w) (hj : j ∈ w.slots) (pointed : w.PointedBy j event) :
    (w.eventType = .transfer → ∀ x ∈ ws, x.Wraps → x.ring = w.ring) ↔
      ∀ x ∈ ws, x.state.answeredBy event = false := by
  have hanswered : ∀ x ∈ ws, x.state.answeredBy event = true ↔
      w.eventType = .transfer ∧ x.Wraps ∧ x.ring ≠ w.ring := fun x hx =>
    pending.answered_other (hpending x hx) (hseparate x hx) hj pointed
  constructor
  · intro h x hx
    apply Bool.eq_false_iff.mpr
    intro htrue
    obtain ⟨htype, hwraps, hring⟩ := (hanswered x hx).mp htrue
    exact hring (h htype x hx hwraps)
  · intro h htype x hx hwraps
    by_contra hring
    apply Bool.eq_false_iff.mp (h x hx)
    exact (hanswered x hx).mpr ⟨htype, hwraps, hring⟩

/-! ### What the reactor does with a waiter -/

/-- A waiter waits for a command in a slot of the command ring, or for a transfer on the
ring it is registered with. -/
theorem Pending.kind_cases : (∃ i, w.slots = [i] ∧ w.ring = hci.cmd ∧
      w.state.kind = .commandCompletion (hci.cmd.trbPhysPtr hci.ac64 i)) ∨
    ∃ first last id, w.state.kind = .transfer first last id ∧ hci.withRing id = some w.ring := by
  obtain ⟨-, -, -, -, -, hregisters⟩ := pending.segment
  have hpicked := pending.picked
  have hlive := pending.live
  cases hcall : w.call with
  | command =>
    rw [hcall] at hregisters hpicked
    have hring : w.ring = hci.cmd := (some.inj hpicked).symm
    obtain ⟨i, hslots, hkind⟩ := hregisters
    exact .inl ⟨i, hslots, hring, hring ▸ hkind⟩
  | control =>
    rw [hcall] at hregisters hlive
    obtain ⟨a, b, -, -, hkind⟩ := hregisters
    exact .inr ⟨_, _, _, hkind, hlive _ rfl⟩
  | transfer =>
    rw [hcall] at hregisters hlive
    obtain ⟨b, -, hkind⟩ := hregisters
    exact .inr ⟨_, _, _, hkind, hlive _ rfl⟩

theorem Pending.admits : hci.Admits w.state := by
  intro physPtr hkind
  rcases pending.kind_cases with ⟨i, hslots, hring, hcommand⟩ | ⟨first, last, id, htransfer, -⟩
  · cases hkind.symm.trans hcommand
    have hi := pending.lt_of_mem (hslots ▸ mem_singleton_self i)
    exact ⟨i, by rw [← hring]; omega, rfl⟩
  · cases hkind.symm.trans htransfer

theorem Pending.not_dead : hci.onDeadRing w.state = false := by
  unfold Hci.onDeadRing
  rcases pending.kind_cases with ⟨i, -, -, hkind⟩ | ⟨first, last, id, hkind, hring⟩
  · rw [hkind]
  · rw [hkind]
    simp [hring]

/-- The waiter is finished with the TRB that the event points to. -/
theorem Pending.verdict (fits : hci.CmdFits) (hj : j ∈ w.slots) (pointed : w.PointedBy j event)
    {trb : Trb} (htrb : w.ring.trbs[j]? = some trb) (h : w.state.answeredBy event = true) :
    ∃ hci', hci.verdict event w.state = .ok (.take hci' (some ⟨event, some trb⟩)) := by
  rcases pending.kind_cases with ⟨i, hslots, hring, hkind⟩ | ⟨first, last, id, hkind, hring⟩
  · obtain rfl : j = i := by simpa [hslots] using hj
    exact ⟨_, Hci.verdict_command fits (hring ▸ htrb) hkind h⟩
  · have hentry : w.ring.physAddrToEntry hci.ac64 (w.ring.trbPhysPtr hci.ac64 j) = .ok (some trb) :=
      bind_eq_ok.mpr ⟨_, Ring.physAddrToIndex_slot (by rw [pending.reachable]; exact pending.fits)
        (List.getElem?_eq_some_iff.mp htrb).1, bind_eq_ok.mpr ⟨_, index_eq_ok.mpr htrb, rfl⟩⟩
    rw [Ring.trbPhysPtr, pending.reachable] at hentry
    have hsrc : hci.getTransferTrb (Ring.slotAddr w.ring.base j) id = .ok (some trb) := by
      rw [Hci.getTransferTrb, hring]
      exact hentry
    refine ⟨hci, ?_⟩
    rw [Hci.verdict_transfer hci hkind h pointed.pointer, hsrc]
    rfl

end

end Waiter

open Waiter

/-- **Where an event goes.** Let any calls be waiting, on live rings in disjoint memory, and
let an event point to the TRB in slot `j` of one of them, `w`. Then the reactor finishes
`w` with that TRB and keeps all others in order exactly if the TRB is registered, which of
the TRBs of `execute_transfer` is the last one only, and, when `w` is a transfer, no waiter
before it is a control transfer that wraps around another ring. -/
theorem routes_iff (hci : Hci) (fits : hci.CmdFits) (before after : List Waiter) (w : Waiter)
    (pending : ∀ x ∈ before ++ w :: after, Pending hci x)
    (separate : (before ++ w :: after).Pairwise Separate) (j : Nat) (hj : j ∈ w.slots)
    (trb : Trb) (htrb : w.ring.trbs[j]? = some trb) (event : Trb)
    (pointed : w.PointedBy j event) (requests : List U8)
    (finished : List (State × Option NextEventTrb)) :
    (∃ hci', acknowledge ⟨hci, (before ++ w :: after).map state, requests, finished⟩ event =
      .ok ⟨hci', (before ++ after).map state, requests,
        finished ++ [(w.state, some ⟨event, some trb⟩)]⟩) ↔
      w.Registered j ∧
        (w.eventType = .transfer → ∀ x ∈ before, x.Wraps → x.ring = w.ring) := by
  have hw : Pending hci w := pending w (by simp)
  have hbefore : ∀ x ∈ before, Pending hci x := fun x hx => pending x (by simp [hx])
  have hsep : ∀ x ∈ before, Separate x w := fun x hx =>
    (pairwise_append.mp separate).2.2 x hx w mem_cons_self
  have hothers := hw.unanswered_iff hbefore hsep hj pointed
  have hstates : ∀ {ws : List Waiter} {P : State → Prop}, (∀ x ∈ ws, P x.state) →
      ∀ s ∈ ws.map state, P s := by
    intro ws P h s hs
    obtain ⟨x, hx, rfl⟩ := mem_map.mp hs
    exact h x hx
  rw [hothers, ← hw.answered_self hj pointed]
  constructor
  · rintro ⟨hci', h⟩
    have hfirst := acknowledgeLoop_finished h fits
      (hstates fun x hx => (pending x hx).admits) (hstates fun x hx => (pending x hx).not_dead)
      (by simp [pointed.pointer])
    simp only [map_append, map_cons, map_nil, append_cancel_left_eq] at hfirst
    have hfind := toList_eq_singleton_iff.mp hfirst.symm
    refine ⟨find?_some hfind, fun x hx => ?_⟩
    rw [find?_append] at hfind
    cases hbeforefind : (before.map state).find? (·.answeredBy event) with
    | none => simpa using find?_eq_none.mp hbeforefind x.state (mem_map_of_mem hx)
    | some =>
      -- The first state answered would be that of `w`, which is not among those before it.
      rw [hbeforefind, some_or, some.injEq] at hfind
      obtain ⟨y, hy, hys⟩ := mem_map.mp (mem_of_find?_eq_some hbeforefind)
      exact absurd (hys.trans hfind) (hsep y hy).states
  · rintro ⟨hanswered, hskipped⟩
    obtain ⟨hci', hverdict⟩ := hw.verdict fits hj pointed htrb hanswered
    have hlive : ∀ s ∈ before.map state, hci.onDeadRing s = false :=
      hstates fun x hx => (hbefore x hx).not_dead
    have hskip : ∀ s ∈ before.map state, s.answeredBy event = false := hstates hskipped
    have htake : acknowledgeLoop event ⟨hci, [] ++ before.map state, requests, finished⟩
        (w.state :: after.map state) = _ := acknowledgeLoop_take _ hverdict
    refine ⟨hci', ?_⟩
    rw [acknowledge, map_append,
      acknowledgeLoop_skip ⟨hci, [], requests, finished⟩ hlive hskip, map_cons, htake]
    simp [finish]

/-- A device on port 1 with rings for its default control pipe and for endpoint 3. -/
def twoRings : Hci where
  ac64 := true
  cmd := .new 0x1000 4 true
  portStates port := if port = 1 then some ⟨fun endpoint =>
    if endpoint = 0 then some (.ring (.new 0x2000 4 true))
    else if endpoint = 3 then some (.ring (.new 0x3000 4 true)) else none⟩ else none
  ports := [0, 0]

/-- Storing a Normal TRB. -/
def storeNormal : Store := fun _ cycle =>
  .set 0 0 (TrbType.normal.toU8.setWidth 32 <<< 10 ||| Trb.bit cycle)

/-- A control transfer whose setup stage is in the last slot before the link. -/
def wrappedControl : Waiter where
  call := .control 1 0 .noData [] storeNormal
  state := ⟨0, .transfer 0x2020 0x2000 (.defaultControlPipe 1), 0, false⟩
  ring := .new 0x2000 4 true
  slots := [2, 0]

/-- A transfer of two TRBs. -/
def bulkOfTwo : Waiter where
  call := .transfer 1 3 1 [storeNormal] storeNormal
  state := ⟨1, .transfer 0x3010 0x3010 ⟨1, 3, 1⟩, 1, false⟩
  ring := .new 0x3000 4 true
  slots := [0, 1]

/-- A Transfer Event with the code Short Packet. -/
def shortPacket (pointer : U64) : Trb := .set pointer (13 <<< 24) (32 <<< 10)

theorem wrappedControl_pending : Pending twoRings wrappedControl where
  picked := rfl
  live := by
    rintro id ⟨⟩
    rfl
  fits := by decide
  reachable := by decide
  enqueued := ⟨{ Ring.new 0x2000 4 true with i := 2 }, _, ⟨rfl, by decide, by decide⟩, ⟨rfl, rfl⟩, rfl⟩
  nodup := by decide

theorem bulkOfTwo_pending : Pending twoRings bulkOfTwo where
  picked := rfl
  live := by
    rintro id ⟨⟩
    rfl
  fits := by decide
  reachable := by decide
  enqueued := ⟨.new 0x3000 4 true, _, ⟨rfl, by decide, by decide⟩, ⟨rfl, rfl⟩, rfl⟩
  nodup := by decide

theorem bulkOfTwo_separate : Separate bulkOfTwo wrappedControl where
  rings := .inr (.inr (by decide))
  slots := fun h => absurd h (by decide)
  states := by decide

theorem routes_iff_behind_bulk : ∃ hci',
    acknowledge ⟨twoRings, [bulkOfTwo.state, wrappedControl.state], [], []⟩
      (shortPacket 0x2000) =
    .ok ⟨hci', [bulkOfTwo.state], [],
      [(wrappedControl.state, some ⟨shortPacket 0x2000, some .zeroed⟩)]⟩ := by
  have fits : twoRings.CmdFits := by
    unfold Hci.CmdFits
    decide
  have pending : ∀ x ∈ [bulkOfTwo] ++ wrappedControl :: [], Pending twoRings x := by
    intro x hx
    rcases mem_pair.mp hx with rfl | rfl
    · exact bulkOfTwo_pending
    · exact wrappedControl_pending
  have routed := routes_iff twoRings fits [bulkOfTwo] [] wrappedControl pending
    (pairwise_pair.mpr bulkOfTwo_separate) 0 (by decide) .zeroed rfl (shortPacket 0x2000)
    ⟨rfl, rfl⟩ [] []
  refine routed.mpr ⟨trivial, fun _ x hx hwraps => ?_⟩
  rw [mem_singleton.mp hx] at hwraps
  exact hwraps.elim

/-- A Short Packet event for the first TRB of a transfer of two finishes nobody, and with a
wrapped control transfer before it, even the event for its last TRB goes to that one. -/
theorem events_of_bulk_lost :
    (Pending twoRings bulkOfTwo ∧ bulkOfTwo.PointedBy 0 (shortPacket 0x3000) ∧
      (acknowledge ⟨twoRings, [bulkOfTwo.state], [], []⟩ (shortPacket 0x3000)).map
        (fun r => (r.states, r.finished)) = .ok ([bulkOfTwo.state], [])) ∧
    (Pending twoRings wrappedControl ∧ Separate wrappedControl bulkOfTwo ∧
      bulkOfTwo.PointedBy 1 (shortPacket 0x3010) ∧
      (acknowledge ⟨twoRings, [wrappedControl.state, bulkOfTwo.state], [], []⟩
        (shortPacket 0x3010)).map (fun r => (r.states, r.finished)) =
      .ok ([bulkOfTwo.state], [(wrappedControl.state, some ⟨shortPacket 0x3010, none⟩)])) :=
  ⟨⟨bulkOfTwo_pending, ⟨rfl, rfl⟩, rfl⟩, wrappedControl_pending,
    ⟨.inr (.inl (by decide)), fun h => absurd h (by decide), by decide⟩, ⟨rfl, rfl⟩, rfl⟩

end RedoxDrivers.Xhci
