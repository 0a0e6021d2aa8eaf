import RedoxDrivers.Inputd.Effects

/-!
Who gets which events.

`Routing` is what the daemon is for, event by event: an event goes to the consumers of the VT that is
active once its own keys have been looked at. `InputScheme.write` looks at the keys of all events of a
buffer first and then delivers the buffer as a whole, to the VT that is active at its end.
`routing_iff` compares the two in every run: they agree exactly if, for each open consumer, all events of
a write are for its VT or none is. Then it makes no difference how the events are put into writes,
since `Routing` does not see it.
-/

namespace RedoxDrivers.Inputd

open Lib Function List Option InputScheme Handle Endian

/-! ### The events of a buffer -/

section Chunks

variable {buf : List U8}

theorem length_of_mem_chunks {chunk : List U8} (h : chunk ∈ chunks buf) : chunk.length = EVENT_SIZE := by
  obtain ⟨i, hi, rfl⟩ := mem_map.mp h
  have hlt := mem_range.mp hi
  have hmul : EVENT_SIZE * (i + 1) ≤ buf.length :=
    (Nat.mul_le_mul_left _ hlt).trans (Nat.mul_div_le _ _)
  exact length_field (by omega)

theorem flatten_fields (buf : List U8) (size n : Nat) :
    ((range n).map fun i => field buf (size * i) size).flatten = buf.take (size * n) := by
  induction n with
  | zero => rfl
  | succ n ih =>
    rw [range_succ, map_append, flatten_append, ih, Nat.mul_succ, take_add]
    simp [field]

/-- A buffer of whole events is its events. -/
theorem flatten_chunks (h : EVENT_SIZE ∣ buf.length) : (chunks buf).flatten = buf := by
  rw [chunks, flatten_fields, Nat.mul_div_cancel' h, take_length]

theorem chunks_single (h : buf.length = EVENT_SIZE) : chunks buf = [buf] := by
  have hone : buf.length / EVENT_SIZE = 1 := by rw [h]; rfl
  rw [chunks, hone]
  simp [field, ← h]

theorem chunks_of_noise (h : IsNoise buf) : chunks buf = [] := by
  obtain ⟨b, rfl, -⟩ := h
  have hzero : [b].length / EVENT_SIZE = 0 := Nat.div_eq_of_lt (by simp [EVENT_SIZE])
  rw [chunks, hzero]
  rfl

end Chunks

/-! ### Routing event by event -/

inductive Kind where
  | producer
  | consumer (vt : Nat)
  | display
  | control
deriving DecidableEq, Repr

/-- What is needed to say who gets an event, and what each handle got. -/
structure Routing where
  nextId : Nat
  kinds : Nat → Option Kind
  closed : Nat → Bool
  nextVtId : Nat
  keys : Keys
  received : Nat → List U8

def Opening.kind : Opening → Kind
  | .producer => .producer
  | .consumer vt => .consumer vt
  | .handleEarly _ => .display
  | .handle _ => .display
  | .control => .control

namespace Routing

def new : Routing := ⟨0, fun _ => none, fun _ => false, 1, ⟨false, none⟩, fun _ => []⟩

variable (decode : List U8 → EventOption) (r : Routing)

def known (vt : Nat) : Bool := decide (1 ≤ vt ∧ vt < r.nextVtId)

/-- The handle is open for a VT. -/
def Listens (id vt : Nat) : Prop := r.kinds id = some (.consumer vt) ∧ r.closed id = false

instance (id vt : Nat) : Decidable (r.Listens id vt) :=
  inferInstanceAs (Decidable (_ ∧ _))

def opened (opening : Opening) : Routing :=
  { r with
    nextId := r.nextId + 1
    kinds := update r.kinds r.nextId (some opening.kind)
    closed := update r.closed r.nextId false
    received := update r.received r.nextId [] }

/-- The active VT is heard of an event. -/
def heardBy (chunk : List U8) (id : Nat) : List U8 :=
  if r.keys.activeVt.any (fun vt => r.Listens id vt) then r.received id ++ chunk else r.received id

def press (chunk : List U8) : Routing :=
  { r with keys := r.keys.press r.known (decode chunk) }

/-- An event. -/
def input (chunk : List U8) : Routing :=
  { r.press decode chunk with received := (r.press decode chunk).heardBy chunk }

def write (buf : List U8) : Kind → Routing
  | .control =>
    if buf.length = VT_ACTIVATE_SIZE then
      { r with keys.activeVt := ((some (ofLe buf)).filter r.known).or r.keys.activeVt }
    else r
  | .producer => (chunks buf).foldl (input decode) r
  | _ => r

def step : Request → Routing
  | .openPath path => (parseOpen path).elim { r with nextId := r.nextId + 1 } r.opened
  | .read id len =>
    if len = 0 ∧ r.kinds id = some .display then { r with nextVtId := r.nextVtId + 1 } else r
  | .write id buf => (r.kinds id).elim r (r.write decode buf)
  | .close id => { r with closed := update r.closed id true }
  | _ => r

end Routing

open Routing

/-! ### The daemon and its routing -/

def Handle.kind : Handle → Kind
  | .producer => .producer
  | .consumer c => .consumer c.vt
  | .display _ => .display
  | .control => .control

/-- The VT of a consumer and all bytes that were queued to it. -/
def Handle.heard : Handle → Option (Nat × List U8)
  | .consumer c => some (c.vt, c.taken ++ c.pending)
  | _ => none

/-- The daemon and what it is for, side by side. -/
structure Joint where
  scheme : InputScheme
  routing : Routing

namespace Joint

variable (decode : List U8 → EventOption)

def new : Joint := ⟨.new, .new⟩

/-- Producers write whole events. -/
def Whole (s : InputScheme) : Request → Prop
  | .write id buf => s.handles id = some .producer → EVENT_SIZE ∣ buf.length
  | _ => True

instance (s : InputScheme) : ∀ r, Decidable (Whole s r)
  | .write id buf => inferInstanceAs (Decidable (s.handles id = some .producer → EVENT_SIZE ∣ buf.length))
  | .openPath _ | .fpath .. | .read .. | .fevent .. | .close _ | .sendFd | .cancellation =>
    isTrue trivial

def step (j : Joint) (r : Request) : Option Joint :=
  if Whole j.scheme r then
    (j.scheme.step decode r).map fun scheme => ⟨scheme, j.routing.step decode r⟩
  else none

/-- The open consumers got what they were to get. -/
def Routed (j : Joint) : Prop :=
  ∀ id c, j.scheme.handles id = some (.consumer c) → j.routing.closed id = false →
    c.taken ++ c.pending = j.routing.received id

/-- The active VT after some of the events of a write. -/
def activeAt (s : InputScheme) (events : List (List U8)) : Option Nat :=
  ((events.map decode).foldl (Keys.press s.known) s.keys).activeVt

/-- A write of a producer does not switch from or to the VT of an open consumer between its events:
either that VT is active after each of them, or after none. -/
def Steady (j : Joint) : Request → Prop
  | .write id buf => j.scheme.handles id = some .producer →
      ∀ id' c, j.scheme.handles id' = some (.consumer c) → j.routing.closed id' = false →
        ∀ events, events <+: chunks buf → events ≠ [] →
          (activeAt decode j.scheme events = some c.vt ↔
            activeAt decode j.scheme (chunks buf) = some c.vt)
  | _ => True

end Joint

/-! ### A write, event by event -/

section Share

variable (decode : List U8 → EventOption) (known : Nat → Bool) (vt : Nat)

/-- The events that a VT gets. -/
def share : Keys → List (List U8) → List U8
  | _, [] => []
  | k, chunk :: rest =>
    (if (k.press known (decode chunk)).activeVt = some vt then chunk else []) ++
      share (k.press known (decode chunk)) rest

variable {decode known vt}

theorem length_share_le (k : Keys) (events : List (List U8)) :
    (share decode known vt k events).length ≤ events.flatten.length := by
  induction events generalizing k with
  | nil => rfl
  | cons chunk rest ih =>
    have hrest := ih (k.press known (decode chunk))
    rw [share, flatten_cons, length_append, length_append]
    split
    · omega
    · rw [length_nil]
      omega

variable {k : Keys} {events : List (List U8)}

theorem forall_prefix_cons {chunk : List U8} {rest : List (List U8)} {Q : Option Nat → Prop} :
    (∀ events, events <+: chunk :: rest → events ≠ [] →
        Q ((events.map decode).foldl (Keys.press known) k).activeVt) ↔
      Q (k.press known (decode chunk)).activeVt ∧ ∀ events, events <+: rest → events ≠ [] →
        Q ((events.map decode).foldl (Keys.press known) (k.press known (decode chunk))).activeVt := by
  constructor
  · intro h
    refine ⟨h [chunk] (by simp) (by simp), fun events hpre _ => ?_⟩
    exact h (chunk :: events) (cons_prefix_cons.mpr ⟨rfl, hpre⟩) (by simp)
  · rintro ⟨hfirst, hrest⟩ events hpre hne
    rcases prefix_cons_iff.mp hpre with rfl | ⟨tail, rfl, htail⟩
    · exact absurd rfl hne
    · cases tail with
      | nil => exact hfirst
      | cons next tail => exact hrest (next :: tail) htail (by simp)

/-- A VT gets what is delivered to it as a whole exactly if the active VT is steady. -/
theorem share_iff (hne : ∀ chunk ∈ events, chunk ≠ []) (P : Prop) [Decidable P] :
    share decode known vt k events = (if P then events.flatten else []) ↔
      ∀ pre, pre <+: events → pre ≠ [] →
        (((pre.map decode).foldl (Keys.press known) k).activeVt = some vt ↔ P) := by
  induction events generalizing k with
  | nil => exact iff_of_true (ite_self _).symm fun pre hpre hpre' => absurd (prefix_nil.mp hpre) hpre'
  | cons chunk rest ih =>
    have hchunk := hne chunk mem_cons_self
    rw [forall_prefix_cons (Q := fun active => active = some vt ↔ P), share,
      ← ih fun chunk' h => hne chunk' (mem_cons_of_mem _ h)]
    by_cases hactive : (k.press known (decode chunk)).activeVt = some vt <;> by_cases hP : P <;>
      simp only [hactive, hP, if_true, if_false, iff_true, iff_false, not_true_eq_false, false_and,
        true_and, flatten_cons, nil_append, append_cancel_left_eq]
    · exact fun h => hchunk (append_eq_nil_iff.mp h).1
    · intro heq
      have hlength := congrArg length heq
      have hle : (share decode known vt (k.press known (decode chunk)) rest).length ≤
          rest.flatten.length := length_share_le _ _
      have hpos := length_pos_of_ne_nil hchunk
      rw [length_append] at hlength
      omega

end Share

/-! ### The routing follows the daemon -/

namespace Routing

variable {decode : List U8 → EventOption} {r : Routing}

/-- The events of a write change the keys and what was received. -/
theorem foldl_input (events : List (List U8)) (r : Routing) : events.foldl (input decode) r =
      { r with
        keys := (events.map decode).foldl (Keys.press r.known) r.keys
        received := (events.foldl (input decode) r).received } := by
  induction events generalizing r with
  | nil => rfl
  | cons chunk rest ih =>
    rw [foldl_cons, ih]
    rfl

/-- What a consumer gets of a write. -/
theorem received_foldl {id vt : Nat} (events : List (List U8)) (h : r.Listens id vt) :
    (events.foldl (input decode) r).received id =
      r.received id ++ share decode r.known vt r.keys events := by
  induction events generalizing r with
  | nil => simp [share]
  | cons chunk rest ih =>
    have hstep : (r.input decode chunk).received id = r.received id ++
        (if (r.keys.press r.known (decode chunk)).activeVt = some vt then chunk else []) := by
      show (if (r.keys.press r.known (decode chunk)).activeVt.any (fun vt => r.Listens id vt)
        then r.received id ++ chunk else r.received id) = _
      cases (r.keys.press r.known (decode chunk)).activeVt with
      | none => simp
      | some active =>
        by_cases hactive : active = vt
        · subst hactive
          simp [h]
        · have hnot : ¬ r.Listens id active := by
            intro h'
            cases h'.1.symm.trans h.1
            exact hactive rfl
          simp [hnot, hactive]
    rw [foldl_cons, ih (r := r.input decode chunk) h, hstep, append_assoc]
    rfl

end Routing

namespace InputScheme

/-- The routing is about the same handles, VTs and keys. -/
structure Follows (s : InputScheme) (r : Routing) : Prop where
  nextId : r.nextId = s.nextId
  kinds : ∀ id, r.kinds id = (s.handles id).map kind
  nextVtId : r.nextVtId = s.nextVtId
  keys : r.keys = s.keys

section Follows

variable {s s' : InputScheme} {r : Routing}

section

variable (h : s.Follows r)

include h

theorem Follows.known (hwf : s.WF) : r.known = s.known := by
  funext vt
  rw [Bool.eq_iff_iff, hwf.vts, Routing.known, decide_eq_true_iff, h.nextVtId]

theorem Follows.kind {id : Nat} {handle : Handle} (hid : s.handles id = some handle) :
    r.kinds id = some handle.kind := by
  rw [h.kinds, hid]
  rfl

end

theorem kind_onDisplay (f : Display → Display) (handle : Handle) :
    (handle.onDisplay f).kind = handle.kind := by
  cases handle <;> rfl

theorem Follows.opened (h : s.Follows r) (opening : Opening) :
    (s.opened opening).Follows (r.opened opening) := by
  refine ⟨congrArg (· + 1) h.nextId, fun id => ?_, h.nextVtId, h.keys⟩
  show update r.kinds r.nextId (some opening.kind) id =
    (update s.handles s.nextId (some (newHandle s.activeVt opening)) id).map Handle.kind
  rw [h.nextId]
  by_cases hid : id = s.nextId
  · subst hid
    rw [update_self, update_self, map_some]
    cases opening <;> rfl
  · rw [update_of_ne hid, update_of_ne hid, h.kinds]

end Follows

end InputScheme

/-! ### What the consumers get -/

namespace Joint

section Routed

variable {decode : List U8 → EventOption} {s t mid : InputScheme} {r : Routing} {q : Request}

theorem routed_iff_heard : Routed ⟨s, r⟩ ↔ ∀ id vt bytes,
    (s.handles id).map heard = some (some (vt, bytes)) → r.closed id = false →
      bytes = r.received id := by
  constructor
  · intro h id vt bytes hheard hopen
    obtain ⟨handle, hid, hhandle⟩ := map_eq_some_iff.mp hheard
    cases handle with
    | consumer c =>
      cases hhandle
      exact h id c hid hopen
    | _ => cases hhandle
  · intro h id c hid hopen
    exact h id c.vt _ (by rw [hid]; rfl) hopen

/-- What matters for `Routed`. -/
theorem routed_congr (hheard : ∀ id, (t.handles id).map heard = (s.handles id).map heard) :
    Routed ⟨t, r⟩ ↔ Routed ⟨s, r⟩ := by
  rw [routed_iff_heard, routed_iff_heard]
  exact forall_congr' fun id => by simp only [hheard]

theorem heard_onDisplay (f : Display → Display) (handle : Handle) :
    (handle.onDisplay f).heard = handle.heard := by
  cases handle <;> rfl

theorem routed_opened (h : Routed ⟨s, r⟩) (hfollows : s.Follows r) (opening : Opening) :
    Routed ⟨s.opened opening, r.opened opening⟩ := by
  rw [routed_iff_heard] at h ⊢
  intro id vt bytes hheard hopen
  have hopen' : update r.closed r.nextId false id = false := hopen
  show bytes = update r.received r.nextId [] id
  rw [hfollows.nextId] at hopen' ⊢
  obtain ⟨handle, hhandle, hheard⟩ := map_eq_some_iff.mp hheard
  rcases handles_opened_eq_some.mp hhandle with ⟨rfl, rfl⟩ | ⟨hid, hold⟩
  · rw [update_self]
    cases opening with
    | consumer =>
      cases hheard
      rfl
    | _ => cases hheard
  · rw [update_of_ne hid] at hopen' ⊢
    exact h id vt bytes (by rw [hold, map_some, hheard]) hopen'

/-- A write is delivered as a whole. -/
theorem heard_delivered (s : InputScheme) (es : List EventOption) (vt : Nat) (buf : List U8) (id : Nat) :
    (((s.noted.afterEvents es).delivered vt buf).handles id).map heard =
      ((s.handles id).map heard).map fun heard => heard.map fun heard =>
        (heard.1, heard.2 ++ if vt = heard.1 then buf else []) := by
  have hbefore : ((s.noted.afterEvents es).handles id).map heard =
      (s.handles id).map heard :=
    map_handles_sameVts (sameVts_afterEvents s.noted es) heard_onDisplay id
  rw [← hbefore]
  show (((s.noted.afterEvents es).handles id).map _).map heard = _
  cases (s.noted.afterEvents es).handles id with
  | none => rfl
  | some handle =>
    cases handle with
    | consumer c =>
      simp only [map_some, onConsumer, heard]
      by_cases hvt : c.vt = vt
      · simp [hvt]
      · simp [hvt, Ne.symm hvt]
    | _ => rfl

/-- What the consumers get of a write is what they should get exactly if the active VT is steady. -/
theorem routed_delivered (hwf : s.WF) (hfollows : s.Follows r) (h : Routed ⟨s, r⟩) {id : Nat}
    {buf : List U8} {vt : Nat} (hid : s.handles id = some .producer)
    (hwhole : EVENT_SIZE ∣ buf.length) (hactive : s.activeAfter decode buf = some vt) :
    Routed ⟨(s.noted.afterEvents ((chunks buf).map decode)).delivered vt buf,
        (chunks buf).foldl (input decode) r⟩ ↔
      Steady decode ⟨s, r⟩ (.write id buf) := by
  have hne : ∀ chunk ∈ chunks buf, chunk ≠ [] := by
    rintro chunk hchunk rfl
    exact absurd (length_of_mem_chunks hchunk) (by decide)
  have hclosed : ((chunks buf).foldl (input decode) r).closed = r.closed := by
    rw [foldl_input]
  -- One open consumer.
  have hone : ∀ id' c, s.handles id' = some (.consumer c) → r.closed id' = false →
      (c.taken ++ c.pending ++ (if vt = c.vt then buf else []) =
          ((chunks buf).foldl (input decode) r).received id' ↔
        ∀ events, events <+: chunks buf → events ≠ [] →
          (activeAt decode s events = some c.vt ↔ activeAt decode s (chunks buf) = some c.vt)) := by
    intro id' c hid' hopen
    have hlistens : r.Listens id' c.vt := ⟨hfollows.kind hid', hopen⟩
    have hend : activeAt decode s (chunks buf) = some c.vt ↔ vt = c.vt := by
      rw [show activeAt decode s (chunks buf) = some vt from hactive, some.injEq]
    rw [received_foldl _ hlistens, ← h id' c hid' hopen, append_cancel_left_eq,
      hfollows.known hwf, hfollows.keys, hend, eq_comm]
    have hshare : share decode s.known c.vt s.keys (chunks buf) =
        (if vt = c.vt then (chunks buf).flatten else []) ↔ _ := share_iff hne (vt = c.vt)
    rw [flatten_chunks hwhole] at hshare
    exact hshare
  rw [routed_iff_heard]
  constructor
  · intro hrouted _ id' c hid' hopen
    refine (hone id' c hid' hopen).mp (hrouted id' c.vt _ ?_ (by rw [hclosed]; exact hopen))
    rw [heard_delivered, show s.handles id' = some (.consumer c) from hid']
    rfl
  · intro hsteady id' vt' bytes hheard hopen
    rw [heard_delivered] at hheard
    rw [Option.map_map] at hheard
    obtain ⟨handle, hid', hhandle⟩ := map_eq_some_iff.mp hheard
    rw [hclosed] at hopen
    cases handle with
    | consumer c =>
      cases hhandle
      exact (hone id' c hid' hopen).mpr (hsteady hid id' c hid' hopen)
    | _ => cases hhandle

/-- What the routing is about in a handle. -/
def seen (handle : Handle) : Kind × Option (Nat × List U8) := (handle.kind, handle.heard)

/-- The routing follows the daemon, and what was received is right exactly under a condition. -/
structure Routes (s : InputScheme) (r : Routing) (P : Prop) : Prop where
  follows : s.Follows r
  routed : Routed ⟨s, r⟩ ↔ P

section Routes

variable {P : Prop} (h : Routes s r P)

include h

theorem Routes.of_seen (hid : t.nextId = s.nextId) (hvt : t.nextVtId = s.nextVtId)
    (hkeys : t.keys = s.keys) (hseen : ∀ id, (t.handles id).map seen = (s.handles id).map seen) :
    Routes t r P := by
  have hkinds : ∀ id, (t.handles id).map kind = (s.handles id).map kind := by
    intro id
    simpa [Option.map_map, comp_def, seen] using congrArg (Option.map Prod.fst) (hseen id)
  have hheard : ∀ id, (t.handles id).map heard = (s.handles id).map heard := by
    intro id
    simpa [Option.map_map, comp_def, seen] using congrArg (Option.map Prod.snd) (hseen id)
  exact ⟨⟨h.follows.nextId.trans hid.symm, fun id => (h.follows.kinds id).trans (hkinds id).symm,
    h.follows.nextVtId.trans hvt.symm, h.follows.keys.trans hkeys.symm⟩,
    (routed_congr hheard).trans h.routed⟩

theorem Routes.setHandle {id : Nat} {old new : Handle} (hid : s.handles id = some old)
    (hseen : seen new = seen old) : Routes (s.base.setHandle id new) r P :=
  h.of_seen rfl rfl rfl (map_handles_setHandle hid hseen)

theorem Routes.takeOver (device : List Char) : Routes (s.takeOver device) r P := by
  refine h.of_seen rfl rfl rfl (map_handles_mapHandles (s := s) fun handle => ?_)
  cases handle with
  | consumer c =>
    simp only [onConsumer]
    split <;> rfl
  | _ => rfl

theorem Routes.marked : Routes s.marked r P :=
  h.of_seen rfl rfl rfl (map_handles_marked fun handle => by cases handle <;> rfl)

end Routes

/-- The routing takes the same step, and what is received stays right exactly if the active VT is
steady. -/
theorem routes_effect (hwf : s.WF) (follows : s.Follows r) (h : Routed ⟨s, r⟩) (hwhole : Whole s q)
    (heffect : Effect decode s q mid) :
    Routes mid (r.step decode q) (Steady decode ⟨s, r⟩ q) := by
  -- Nothing is delivered, and nothing should be.
  have still : r.step decode q = r → Steady decode ⟨s, r⟩ q →
      Routes s (r.step decode q) (Steady decode ⟨s, r⟩ q) := by
    intro heq steady
    rw [heq]
    exact ⟨follows, iff_of_true h steady⟩
  cases heffect with
  | openFailed path parse =>
    rw [Routing.step, parse]
    exact ⟨⟨congrArg (· + 1) follows.nextId, follows.kinds, follows.nextVtId, follows.keys⟩,
      iff_of_true h trivial⟩
  | opened path opening parse =>
    rw [Routing.step, parse]
    exact ⟨follows.opened opening, iff_of_true (routed_opened h follows opening) trivial⟩
  | stale id len c handle =>
    have hkind : r.kinds id ≠ some .display := by simp [follows.kind handle, kind]
    exact (still (if_neg fun hnew => hkind hnew.2) trivial).setHandle handle rfl
  | readBytes id len c handle =>
    have hkind : r.kinds id ≠ some .display := by simp [follows.kind handle, kind]
    refine (still (if_neg fun hnew => hkind hnew.2) trivial).setHandle handle ?_
    simp [seen, kind, heard]
  | newVt id d handle =>
    rw [Routing.step, if_pos ⟨rfl, follows.kind handle⟩]
    exact ⟨⟨follows.nextId, follows.kinds, congrArg (· + 1) follows.nextVtId, follows.keys⟩,
      iff_of_true h trivial⟩
  | readEvents id len d handle ne =>
    exact (still (if_neg fun hzero => ne hzero.1) trivial).setHandle handle rfl
  | subscribeConsumer _ _ _ handle | subscribeDisplay _ _ _ handle =>
    exact (still rfl trivial).setHandle handle rfl
  | control id buf handle length =>
    have hsame := sameVts_afterSwitch s.noted (ofLe buf)
    have hstep : r.step decode (.write id buf) =
        { r with keys := (s.noted.afterSwitch (ofLe buf)).keys } := by
      rw [Routing.step, follows.kind handle]
      show (if buf.length = VT_ACTIVATE_SIZE then _ else r) = _
      rw [if_pos length, keys_afterSwitch, follows.known hwf, follows.keys]
      rfl
    have hkinds := map_handles_sameVts hsame kind_onDisplay
    have hheard := map_handles_sameVts hsame heard_onDisplay
    rw [hstep]
    refine ⟨⟨follows.nextId.trans hsame.nextId.symm,
      fun id => (follows.kinds id).trans (hkinds id).symm,
      follows.nextVtId.trans hsame.nextVtId.symm, rfl⟩,
      iff_of_true ((routed_congr hheard).mpr h) fun hid => ?_⟩
    cases handle.symm.trans hid
  | produce id buf vt handle noise survives active =>
    have hsame := sameVts_afterEvents s.noted ((chunks buf).map decode)
    have hstep : r.step decode (.write id buf) = (chunks buf).foldl (input decode) r := by
      rw [Routing.step, follows.kind handle]
      rfl
    rw [hstep]
    refine ⟨?_, routed_delivered hwf follows h handle (hwhole handle) active⟩
    rw [foldl_input, follows.known hwf, follows.keys]
    refine ⟨follows.nextId.trans hsame.nextId.symm, fun id => ?_,
      follows.nextVtId.trans hsame.nextVtId.symm, (keys_afterEvents s.noted _).symm⟩
    refine (follows.kinds id).trans (.symm (.trans ?_
      (map_handles_sameVts hsame kind_onDisplay id)))
    refine map_handles_mapHandles (fun handle => ?_) id
    cases handle with
    | consumer =>
      simp only [onConsumer, kind]
      split <;> rfl
    | _ => rfl
  | futile id buf control producer =>
    have hstep : r.step decode (.write id buf) = r := by
      rw [Routing.step, follows.kinds]
      cases hid : s.handles id with
      | none => rfl
      | some handle =>
        cases handle with
        | producer =>
          show (chunks buf).foldl (input decode) r = r
          rw [chunks_of_noise (producer hid)]
          rfl
        | control => exact if_neg (control hid)
        | _ => rfl
    refine (still hstep fun hid _ _ _ _ events hpre hne => ?_).of_seen rfl rfl rfl fun _ => rfl
    rw [chunks_of_noise (producer hid)] at hpre
    exact absurd (prefix_nil.mp hpre) hne
  | idle q notOpen notWrite notNew =>
    have base : Routes s (r.step decode q) (Steady decode ⟨s, r⟩ q) := by
      cases q with
      | openPath path => exact absurd rfl (notOpen path)
      | write id buf => exact absurd rfl (notWrite id buf)
      | read id =>
        refine still (if_neg ?_) trivial
        rintro ⟨rfl, hdisplay⟩
        rw [follows.kinds] at hdisplay
        obtain ⟨handle, hid, hkind⟩ := map_eq_some_iff.mp hdisplay
        cases handle with
        | display d => exact notNew id d rfl hid
        | _ => cases hkind
      | close id =>
        refine ⟨⟨follows.nextId, follows.kinds, follows.nextVtId, follows.keys⟩,
          iff_of_true (fun id' c hid hopen => h id' c hid ?_) trivial⟩
        have hopen' : update r.closed id true id' = false := hopen
        by_cases hsame : id' = id
        · simp [hsame] at hopen'
        · rwa [update_of_ne hsame] at hopen'
      | _ => exact still rfl trivial
    exact base.of_seen rfl rfl rfl fun _ => rfl

end Routed

/-! ### Runs -/

/-- The daemon and the routing agree. -/
structure Agrees (j : Joint) : Prop where
  wf : j.scheme.WF
  follows : j.scheme.Follows j.routing
  routed : j.Routed

section Runs

variable {decode : List U8 → EventOption} {j j' : Joint} {q : Request}

theorem agrees_new : Agrees new :=
  ⟨wf_new, ⟨rfl, fun _ => rfl, rfl, rfl⟩, fun _ _ h => nomatch h⟩

theorem step_eq_some : step decode j q = some j' ↔
    Whole j.scheme q ∧ j.scheme.step decode q = some j'.scheme ∧
      j'.routing = j.routing.step decode q := by
  unfold step
  by_cases hwhole : Whole j.scheme q
  · rw [if_pos hwhole, map_eq_some_iff, and_iff_right hwhole]
    constructor
    · rintro ⟨scheme, hstep, rfl⟩
      exact ⟨hstep, rfl⟩
    · rintro ⟨hstep, hrouting⟩
      exact ⟨j'.scheme, hstep, by rw [← hrouting]⟩
  · rw [if_neg hwhole]
    exact iff_of_false (by simp) fun h => hwhole h.1

/-- **One turn.** What is received stays right exactly if the active VT is steady. -/
theorem routes_step (hagrees : Agrees j) (h : step decode j q = some j') :
    Routes j'.scheme j'.routing (Steady decode j q) := by
  obtain ⟨hwhole, hstep, hrouting⟩ := step_eq_some.mp h
  obtain ⟨mid, heffect, hs'⟩ := step_cases hagrees.wf hstep
  have hmid := routes_effect hagrees.wf hagrees.follows hagrees.routed hwhole heffect
  have hhandoff : Routes mid.handoff (j.routing.step decode q) (Steady decode j q) := by
    rcases heffect.handoff_cases hagrees.wf with ⟨-, heq⟩ | ⟨path, device, -, -, -, heq⟩
    · rw [heq]
      exact hmid
    · rw [heq]
      exact hmid.takeOver device
  rw [hrouting]
  rcases hs' with heq | heq
  · rw [heq]
    exact hhandoff
  · rw [heq]
    exact hhandoff.marked

theorem Agrees.step (hagrees : Agrees j) (hsteady : Steady decode j q)
    (h : step decode j q = some j') : Agrees j' :=
  have routes := routes_step hagrees h
  ⟨hagrees.wf.step (step_eq_some.mp h).2.1, routes.follows, routes.routed.mpr hsteady⟩

variable {rs : List Request} {r : Routing}

/-! ### Batches -/

/-- The events of a write, each in a write of its own. -/
def unbatch : Request → List Request
  | .write id buf =>
    if EVENT_SIZE ∣ buf.length then (chunks buf).map (.write id) else [.write id buf]
  | q => [q]

/-- Whole events matter if a producer writes them. -/
theorem step_write_whole (id : Nat) {buf : List U8} (hwhole : EVENT_SIZE ∣ buf.length) :
    r.step decode (.write id buf) =
      if r.kinds id = some .producer then (chunks buf).foldl (input decode) r else r := by
  have hsize : buf.length ≠ VT_ACTIVATE_SIZE := by
    intro h
    rw [h] at hwhole
    exact absurd hwhole (by decide)
  rw [Routing.step]
  cases r.kinds id with
  | none => rfl
  | some kind =>
    cases kind with
    | control => exact if_neg hsize
    | _ => rfl

theorem foldl_writes (id : Nat) {events : List (List U8)}
    (hlen : ∀ chunk ∈ events, chunk.length = EVENT_SIZE) :
    (events.map (.write id)).foldl (Routing.step decode) r =
      if r.kinds id = some .producer then events.foldl (Routing.input decode) r else r := by
  induction events generalizing r with
  | nil => exact (ite_self r).symm
  | cons chunk rest ih =>
    have hchunk := hlen chunk mem_cons_self
    rw [map_cons, foldl_cons, step_write_whole id ⟨1, by omega⟩,
      chunks_single hchunk, ih fun chunk' h => hlen chunk' (mem_cons_of_mem _ h)]
    by_cases hkind : r.kinds id = some .producer
    · rw [if_pos hkind, if_pos hkind]
      exact if_pos hkind
    · rw [if_neg hkind, if_neg hkind, if_neg hkind]

/-- The routing does not see how events are put into writes. -/
theorem foldl_unbatch (r : Routing) (q : Request) :
    (unbatch q).foldl (Routing.step decode) r = r.step decode q := by
  cases q with
  | write id buf =>
    rw [unbatch]
    split
    · rw [foldl_writes id fun _ h => length_of_mem_chunks h, step_write_whole id ‹_›]
    · rfl
  | _ => rfl

theorem foldl_flatMap_unbatch (rs : List Request) (r : Routing) :
    (rs.flatMap unbatch).foldl (Routing.step decode) r = rs.foldl (Routing.step decode) r := by
  induction rs generalizing r with
  | nil => rfl
  | cons q rs ih => rw [flatMap_cons, foldl_append, foldl_unbatch, ih, foldl_cons]

theorem routing_run (h : run (step decode) new rs = some j) :
    j.routing = rs.foldl (Routing.step decode) .new := by
  refine run_induction (motive := fun rs j => j.routing = rs.foldl (Routing.step decode) .new) rfl ?_ h
  intro rs j q j' _ ih hstep
  rw [(step_eq_some.mp hstep).2.2, ih, foldl_append]
  rfl

/-- The open consumers got the same bytes. -/
def SameBytes (j j' : Joint) : Prop :=
  ∀ id c, j.scheme.handles id = some (.consumer c) → j.routing.closed id = false →
    ∃ c', j'.scheme.handles id = some (.consumer c') ∧ c'.vt = c.vt ∧
      c'.taken ++ c'.pending = c.taken ++ c.pending

theorem Agrees.sameBytes (h : Agrees j) (h' : Agrees j') (hrouting : j.routing = j'.routing) :
    SameBytes j j' := by
  intro id c hid hopen
  have hkind : j'.routing.kinds id = some (.consumer c.vt) := by
    rw [← hrouting]
    exact h.follows.kind hid
  rw [h'.follows.kinds] at hkind
  obtain ⟨handle, hid', hhandle⟩ := map_eq_some_iff.mp hkind
  cases handle with
  | consumer c' =>
    refine ⟨c', hid', Kind.consumer.inj hhandle, ?_⟩
    rw [h.routed id c hid hopen, h'.routed id c' hid' (hrouting ▸ hopen), hrouting]
  | _ => cases hhandle

/-- **Routing.** In every run in which producers write whole events, each open consumer gets the events
of its VT, in order and each once, exactly if the active VT is steady in every write, as far as the
VTs of open consumers go. In such runs it does not matter how the events are put into writes. -/
theorem routing_iff (decode : List U8 → EventOption) :
    (∀ rs j, run (step decode) new rs = some j →
      (Throughout (step decode) new Routed rs ↔
        Along (step decode) new (Steady decode) rs)) ∧
    ∀ rs rs' j j', run (step decode) new rs = some j →
      run (step decode) new rs' = some j' → rs.flatMap unbatch = rs'.flatMap unbatch →
      Along (step decode) new (Steady decode) rs →
      Along (step decode) new (Steady decode) rs' → SameBytes j j' := by
  have keep : ∀ j q j', Agrees j → Steady decode j q → step decode j q = some j' → Agrees j' :=
    fun _ _ _ hagrees hsteady => hagrees.step hsteady
  refine ⟨fun rs j h => throughout_iff_along agrees_new agrees_new.routed keep
    (fun _ _ _ hagrees hstep => (routes_step hagrees hstep).routed) h,
    fun rs rs' j j' h h' hbatch along along' => ?_⟩
  have hagrees := invariant_of_along agrees_new keep h along
  have hagrees' := invariant_of_along agrees_new keep h' along'
  refine hagrees.sameBytes hagrees' ?_
  rw [routing_run h, routing_run h', ← foldl_flatMap_unbatch, hbatch, foldl_flatMap_unbatch]

/-- At most one event is written. -/
def IsSingle : Request → Prop
  | .write _ buf => buf.length < 2 * EVENT_SIZE
  | _ => True

instance : ∀ q, Decidable (IsSingle q)
  | .write _ buf => inferInstanceAs (Decidable (buf.length < 2 * EVENT_SIZE))
  | .openPath _ | .fpath .. | .read .. | .fevent .. | .close _ | .sendFd | .cancellation =>
    isTrue trivial

/-- A single event is steady. -/
theorem steady_of_isSingle (j : Joint) (h : IsSingle q) : Steady decode j q := by
  cases q with
  | write id buf =>
    intro _ _ c _ _ events hpre hne
    have hone : (chunks buf).length ≤ 1 := by
      rw [chunks, length_map, length_range]
      exact Nat.le_of_lt_succ (Nat.div_lt_of_lt_mul (by rwa [IsSingle, Nat.mul_comm] at h))
    have hall : events = chunks buf :=
      hpre.eq_of_length_le (hone.trans (length_pos_of_ne_nil hne))
    rw [hall]
  | _ => trivial

theorem along_steady_of_isSingle (h : ∀ q ∈ rs, IsSingle q) :
    Along (step decode) new (Steady decode) rs := by
  rintro pre q post rfl j -
  exact steady_of_isSingle j (h q (by simp))

end Runs

/-- An event of `orbclient` has a code and two values. A key has code 1, its scancode in the second
value and whether it is pressed in bit 8 of that. A `Resize` has code 8. -/
def orbclientEvent (bytes : List U8) : EventOption :=
  let value := fun i => ofLe (field bytes i 8)
  if value 0 = 1 then .key (.ofNat 8 (value 16)) ((value 16).testBit 8)
  else if value 0 = 8 then .resize (.ofNat 32 (value 8)) (.ofNat 32 (value 16))
  else .other

/-- A key, as `orbclient` lays it out. -/
def key (scancode pressed : U8) : List U8 :=
  1 :: List.replicate 15 0 ++ [scancode, pressed] ++ List.replicate 6 0

/-- Two VTs with a consumer each, of which the first is active. -/
def twoVts : List Request :=
  [.openPath "handle/virtio".toList, .read 0 0, .read 0 0, .openPath "control".toList,
    .write 1 [1, 0, 0, 0, 0, 0, 0, 0], .openPath "consumer/1".toList, .openPath "consumer/2".toList,
    .openPath "producer".toList]

/-- The keys `A`, Super and F2, each in a write of its own. -/
def switchSingly : List Request :=
  twoVts ++ [.write 4 (key 0x1E 1), .write 4 (key 0x5B 1), .write 4 (key 0x3C 1)]

/-- The same keys in one write. -/
def switchBatched : List Request := twoVts ++ [.write 4 (key 0x1E 1 ++ key 0x5B 1 ++ key 0x3C 1)]

theorem switchSingly_routed :
    Throughout (step orbclientEvent) new Routed switchSingly := by
  obtain ⟨j, hj⟩ : ∃ j, run (step orbclientEvent) new switchSingly = some j :=
    isSome_iff_exists.mp (by decide +kernel)
  exact ((routing_iff orbclientEvent).1 switchSingly j hj).mpr (along_steady_of_isSingle (by decide))

/-- In one write, the keys before the switch go to the new VT. -/
theorem switchBatched_misrouted : switchBatched.flatMap unbatch = switchSingly.flatMap unbatch ∧
      ¬ Throughout (step orbclientEvent) new Routed switchBatched := by
  refine ⟨by decide +kernel, fun hrouted => ?_⟩
  have hrun : (run (step orbclientEvent) new switchBatched).map (fun j =>
      (j.scheme.handles 2, j.routing.closed 2, j.routing.received 2)) =
      some (some (.consumer ⟨0, [], false, false, 1, []⟩), false, key 0x1E 1 ++ key 0x5B 1) := by
    decide +kernel
  obtain ⟨j, hj, hview⟩ := map_eq_some_iff.mp hrun
  obtain ⟨hid, hrest⟩ := Prod.mk.inj hview
  obtain ⟨hopen, hreceived⟩ := Prod.mk.inj hrest
  have hbytes := hrouted switchBatched prefix_rfl j hj 2 _ hid hopen
  rw [hreceived] at hbytes
  exact absurd hbytes (by decide)

end Joint

end RedoxDrivers.Inputd
