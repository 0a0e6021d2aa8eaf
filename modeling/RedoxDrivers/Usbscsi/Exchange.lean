import RedoxDrivers.Usbscsi.Transport

/-!
When a command gets through to a device and back.

`Deals` says what a device did with a command, in terms of its answers on the bulk endpoints
alone. `exchange_sound` and `exchange_of_csw` connect it with `send_command`: a status is
returned exactly if the device has dealt with the command in a way that is accepted, and it is the
status of that dealing.
-/

namespace RedoxDrivers.Usbscsi

open Lib Lib.Endian List Nat Try CswStatus NonZeroU32 Transfer
open Xhci (PortTransferStatusKind PortTransferStatus PortReqDirection)

theorem ofNat_eq_iff {m k : Nat} (hm : m < 2 ^ 32) (hk : k < 2 ^ 32) :
    BitVec.ofNat 32 m = BitVec.ofNat 32 k ↔ m = k := by
  rw [← BitVec.toNat_inj, toNat_ofNat_of_lt hm, toNat_ofNat_of_lt hk]

theorem not_turnedDown_iff {len : Nat} : ¬ turnedDown len ↔ 0 < len ∧ len < 2 ^ 32 := by
  rw [turnedDown, BitVec.toNat_ofNat]
  omega

theorem Transfer.result_eq_ok {n : Nat} (h : n < 2 ^ 32) {t : Transfer n} {status : PortTransferStatus} :
    t.result = .ok status ↔
      (t.kind = .success → t.count = n) ∧ status = ⟨t.kind, .ofNat 32 t.count⟩ := by
  have hn : (BitVec.ofNat 32 n).toNat = n := by
    exact mod_eq_of_lt h
  by_cases hopen : t.kind = .success ∧ t.count ≠ n
  · simp [result, ctlRes, hopen]
  · have hclosed : t.kind = .success → t.count = n := by
      intro hkind
      by_contra hne
      exact hopen ⟨hkind, hne⟩
    rw [result, ctlRes, if_neg hopen, hn]
    show (if t.kind = .success ∧ t.count ≠ n then _ else _) = _ ↔ _
    rw [if_neg hopen, Except.ok.injEq, and_iff_right hclosed, eq_comm]

theorem CommandBlockWrapper.length_bytes {tag dataTransferLen : U32} {direction : PortReqDirection}
    {lun : U8} {cb : List U8} (h : cb.length ≤ 16) :
    (wrap tag dataTransferLen direction lun cb).bytes.length = 31 := by
  simp only [wrap, bytes, length_append, length_leBytes, length_cons, length_nil,
    length_replicate]
  omega

namespace BulkOnlyTransport

variable {σ : Type} {n : Nat} {bus : Bus σ} {s s' : Exchange σ n} {p : Profile}

theorem ask_eq_ok {α : Type} {f : σ → Except XhciClientHandleError α × σ} {a : α} :
    ask f s = (.ok (.ok a), s') ↔ ∃ b, f s.transport.bus = (.ok a, b) ∧ s.onBus b = s' := by
  unfold ask
  rcases f s.transport.bus with ⟨e | a, b⟩
  all_goals simp [Except.mapError]

theorem transferWrite_eq_ok {buf : List U8} {status : PortTransferStatus} :
    transferWrite bus buf s = (.ok (.ok status), s') ↔
      (0 < buf.length ∧ buf.length < 2 ^ 32) ∧
      ∃ t b, bus.write buf s.transport.bus = (.ok t, b) ∧
        (t.kind = .success → t.count = buf.length) ∧ status = ⟨t.kind, .ofNat 32 t.count⟩ ∧
        s.onBus b = s' := by
  unfold transferWrite
  by_cases h : turnedDown buf.length
  · rw [if_pos h, ofExcept_eq_ok]
    constructor
    · rintro ⟨herror, -⟩
      cases herror
    · rintro ⟨hlen, -⟩
      exact absurd h (not_turnedDown_iff.mpr hlen)
  · have hlen := not_turnedDown_iff.mp h
    simp only [if_neg h, Try.bind_eq_ok, ask_eq_ok, ofExcept_mapError_eq_ok,
      result_eq_ok hlen.2]
    constructor
    · rintro ⟨t, mid, ⟨b, hb, rfl⟩, ⟨hfull, hstatus⟩, rfl⟩
      exact ⟨hlen, t, b, hb, hfull, hstatus, rfl⟩
    · rintro ⟨-, t, b, hb, hfull, hstatus, rfl⟩
      exact ⟨t, _, ⟨b, hb, rfl⟩, ⟨hfull, hstatus⟩, rfl⟩

theorem transferRead_eq_ok {status : PortTransferStatus} :
    transferRead bus s = (.ok (.ok status), s') ↔
      (0 < n ∧ n < 2 ^ 32) ∧
      ∃ t b, bus.read n s.transport.bus = (.ok t, b) ∧
        (t.kind = .success → t.count = n) ∧ status = ⟨t.kind, .ofNat 32 t.count⟩ ∧
        { s.onBus b with buffer := t.bytes } = s' := by
  unfold transferRead
  by_cases h : turnedDown n
  · rw [if_pos h, ofExcept_eq_ok]
    constructor
    · rintro ⟨herror, -⟩
      cases herror
    · rintro ⟨hlen, -⟩
      exact absurd h (not_turnedDown_iff.mpr hlen)
  · have hlen := not_turnedDown_iff.mp h
    simp only [if_neg h, Try.bind_eq_ok, ask_eq_ok, Try.modify_apply, ofExcept_mapError_eq_ok,
      result_eq_ok hlen.2]
    constructor
    · rintro ⟨t, mid, ⟨b, hb, rfl⟩, u, mid', hput, ⟨hfull, hstatus⟩, rfl⟩
      cases hput
      exact ⟨hlen, t, b, hb, hfull, hstatus, rfl⟩
    · rintro ⟨-, t, b, hb, hfull, hstatus, rfl⟩
      exact ⟨t, _, ⟨b, hb, rfl⟩, (), _, rfl, ⟨hfull, hstatus⟩, rfl⟩

theorem sendCbw_eq_ok {cb : List U8} {data : DeviceReqData} {cbw : CommandBlockWrapper}
    (hcb : cb.length ≤ 16) : sendCbw bus p cb data s = (.ok (.ok cbw), s') ↔
      ∃ tag t b, p.add s.transport.currentTag 1 = .ok tag ∧
        cbw = .wrap tag (.ofNat 32 data.len) data.direction 0 cb ∧
        bus.write cbw.bytes s.transport.bus = (.ok t, b) ∧ t.kind ≠ .stalled ∧ t.count = 31 ∧
        { s.onBus b with transport.currentTag := tag } = s' := by
  have hlen (tag : U32) :
      (CommandBlockWrapper.wrap tag (.ofNat 32 data.len) data.direction 0 cb).bytes.length = 31 :=
    CommandBlockWrapper.length_bytes hcb
  have hnew (tag : U32) : CommandBlockWrapper.new tag (.ofNat 32 data.len) data.direction 0 cb =
      .ok (.wrap tag (.ofNat 32 data.len) data.direction 0 cb) := if_neg (by omega)
  unfold sendCbw
  simp only [Try.bind_eq_ok, Try.read_apply, Try.modify_apply, Try.checked_eq_ok, hnew,
    ofExcept_eq_ok, transferWrite_eq_ok]
  constructor
  · rintro ⟨_, _, hread, tag, _, ⟨hadd, rfl⟩, _, _, hset, _, _, ⟨hcbw, rfl⟩, status, _, ⟨-, t, b, hwrite,
      -, rfl, rfl⟩, h⟩
    cases hread
    cases hset
    cases hcbw
    by_cases hkind : t.kind = .stalled
    · rw [if_pos hkind] at h
      cases h
    · rw [if_neg hkind] at h
      by_cases hbytes : (BitVec.ofNat 32 t.count : U32) ≠ 31
      · rw [if_pos hbytes] at h
        cases h
      · rw [if_neg hbytes] at h
        cases h
        have hle : t.count ≤ 31 := t.count_le.trans (hlen tag).le
        exact ⟨tag, t, b, hadd, rfl, hwrite, hkind,
          (ofNat_eq_iff (by omega) (by decide)).mp (not_not.mp hbytes), rfl⟩
  · rintro ⟨tag, t, b, hadd, rfl, hwrite, hkind, hbytes, rfl⟩
    refine ⟨_, _, rfl, tag, _, ⟨hadd, rfl⟩, (), _, rfl, _, _, ⟨rfl, rfl⟩, _, _, ⟨?_, t, b, hwrite, ?_,
      rfl, rfl⟩, ?_⟩
    · rw [hlen]
      decide
    · exact fun _ => hbytes.trans (hlen tag).symm
    · rw [if_neg hkind, hbytes]
      rfl

end BulkOnlyTransport

/-- How a device deals with a command that comes with `n` bytes of data: the transfer of the data,
the buffer after it and the transfer of the CSW. -/
structure Dealing (n : Nat) where
  data : Transfer n
  buffer : Buf n
  csw : Received 13

namespace BulkOnlyTransport

variable {σ : Type} {n : Nat} {bus : Bus σ} {s s' : Exchange σ n} {p : Profile}

/-- What the device does in the data phase. -/
def DataPhase (bus : Bus σ) : (data : DeviceReqData) → σ → Transfer data.len → Buf data.len → σ → Prop
  | .in_ buffer, b, moved, after, b' =>
    ∃ t, bus.read buffer.length b = (.ok t, b') ∧ t.toTransfer = moved ∧ t.bytes = after
  | .out buffer, b, moved, after, b' => bus.write buffer b = (.ok moved, b') ∧ after = ⟨buffer, rfl⟩
  | .noData, _, _, _, _ => False

/-- A CSW comes, after any number of stalls. -/
inductive CswArrives (bus : Bus σ) : Bool → Exchange σ n → Received 13 → Exchange σ n → Prop where
  | now {already : Bool} {s : Exchange σ n} {t : Received 13} {b : σ}
      (hread : bus.read 13 s.transport.bus = (.ok t, b)) (hkind : t.kind ≠ .stalled)
      (hcount : t.kind ≠ .unknown → t.count = 13) : CswArrives bus already s t (s.onBus b)
  | again {already : Bool} {s s' s'' : Exchange σ n} {t t' : Received 13} {b : σ}
      (hread : bus.read 13 s.transport.bus = (.ok t, b)) (hkind : t.kind = .stalled)
      (hrecover : recover bus already (s.onBus b) = (.ok (.ok ()), s'))
      (hnext : CswArrives bus true s' t' s'') : CswArrives bus already s t' s''

variable {already : Bool} {t : Received 13}

/-- One read of the CSW. -/
theorem readCswRaw_step {depth : Nat} {b : σ} (hread : bus.read 13 s.transport.bus = (.ok t, b))
    (hfull : t.kind = .success → t.count = 13) : readCswRaw bus (depth + 1) already s =
      (if t.kind = .stalled then do
        recover bus already
        readCswRaw bus depth true
      else if t.kind = .shortPacket ∧ t.count ≠ 13 then panic .assertFailed
      else pure t) (s.onBus b) := by
  have hresult : t.result = .ok ⟨t.kind, .ofNat 32 t.count⟩ :=
    (result_eq_ok (by decide)).mpr ⟨hfull, rfl⟩
  have hcount : (BitVec.ofNat 32 t.count : U32) = 13 ↔ t.count = 13 :=
    ofNat_eq_iff (t.count_le.trans_lt (by decide)) (by decide)
  rw [readCswRaw, bind_ok (ask_eq_ok.mpr ⟨b, hread, rfl⟩),
    bind_ok (ofExcept_mapError_eq_ok.mpr ⟨hresult, rfl⟩)]
  simp only [ne_eq, hcount]

theorem readCswRaw_sound {depth : Nat} (h : readCswRaw bus depth already s = (.ok (.ok t), s')) :
    CswArrives bus already s t s' := by
  induction depth generalizing already s with
  | zero => cases h
  | succ depth ih =>
    have hstart := h
    obtain ⟨t₁, _, hask, hstart⟩ := bind_eq_ok.mp hstart
    obtain ⟨b, hread, rfl⟩ := ask_eq_ok.mp hask
    obtain ⟨status, _, hresult, -⟩ := bind_eq_ok.mp hstart
    obtain ⟨hfull, -⟩ := (result_eq_ok (by decide)).mp
      (ofExcept_mapError_eq_ok.mp hresult).1
    rw [readCswRaw_step hread hfull] at h
    by_cases hstalled : t₁.kind = .stalled
    · rw [if_pos hstalled] at h
      obtain ⟨_, mid, hrecover, h⟩ := bind_eq_ok.mp h
      exact .again hread hstalled hrecover (ih h)
    · rw [if_neg hstalled] at h
      by_cases hshort : t₁.kind = .shortPacket ∧ t₁.count ≠ 13
      · rw [if_pos hshort] at h
        cases h
      · rw [if_neg hshort] at h
        cases h
        refine .now hread hstalled fun hknown => ?_
        cases hkind : t.kind with
        | success => exact hfull hkind
        | shortPacket =>
          by_contra hne
          exact hshort ⟨hkind, hne⟩
        | stalled => exact absurd hkind hstalled
        | unknown => exact absurd hkind hknown

theorem readCswRaw_complete (h : CswArrives bus already s t s') :
    ∃ depth, readCswRaw bus depth already s = (.ok (.ok t), s') := by
  induction h with
  | @now already s t b hread hkind hcount =>
    have hfull : t.kind = .success → t.count = 13 := fun h => hcount (by rw [h]; decide)
    have hshort : ¬ (t.kind = .shortPacket ∧ t.count ≠ 13) := by
      rintro ⟨h, hne⟩
      exact hne (hcount (by rw [h]; decide))
    refine ⟨1, ?_⟩
    rw [readCswRaw_step hread hfull, if_neg hkind, if_neg hshort]
    rfl
  | @again already s s' s'' t t' b hread hkind hrecover hnext ih =>
    obtain ⟨depth, ih⟩ := ih
    refine ⟨depth + 1, ?_⟩
    rw [readCswRaw_step hread (fun h => absurd (hkind.symm.trans h) (by decide)), if_pos hkind,
      bind_ok hrecover]
    exact ih

section Recovery

/-- What the recovery cannot reach: the buffer of the caller and the tag. -/
def OutOfReach (buffer : Buf n) (tag : U32) (s : Exchange σ n) : Prop :=
  s.buffer = buffer ∧ s.transport.currentTag = tag

variable {buffer : Buf n} {tag : U32}

theorem safe_ask {α : Type} (f : σ → Except XhciClientHandleError α × σ) :
    Safe (OutOfReach buffer tag) (ask f : Step σ n α) := fun _ h => ⟨h, _, rfl⟩

theorem safe_clearStall (endp : Endp) (num : BulkOnlyTransport σ → U8) :
    Safe (OutOfReach buffer tag) (clearStall bus endp num) := by
  refine safe_bind (safe_ask _) fun status => ?_
  split
  · refine safe_bind (safe_ask _) fun _ => ?_
    exact safe_bind (safe_read _) fun _ => safe_ask _
  · exact safe_pure _

theorem safe_anyHalted : Safe (OutOfReach buffer tag) (anyHalted bus) := by
  refine safe_bind (safe_ask _) fun status => ?_
  split
  · exact safe_pure _
  · exact safe_bind (safe_ask _) fun _ => safe_pure _

theorem safe_resetRecovery : Safe (OutOfReach buffer tag) (resetRecovery bus) := by
  refine safe_bind (safe_read _) fun _ => ?_
  refine safe_bind (safe_ask _) fun _ => ?_
  refine safe_bind (safe_clearStall _ _) fun _ => ?_
  refine safe_bind (safe_clearStall _ _) fun _ => ?_
  refine safe_bind safe_anyHalted fun halted => ?_
  cases halted with
  | false => exact safe_pure _
  | true => exact safe_ofExcept _

theorem safe_recover (already : Bool) : Safe (OutOfReach buffer tag) (recover bus already) := by
  cases already with
  | false => exact safe_clearStall _ _
  | true => exact safe_bind safe_resetRecovery fun _ => safe_clearStall _ _

theorem CswArrives.outOfReach {already : Bool} {t : Received 13} (h : CswArrives bus already s t s')
    (hs : OutOfReach buffer tag s) : OutOfReach buffer tag s' := by
  induction h with
  | now => exact hs
  | @again already s mid s'' t t' b hread hkind hrecover hnext ih =>
    have hmid : OutOfReach buffer tag (recover bus already (s.onBus b)).2 :=
      (safe_recover already (s.onBus b) hs).1
    rw [hrecover] at hmid
    exact ih hmid

end Recovery

/-! ### How often the CSW is read -/

section Attempts

/-- A read of the CSW ends in a stall that is recovered from. -/
def Retry (bus : Bus σ) (already : Bool) (s s' : Exchange σ n) : Prop :=
  ∃ t b, bus.read 13 s.transport.bus = (.ok t, b) ∧ t.kind = .stalled ∧
    recover bus already (s.onBus b) = (.ok (.ok ()), s')

/-- So many reads in a row do. -/
def Retries (bus : Bus σ) : Bool → Nat → Exchange σ n → Exchange σ n → Prop
  | _, 0, s, s' => s = s'
  | already, k + 1, s, s' => ∃ mid, Retry bus already s mid ∧ Retries bus true k mid s'

/-- The next read is not answered with too few bytes, unless this is noticed. -/
def Complete (bus : Bus σ) (s : Exchange σ n) : Prop :=
  ∀ t b, bus.read 13 s.transport.bus = (.ok t, b) →
    t.count = 13 ∨ t.kind = .stalled ∨ t.kind = .success

/-- The first read, and those that follow it. -/
theorem holds_readCswRaw {depth : Nat} {already : Bool} :
    Try.Holds (fun t _ => t.count = 13) (readCswRaw bus (depth + 1) already s) ↔ Complete bus s ∧
      ∀ mid, Retry bus already s mid →
        Try.Holds (fun t _ => t.count = 13) (readCswRaw bus depth true mid) := by
  rcases hread : bus.read 13 s.transport.bus with ⟨e | t, b⟩
  · refine iff_of_true ?_ ⟨fun t b h => ?_, fun mid ⟨t, b, h, _⟩ => ?_⟩
    · rw [readCswRaw, Try.bind_apply, ask, hread]
      trivial
    all_goals
      rw [hread] at h
      cases h
  have hcomplete : Complete bus s ↔ t.count = 13 ∨ t.kind = .stalled ∨ t.kind = .success := by
    refine ⟨fun h => h t b hread, fun h t' b' hread' => ?_⟩
    rw [hread] at hread'
    cases hread'
    exact h
  have hretry (mid) : Retry bus already s mid ↔
      t.kind = .stalled ∧ recover bus already (s.onBus b) = (.ok (.ok ()), mid) := by
    refine ⟨fun ⟨t', b', hread', h⟩ => ?_, fun h => ⟨t, b, hread, h⟩⟩
    rw [hread] at hread'
    cases hread'
    exact h
  simp only [hcomplete, hretry]
  by_cases hfull : t.kind = .success → t.count = 13
  · rw [readCswRaw_step hread hfull]
    by_cases hstalled : t.kind = .stalled
    · obtain ⟨r, hr⟩ := (safe_recover already (s.onBus b) ⟨rfl, rfl⟩).2
      rw [if_pos hstalled, Try.holds_bind]
      revert hr
      rcases recover bus already (s.onBus b) with ⟨stop | e | u, mid⟩
      · rintro ⟨⟩
      · exact fun _ => iff_of_true trivial ⟨.inr (.inl hstalled), fun _ h => by cases h.2⟩
      · exact fun _ => ⟨fun h => ⟨.inr (.inl hstalled), fun _ ⟨_, hmid⟩ => by cases hmid; exact h⟩,
          fun h => h.2 mid ⟨hstalled, rfl⟩⟩
    · rw [if_neg hstalled]
      cases hkind : t.kind with
      | stalled => exact absurd hkind hstalled
      | success => simp [hfull hkind, Try.Holds]
      | shortPacket => by_cases hcount : t.count = 13 <;> simp [hcount, Try.Holds]
      | unknown => simp [Try.Holds]
  · obtain ⟨hkind, hcount⟩ := Classical.not_imp.mp hfull
    refine iff_of_true ?_ ⟨.inr (.inr hkind), fun mid h => by rw [hkind] at h; cases h.1⟩
    rw [readCswRaw, bind_ok (ask_eq_ok.mpr ⟨b, hread, rfl⟩), Try.bind_apply]
    simp [result, ctlRes, hkind, hcount, Except.mapError, Try.Holds]

/-- **The CSW.** It is read in at most so many attempts, without a panic, and if there is no error
then 13 bytes of it, exactly if the device does not stall (and is recovered) as often as that in a
row, and no attempt is answered with fewer bytes, as a short packet or with an unknown status. -/
theorem csw_read_iff (bus : Bus σ) (bound : Nat) (already : Bool) (s : Exchange σ n) :
    Holds (fun t _ => t.count = 13) (readCswRaw bus bound already s) ↔
      (∀ s', ¬ Retries bus already bound s s') ∧
        ∀ k < bound, ∀ s', Retries bus already k s s' → Complete bus s' := by
  induction bound generalizing already s with
  | zero => exact iff_of_false id fun h => h.1 s rfl
  | succ bound ih =>
    simp only [holds_readCswRaw, ih]
    constructor
    · rintro ⟨hfirst, hrest⟩
      refine ⟨fun s' ⟨mid, hmid, h⟩ => (hrest mid hmid).1 s' h, fun k hk s' h => ?_⟩
      cases k with
      | zero => exact h ▸ hfirst
      | succ k =>
        obtain ⟨mid, hmid, h⟩ := h
        exact (hrest mid hmid).2 k (lt_of_succ_lt_succ hk) s' h
    · rintro ⟨hstop, hall⟩
      refine ⟨hall 0 (succ_pos _) s rfl, fun mid hmid => ⟨fun s' h => hstop s' ⟨mid, hmid, h⟩, ?_⟩⟩
      exact fun k hk s' h => hall (k + 1) (succ_lt_succ hk) s' ⟨mid, hmid, h⟩

/-- A device that stalls on every transfer. Its state is whether the endpoint is halted. -/
def stallingBus : Bus Bool where
  write _ _ := (.ok ⟨.stalled, 0, zero_le _⟩, true)
  read n _ := (.ok ⟨⟨.stalled, 0, zero_le _⟩, List.replicate n 0, length_replicate⟩, true)
  status _ halted := (.ok (if halted then .halted else .enabled), halted)
  reset _ _ _ := (.ok (), false)
  deviceRequest _ _ _ _ _ halted := (.ok (), halted)

/-- It is asked again and again. -/
theorem stallingBus_never_read : ¬ ∃ bound, Holds (fun t _ => t.count = 13)
    (readCswRaw stallingBus bound false (⟨⟨false, 1, 2, 0, 0⟩, [], rfl⟩ : Exchange Bool 0)) := by
  have hnever : ∀ bound already halted, ¬ Holds (fun t _ => t.count = 13) (readCswRaw stallingBus
      bound already (⟨⟨halted, 1, 2, 0, 0⟩, [], rfl⟩ : Exchange Bool 0)) := by
    intro bound
    induction bound with
    | zero => exact fun _ _ => id
    | succ bound ih =>
      intro already halted h
      refine ih true false ((holds_readCswRaw.mp h).2 _ ⟨_, _, rfl, rfl, ?_⟩)
      cases already <;> rfl
  rintro ⟨bound, h⟩
  exact hnever bound false false h

end Attempts

/-- The device answers in one way only. -/
theorem CswArrives.unique {already : Bool} {t t' : Received 13} {s₁ s₂ : Exchange σ n}
    (h : CswArrives bus already s t s₁) (h' : CswArrives bus already s t' s₂) : t = t' := by
  induction h with
  | @now already s t b hread hkind =>
    cases h' with
    | now hread' =>
      rw [hread] at hread'
      cases hread'
      rfl
    | again hread' hkind' =>
      rw [hread] at hread'
      cases hread'
      exact absurd hkind' hkind
  | @again already s mid s'' t t₁ b hread hkind hrecover hnext ih =>
    cases h' with
    | now hread' hkind' =>
      rw [hread] at hread'
      cases hread'
      exact absurd hkind hkind'
    | again hread' _ hrecover' hnext' =>
      rw [hread] at hread'
      cases hread'
      rw [hrecover] at hrecover'
      cases hrecover'
      exact ih hnext'

theorem DataPhase.unique {data : DeviceReqData} {b b₁ b₂ : σ} {moved moved' : Transfer data.len}
    {after after' : Buf data.len} (h : DataPhase bus data b moved after b₁)
    (h' : DataPhase bus data b moved' after' b₂) : moved = moved' ∧ after = after' ∧ b₁ = b₂ := by
  cases data with
  | in_ =>
    obtain ⟨t, hread, rfl, rfl⟩ := h
    obtain ⟨t', hread', rfl, rfl⟩ := h'
    rw [hread] at hread'
    cases hread'
    exact ⟨rfl, rfl, rfl⟩
  | out =>
    obtain ⟨hwrite, rfl⟩ := h
    obtain ⟨hwrite', rfl⟩ := h'
    rw [hwrite] at hwrite'
    cases hwrite'
    exact ⟨rfl, rfl, rfl⟩
  | noData => exact h.elim

variable {early : Option NonZeroU32}

theorem earlyResidue_eq_ok {status : PortTransferStatus} :
    earlyResidue status s = (.ok (.ok early), s') ↔
      ((status.kind = .success ∧ early = none) ∨
        (status.kind = .shortPacket ∧ early = new status.bytesTransferred)) ∧ s = s' := by
  unfold earlyResidue
  cases hkind : status.kind with
  | success | shortPacket => simp [eq_comm]
  | stalled | unknown => simp

theorem transferData_eq_ok {data : DeviceReqData} {s s' : Exchange σ data.len}
    (hdata : data ≠ .noData) (hs : s.buffer.1 = data.buffer) :
    transferData bus data s = (.ok (.ok early), s') ↔
      (0 < data.len ∧ data.len < 2 ^ 32) ∧
      ∃ moved after b, DataPhase bus data s.transport.bus moved after b ∧
        ((moved.kind = .success ∧ moved.count = data.len ∧ early = none) ∨
          (moved.kind = .shortPacket ∧ early = new (.ofNat 32 moved.count))) ∧
        ⟨(s.onBus b).transport, after⟩ = s' := by
  cases data with
  | in_ buffer =>
    simp only [transferData, Try.bind_eq_ok, transferRead_eq_ok, earlyResidue_eq_ok]
    constructor
    · rintro ⟨status, _, ⟨hlen, t, b, hread, hfull, rfl, rfl⟩, hkind, rfl⟩
      refine ⟨hlen, t.toTransfer, t.bytes, b, ⟨t, hread, rfl, rfl⟩, ?_, rfl⟩
      exact hkind.imp_left fun h => ⟨h.1, hfull h.1, h.2⟩
    · rintro ⟨hlen, moved, after, b, ⟨t, hread, rfl, rfl⟩, hkind, rfl⟩
      have hfull : t.kind = .success → t.count = buffer.length := by
        intro h
        rcases hkind with hkind | hkind
        · exact hkind.2.1
        · exact absurd (h.symm.trans hkind.1) (by decide)
      refine ⟨_, _, ⟨hlen, t, b, hread, hfull, rfl, rfl⟩, ?_, rfl⟩
      exact hkind.imp_left fun h => ⟨h.1, h.2.2⟩
  | out buffer =>
    have hbuffer : s.buffer = ⟨buffer, rfl⟩ := Subtype.ext hs
    simp only [transferData, Try.bind_eq_ok, transferWrite_eq_ok, earlyResidue_eq_ok]
    constructor
    · rintro ⟨status, _, ⟨hlen, t, b, hwrite, hfull, rfl, rfl⟩, hkind, rfl⟩
      refine ⟨hlen, t, ⟨buffer, rfl⟩, b, ⟨hwrite, rfl⟩, ?_, ?_⟩
      · exact hkind.imp_left fun h => ⟨h.1, hfull h.1, h.2⟩
      · rw [← hbuffer]
        rfl
    · rintro ⟨hlen, moved, after, b, ⟨hwrite, rfl⟩, hkind, rfl⟩
      have hfull : moved.kind = .success → moved.count = buffer.length := by
        intro h
        rcases hkind with hkind | hkind
        · exact hkind.2.1
        · exact absurd (h.symm.trans hkind.1) (by decide)
      refine ⟨_, _, ⟨hlen, moved, b, hwrite, hfull, rfl, rfl⟩, ?_, ?_⟩
      · exact hkind.imp_left fun h => ⟨h.1, h.2.2⟩
      · rw [← hbuffer]
        rfl
  | noData => exact absurd rfl hdata

theorem conclude_eq_ok {cbw : CommandBlockWrapper} {csw : CommandStatusWrapper}
    {status : SendCommandStatus} : conclude bus cbw early csw s = (.ok (.ok status), s') ↔
      csw.isValid ∧ csw.tag = cbw.tag ∧
      (csw.status = passed ∨ csw.status = failed) ∧
      status = ⟨early.or (new csw.dataResidue),
        if csw.status = passed then .success else .failed⟩ ∧ s = s' := by
  unfold conclude
  by_cases hcsw : ¬ csw.isValid ∨ csw.tag ≠ cbw.tag
  · have hbad : ¬ (csw.isValid ∧ csw.tag = cbw.tag) := by
      rintro ⟨hvalid, htag⟩
      exact hcsw.elim (fun h => h hvalid) fun h => h htag
    simp only [if_pos hcsw, Try.bind_eq_ok]
    constructor
    · rintro ⟨_, _, -, halted, _, -, h⟩
      cases halted with
      | false | true => cases h
    · rintro ⟨hvalid, htag, -⟩
      exact absurd ⟨hvalid, htag⟩ hbad
  · have hgood : csw.isValid ∧ csw.tag = cbw.tag := by
      rwa [not_or, not_not, not_not] at hcsw
    have hne : failed ≠ passed := by decide
    by_cases hpassed : csw.status = passed
    · simp [hgood, hpassed, eq_comm]
    · by_cases hfailed : csw.status = failed
      · simp [hgood, hfailed, hne, eq_comm]
      · simp [hgood, hpassed, hfailed]

end BulkOnlyTransport

namespace Dealing

variable {n : Nat}

/-- The CSW. -/
def wrapper (d : Dealing n) : CommandStatusWrapper := .ofBytes d.csw.bytes.1

/-- The number of bytes that a short packet had, taken for those that are missing. -/
def early (d : Dealing n) : Option NonZeroU32 :=
  if d.data.kind = .shortPacket then new (.ofNat 32 d.data.count) else none

/-- What `send_command` returns. -/
def status (d : Dealing n) : SendCommandStatus where
  residue := d.early.or (new d.wrapper.dataResidue)
  kind := if d.wrapper.status = passed then .success else .failed

/-- `send_command` returns a status. -/
structure Accepted (d : Dealing n) (tag : U32) : Prop where
  kind : (d.data.kind = .success ∧ d.data.count = n) ∨ d.data.kind = .shortPacket
  valid : d.wrapper.isValid
  tag_eq : d.wrapper.tag = tag
  ended : d.wrapper.status = passed ∨ d.wrapper.status = failed

end Dealing

namespace BulkOnlyTransport

variable {σ : Type} {bus : Bus σ} {p : Profile} {cb : List U8} {data : DeviceReqData}

/-- The CBW of a command. -/
def cbwFor (tag : U32) (cb : List U8) (data : DeviceReqData) : CommandBlockWrapper :=
  .wrap tag (.ofNat 32 data.len) data.direction 0 cb

/-- The device takes the CBW, moves data and sends a CSW. -/
def Deals (bus : Bus σ) (tag : U32) (cb : List U8) (data : DeviceReqData)
    (transport : BulkOnlyTransport σ) (d : Dealing data.len) (s' : Exchange σ data.len) : Prop :=
  ∃ (taken : Transfer (cbwFor tag cb data).bytes.length) (b b' : σ),
    bus.write (cbwFor tag cb data).bytes transport.bus = (.ok taken, b) ∧
    taken.kind ≠ .stalled ∧ taken.count = 31 ∧
    DataPhase bus data b d.data d.buffer b' ∧
    CswArrives bus false ⟨{ transport with bus := b', currentTag := tag }, d.buffer⟩ d.csw s'

variable {tag : U32} {transport : BulkOnlyTransport σ} {d : Dealing data.len}
  {s' : Exchange σ data.len}

theorem Deals.outOfReach (h : Deals bus tag cb data transport d s') :
    OutOfReach d.buffer tag s' := by
  obtain ⟨_, _, _, _, _, _, _, hcsw⟩ := h
  exact hcsw.outOfReach ⟨rfl, rfl⟩

theorem Deals.unique {d' : Dealing data.len} {s₁ s₂ : Exchange σ data.len}
    (h : Deals bus tag cb data transport d s₁) (h' : Deals bus tag cb data transport d' s₂) :
    d = d' := by
  obtain ⟨taken, b, b', htaken, -, -, hdata, hcsw⟩ := h
  obtain ⟨taken', c, c', htaken', -, -, hdata', hcsw'⟩ := h'
  rw [htaken] at htaken'
  cases htaken'
  obtain ⟨hmoved, hbuffer, rfl⟩ := hdata.unique hdata'
  obtain ⟨data, buffer, csw⟩ := d
  cases hmoved
  cases hbuffer
  cases hcsw.unique hcsw'
  rfl

theorem exchange_sound {depth : Nat} {status : SendCommandStatus} (hcb : cb.length ≤ 16)
    (hdata : data ≠ .noData)
    (h : exchange bus p depth cb data ⟨transport, data.buffer, rfl⟩ = (.ok (.ok status), s')) :
    (0 < data.len ∧ data.len < 2 ^ 32) ∧
    ∃ tag d, p.add transport.currentTag 1 = .ok tag ∧ Deals bus tag cb data transport d s' ∧
      d.Accepted tag ∧ status = d.status := by
  obtain ⟨cbw, _, hsend, h⟩ := bind_eq_ok.mp h
  obtain ⟨tag, taken, b, htag, rfl, hwrite, hkind, hcount, rfl⟩ := (sendCbw_eq_ok hcb).mp hsend
  obtain ⟨early, _, hphase, h⟩ := bind_eq_ok.mp h
  obtain ⟨hlen, moved, after, b', hmoved, hearly, rfl⟩ := (transferData_eq_ok hdata rfl).mp hphase
  obtain ⟨t, _, hcsw, h⟩ := bind_eq_ok.mp h
  obtain ⟨hvalid, htag_eq, hended, rfl, rfl⟩ := conclude_eq_ok.mp h
  refine ⟨hlen, tag, ⟨moved, after, t⟩, htag,
    ⟨taken, b, b', hwrite, hkind, hcount, hmoved, readCswRaw_sound hcsw⟩,
    ⟨hearly.imp (fun h => ⟨h.1, h.2.1⟩) And.left, hvalid, htag_eq, hended⟩, ?_⟩
  have hearly' : (⟨moved, after, t⟩ : Dealing data.len).early = early := by
    rcases hearly with ⟨hkind, -, rfl⟩ | ⟨hkind, rfl⟩
    all_goals simp [Dealing.early, hkind]
  rw [Dealing.status, hearly']
  rfl

theorem exchange_of_csw {depth : Nat} {transport : BulkOnlyTransport σ} {tag : U32}
    {taken : Transfer (cbwFor tag cb data).bytes.length} {b b' : σ} {d : Dealing data.len}
    {s' : Exchange σ data.len} (hcb : cb.length ≤ 16) (hdata : data ≠ .noData)
    (hlen : 0 < data.len ∧ data.len < 2 ^ 32) (htag : p.add transport.currentTag 1 = .ok tag)
    (hwrite : bus.write (cbwFor tag cb data).bytes transport.bus = (.ok taken, b))
    (hkind : taken.kind ≠ .stalled) (hcount : taken.count = 31)
    (hphase : DataPhase bus data b d.data d.buffer b')
    (hcsw : readCswRaw bus depth false ⟨{ transport with bus := b', currentTag := tag }, d.buffer⟩ =
      (.ok (.ok d.csw), s')) (haccepted : d.Accepted tag) :
    exchange bus p depth cb data ⟨transport, data.buffer, rfl⟩ = (.ok (.ok d.status), s') := by
  have hearly : (d.data.kind = .success ∧ d.data.count = data.len ∧ d.early = none) ∨
      (d.data.kind = .shortPacket ∧ d.early = new (.ofNat 32 d.data.count)) := by
    rcases haccepted.kind with ⟨hkind, hfull⟩ | hkind
    · exact .inl ⟨hkind, hfull, by simp [Dealing.early, hkind]⟩
    · exact .inr ⟨hkind, by simp [Dealing.early, hkind]⟩
  rw [exchange, bind_ok ((sendCbw_eq_ok hcb).mpr ⟨tag, taken, b, htag, rfl, hwrite, hkind, hcount, rfl⟩),
    bind_ok ((transferData_eq_ok hdata rfl).mpr ⟨hlen, d.data, d.buffer, b', hphase, hearly, rfl⟩)]
  refine (bind_ok hcsw).trans ?_
  exact conclude_eq_ok.mpr ⟨haccepted.valid, haccepted.tag_eq, haccepted.ended, rfl, rfl⟩

theorem sendCommand_eq_ok {depth : Nat} {state : BulkOnlyTransport σ} {status : SendCommandStatus}
    {back : Buf data.len} :
    (protocol bus p depth).sendCommand cb data transport = (.ok (.ok status), back, state) ↔
      ∃ s', exchange bus p depth cb data ⟨transport, data.buffer, rfl⟩ = (.ok (.ok status), s') ∧
        s'.buffer = back ∧ s'.transport = state := by
  simp only [protocol]
  generalize exchange bus p depth cb data ⟨transport, data.buffer, rfl⟩ = call
  obtain ⟨result, s'⟩ := call
  constructor
  · intro h
    cases h
    exact ⟨s', rfl, rfl, rfl⟩
  · rintro ⟨_, h, rfl, rfl⟩
    cases h
    rfl

end BulkOnlyTransport

end RedoxDrivers.Usbscsi
