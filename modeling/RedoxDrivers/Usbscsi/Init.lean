import RedoxDrivers.Usbscsi.Scsi

/-!
What a device can do to `Scsi::new`.

A `Responder` answers each command as it likes: with an error, or with a status and as many bytes
as were asked for. `Sane` says which answers the initialisation survives, and `init_robust` that it
survives no others. The answers that it does not survive are: a MODE SENSE that fails without the
transport failing; a mode data length that overflows when the two bytes of the field itself are
added; mode data that is shorter than its header or its block descriptors; pages that end in the
two first bytes of a sub-page; and a block size of zero.
-/

namespace RedoxDrivers.Usbscsi

open Lib Lib.Endian Try Cmds List Option Nat Plain DeviceReqData
open ModeParamHeader10 ModeSense10 Inquiry ReadCapacity10ParamData StandardInquiryData

/-! ### Mode pages -/

namespace Cmds

/-- The buffer starts with a page that the driver knows, and goes on after. -/
structure KnownPage (buffer : List U8) : Prop where
  two_le : 2 ≤ buffer.length
  whole : (u8At buffer 1).toNat + 1 ≤ buffer.length
  page_0 : u8At buffer 0 &&& (1 <<< 6) = 0
  known : (u8At buffer 0 &&& 0x1F = 0x01 ∧ 9 ≤ (u8At buffer 1).toNat) ∨
    (u8At buffer 0 &&& 0x1F = 0x08 ∧ 1 ≤ (u8At buffer 1).toNat)

/-- Behind pages that are known, the two first bytes of a sub-page are all that is left. -/
inductive EndsInStub : List U8 → Prop where
  | stub {buffer : List U8} (hlen : buffer.length = 2) (hsub : u8At buffer 0 &&& (1 <<< 6) ≠ 0) :
      EndsInStub buffer
  | next {buffer : List U8} (hpage : KnownPage buffer)
      (hrest : EndsInStub (buffer.drop ((u8At buffer 1).toNat + 1))) : EndsInStub buffer

variable {buffer : List U8}

theorem u8At_take {i n : Nat} (h : i < n) : u8At (buffer.take n) i = u8At buffer i := by
  rw [u8At, u8At, getD_eq_getElem?_getD, getD_eq_getElem?_getD,
    getElem?_take_of_lt h]

theorem decodePage_isSome (hwhole : (u8At buffer 1).toNat + 1 ≤ buffer.length)
    (hpage : u8At buffer 0 &&& (1 <<< 6) = 0) :
    (decodePage (buffer.take ((u8At buffer 1).toNat + 1))).isSome = true ↔
      (u8At buffer 0 &&& 0x1F = 0x01 ∧ 9 ≤ (u8At buffer 1).toNat) ∨
        (u8At buffer 0 &&& 0x1F = 0x08 ∧ 1 ≤ (u8At buffer 1).toNat) := by
  rw [decodePage, u8At_take (succ_pos _), if_pos hpage]
  generalize u8At buffer 0 &&& 0x1F = code
  by_cases hone : code = 0x01
  · rw [if_pos hone, isSome_map, fromBytes_isSome, length_take, min_eq_left hwhole]
    simp [hone]
  · rw [if_neg hone]
    by_cases height : code = 0x08
    · rw [if_pos height, isSome_map, fromBytes_isSome, length_take, min_eq_left hwhole]
      simp [height]
    · simp_all

/-- One round of the loop over the pages. -/
theorem pagesFrom_succ (fuel : Nat) (buffer : List U8) :
    (KnownPage buffer ∧ ∃ any, pagesFrom (fuel + 1) buffer =
      (pagesFrom fuel (buffer.drop ((u8At buffer 1).toNat + 1))).map (any :: ·)) ∨
    (¬ KnownPage buffer ∧ buffer.length = 2 ∧ u8At buffer 0 &&& (1 <<< 6) ≠ 0 ∧
      pagesFrom (fuel + 1) buffer = .error .outOfBounds) ∨
    (¬ KnownPage buffer ∧ ¬ (buffer.length = 2 ∧ u8At buffer 0 &&& (1 <<< 6) ≠ 0) ∧
      pagesFrom (fuel + 1) buffer = .ok []) := by
  by_cases htwo : buffer.length < 2
  · refine .inr (.inr ⟨fun h => ?_, fun h => ?_, ?_⟩)
    · exact absurd h.two_le (not_le.mpr htwo)
    · omega
    · rw [pagesFrom, nextRaw, if_pos htwo]
      rfl
  · by_cases hpage : u8At buffer 0 &&& (1 <<< 6) = 0
    · by_cases hwhole : buffer.length < (u8At buffer 1).toNat + 1
      · refine .inr (.inr ⟨fun h => ?_, fun h => h.2 hpage, ?_⟩)
        · exact absurd h.whole (not_le.mpr hwhole)
        · rw [pagesFrom, nextRaw, if_neg htwo, if_pos hpage]
          simp only [if_pos hwhole]
          rfl
      · have hsome := decodePage_isSome (not_lt.mp hwhole) hpage
        have hround : pagesFrom (fuel + 1) buffer =
            (decodePage (buffer.take ((u8At buffer 1).toNat + 1))).elim (.ok []) fun any =>
              (pagesFrom fuel (buffer.drop ((u8At buffer 1).toNat + 1))).map (any :: ·) := by
          rw [pagesFrom, nextRaw, if_neg htwo, if_pos hpage]
          simp only [if_neg hwhole, ok_bind]
          cases decodePage (buffer.take ((u8At buffer 1).toNat + 1)) with
          | none | some => rfl
        revert hsome hround
        cases decodePage (buffer.take ((u8At buffer 1).toNat + 1)) with
        | none =>
          intro hsome hround
          refine .inr (.inr ⟨fun h => ?_, fun h => h.2 hpage, hround⟩)
          exact absurd (hsome.mpr h.known) (by decide)
        | some any =>
          intro hsome hround
          exact .inl ⟨⟨by omega, by omega, hpage, hsome.mp rfl⟩, any, hround⟩
    · have hunknown : ¬ KnownPage buffer := fun h => hpage h.page_0
      by_cases hthree : buffer.length < 3
      · refine .inr (.inl ⟨hunknown, by omega, hpage, ?_⟩)
        rw [pagesFrom, nextRaw, if_neg htwo, if_neg hpage, if_pos hthree]
        rfl
      · refine .inr (.inr ⟨hunknown, by omega, ?_⟩)
        rw [pagesFrom, nextRaw, if_neg htwo, if_neg hpage, if_neg hthree]
        rfl

theorem pagesFrom_ok_iff {fuel : Nat} (h : buffer.length < fuel) :
    (∃ found, pagesFrom fuel buffer = .ok found) ↔ ¬ EndsInStub buffer := by
  induction fuel generalizing buffer with
  | zero => exact absurd h (not_lt_zero _)
  | succ fuel ih =>
    obtain ⟨hpage, any, hround⟩ | ⟨-, hlen, hsub, hround⟩ | ⟨hunknown, hno, hround⟩ :=
      pagesFrom_succ fuel buffer
    · have hshort : (buffer.drop ((u8At buffer 1).toNat + 1)).length < fuel := by
        have := hpage.two_le
        rw [length_drop]
        omega
      have hstub : EndsInStub buffer ↔ EndsInStub (buffer.drop ((u8At buffer 1).toNat + 1)) := by
        refine ⟨fun h => ?_, .next hpage⟩
        cases h with
        | stub hlen hsub => exact absurd hpage.page_0 hsub
        | next _ hrest => exact hrest
      rw [hround, hstub, ← ih hshort]
      cases pagesFrom fuel (buffer.drop ((u8At buffer 1).toNat + 1)) with
      | error | ok => simp [Except.map]
    · rw [hround]
      simp [EndsInStub.stub hlen hsub]
    · rw [hround]
      refine ⟨fun _ hstub => ?_, fun _ => ⟨[], rfl⟩⟩
      cases hstub with
      | stub hlen hsub => exact hno ⟨hlen, hsub⟩
      | next hpage => exact hunknown hpage

/-- The loop over the pages ends, and panics exactly at a stub. -/
theorem pages_ok_iff : (∃ found, pages buffer = .ok found) ↔ ¬ EndsInStub buffer :=
  pagesFrom_ok_iff (lt_succ_self _)

end Cmds

/-! ### Answers -/

/-- A device behind a transport that does not panic. -/
structure Responder (τ : Type) where
  answer : List U8 → (n : Nat) → τ → Except ProtocolError SendCommandStatus × Buf n × τ

namespace Responder

variable {τ : Type}

def protocol (r : Responder τ) : Protocol τ where
  sendCommand command data s :=
    (.ok (r.answer command data.len s).1, (r.answer command data.len s).2)

/-- What is known after a command for `n` bytes, unless it is answered with an error. -/
def After (r : Responder τ) (command : List U8) (n : Nat) (s : τ)
    (Q : SendCommandStatus → List U8 → τ → Prop) : Prop :=
  ∀ status, (r.answer command n s).1 = .ok status →
    Q status (r.answer command n s).2.1.1 (r.answer command n s).2.2

section Rules

variable {r : Responder τ} {command : List U8} {n : Nat} {s : τ}
  {Q Q' : SendCommandStatus → List U8 → τ → Prop}

theorem after_congr (h : ∀ status bytes state, bytes.length = n →
    (Q status bytes state ↔ Q' status bytes state)) :
    r.After command n s Q ↔ r.After command n s Q' :=
  forall_congr' fun _ => imp_congr_right fun _ => h _ _ _ (r.answer command n s).2.1.2

theorem After.imp (h : ∀ status bytes state, Q status bytes state → Q' status bytes state)
    (hafter : r.After command n s Q) : r.After command n s Q' :=
  fun status hstatus => h _ _ _ (hafter status hstatus)

end Rules

end Responder

/-- The disk with the answer to an INQUIRY. -/
def Scsi.putInquiry (scsi : Scsi) (bytes : List U8) : Scsi :=
  { scsi with inquiryBuffer :=
      ⟨resize (bytes ++ scsi.inquiryBuffer.1.drop bytes.length) 259, length_resize _ _⟩ }

namespace Scsi

open Responder

variable {τ : Type} {r : Responder τ} {command : List U8} {n : Nat} {s : Session τ} {p : Profile}
  {bytes : List U8} {Q : SendCommandStatus → Session τ → Prop}

theorem resize_of_length (h : bytes.length = n) : resize bytes n = bytes := by
  rw [resize, take_of_length_le h.le, h, Nat.sub_self, replicate_zero, append_nil]

/-- A command is answered with an error, or what follows is as wanted. -/
theorem holds_send {lend : Scsi → Loan} {Q' : SendCommandStatus → List U8 → τ → Prop}
    (hlen : (lend s.scsi).data.len = n)
    (hback : ∀ status (bytes : Buf (lend s.scsi).data.len) state,
      Q status ⟨(lend s.scsi).back bytes, state⟩ ↔ Q' status bytes.1 state) :
    Try.Holds Q (send r.protocol command lend s) ↔ r.After command n s.protocol Q' := by
  subst hlen
  simp only [send, Responder.protocol, After, ← hback]
  cases (r.answer command (lend s.scsi).data.len s.protocol).1 with
  | error | ok => simp [Try.Holds, Except.map, Except.mapError]

theorem holds_sendData (hn : n ≤ s.scsi.dataBuffer.length) :
    Holds Q (send r.protocol command (lendData n) s) ↔
      r.After command n s.protocol fun status bytes state =>
        Q status ⟨{ s.scsi with dataBuffer := bytes ++ s.scsi.dataBuffer.drop n }, state⟩ := by
  refine holds_send ?_ fun _ _ _ => Iff.rfl
  rw [lendData, len, buffer, length_take, min_eq_left hn]

/-- The disk with an answer in its data buffer. -/
def putData (scsi : Scsi) (bytes : List U8) : Scsi := { scsi with dataBuffer := bytes }

@[simp] theorem putData_dataBuffer (scsi : Scsi) (bytes : List U8) :
    (scsi.putData bytes).dataBuffer = bytes := rfl

@[simp] theorem putData_putData (scsi : Scsi) (bytes bytes' : List U8) :
    (scsi.putData bytes).putData bytes' = scsi.putData bytes' := rfl

/-- The data buffer is made as long as the answer. -/
theorem holds_sendResized :
    Holds (fun _ s' => Holds Q (send r.protocol command (lendData n) s'))
        (resizeData n s) ↔
      r.After command n s.protocol fun status bytes state =>
        Q status ⟨s.scsi.putData bytes, state⟩ := by
  rw [resizeData, holds_modify, holds_sendData (length_resize _ _).ge]
  refine after_congr fun status bytes state _ => ?_
  rw [drop_eq_nil_of_le (length_resize _ _).le, append_nil]
  rfl

theorem holds_sendInquiry (hn : n ≤ 259) :
    Holds Q (send r.protocol command (lendInquiry n hn) s) ↔
      r.After command n s.protocol fun status bytes state =>
        Q status ⟨s.scsi.putInquiry bytes, state⟩ := by
  have hlen : (lendInquiry n hn s.scsi).data.len = n := by
    rw [lendInquiry, len, buffer, length_take,
      s.scsi.inquiryBuffer.2, min_eq_left hn]
  refine holds_send hlen fun status bytes state => ?_
  have hback : (lendInquiry n hn s.scsi).back bytes = s.scsi.putInquiry bytes.1 := by
    have hbytes : bytes.1.length = n := bytes.2.trans hlen
    have hwhole : (bytes.1 ++ s.scsi.inquiryBuffer.1.drop n).length = 259 := by
      rw [length_append, length_drop, hbytes, s.scsi.inquiryBuffer.2]
      omega
    simp only [lendInquiry, putInquiry, Buf.putBack, hbytes, resize_of_length hwhole]
  rw [hback]

/-! ### The commands of the initialisation -/

theorem holds_getStandardInquiryData {Q : Unit → Session τ → Prop} {len : U16}
    (hlen : len.toNat ≤ 259) : Holds Q (getStandardInquiryData r.protocol len s) ↔
      r.After (Cmds.Inquiry.new false 0 len 0) len.toNat s.protocol fun _ bytes state =>
        Q () ⟨s.scsi.putInquiry bytes, state⟩ := by
  rw [getStandardInquiryData, dif_pos hlen, holds_bind, holds_sendInquiry]
  rfl

/-- The standard inquiry data is always long enough. -/
theorem resStandardInquiryData_eq (scsi : Scsi) :
    scsi.resStandardInquiryData = .ok (scsi.inquiryBuffer.1.take 96) := by
  have hlen : Cmds.StandardInquiryData.size ≤ scsi.inquiryBuffer.1.length := by
    rw [scsi.inquiryBuffer.2]
    decide
  rw [resStandardInquiryData, view, fromBytes, if_pos hlen]
  rfl

theorem additionalLen_putInquiry {scsi : Scsi} (h : bytes.length = 5) :
    additionalLen ((scsi.putInquiry bytes).inquiryBuffer.1.take 96) =
      u8At bytes 4 := by
  have hwhole : (bytes ++ scsi.inquiryBuffer.1.drop bytes.length).length = 259 := by
    rw [length_append, length_drop, h, scsi.inquiryBuffer.2]
  have hput : (scsi.putInquiry bytes).inquiryBuffer.1 =
      bytes ++ scsi.inquiryBuffer.1.drop bytes.length := resize_of_length hwhole
  rw [additionalLen, u8At_take (by decide), hput, u8At, u8At,
    getD_eq_getElem?_getD, getElem?_append_left (by omega), getD_eq_getElem?_getD]

theorem holds_getInquiryAllocLen {Q : U16 → Session τ → Prop} :
    Holds Q (getInquiryAllocLen p r.protocol s) ↔
      r.After (Cmds.Inquiry.new false 0 5 0) 5 s.protocol fun _ bytes state =>
        Q (4 + (u8At bytes 4).setWidth 16) ⟨s.scsi.putInquiry bytes, state⟩ := by
  have hadd (len : U8) : p.add (4 : U16) (len.setWidth 16) = .ok (4 + len.setWidth 16) := by
    refine Profile.add_eq_ok.mpr ⟨?_, rfl⟩
    rintro ⟨-, hle⟩
    have hfour : (4 : U16).toNat = 4 := rfl
    rw [BitVec.toNat_setWidth, hfour] at hle
    omega
  rw [getInquiryAllocLen, holds_bind, holds_getStandardInquiryData (by decide)]
  refine after_congr fun status bytes state hlen => ?_
  simp only [holds_bind, holds_read, holds_checked, resStandardInquiryData_eq,
    Except.ok.injEq, exists_eq_left', additionalLen_putInquiry hlen, hadd]

/-- The block size in the first block descriptor of the mode data, if there is one. -/
def firstBlockSize (mode : List U8) : Option U32 :=
  if longlba mode then
    if 16 ≤ (blockDescLen mode).toNat then some (toBe (u32At mode 20))
    else none
  else if 8 ≤ (blockDescLen mode).toNat then
    some (u24BeToU32 mode 13)
  else none

theorem resModeParamHeader10_eq_ok {scsi : Scsi} {header : List U8} :
    scsi.resModeParamHeader10 = .ok header ↔
      8 ≤ scsi.dataBuffer.length ∧ scsi.dataBuffer.take 8 = header := by
  rw [resModeParamHeader10, view, unwrap_eq_ok, fromBytes, Cmds.ModeParamHeader10.size]
  split
  · simp [*]
  · simp [*]

theorem slice_eq_ok {out : List U8} {start stop : Nat} : slice bytes start stop = .ok out ↔
      (start ≤ stop ∧ stop ≤ bytes.length) ∧ field bytes start (stop - start) = out := by
  rw [slice]
  split
  · simp [*]
  · simp [*]

section Header

variable {mode : List U8}

theorem blockDescLen_take : blockDescLen (mode.take 8) =
    blockDescLen mode := by
  simp only [blockDescLen, u16At, field_take (show 6 + 2 ≤ 8 by decide)]

theorem longlba_take : longlba (mode.take 8) =
    longlba mode := by
  rw [longlba, u8At_take (by decide), longlba]

theorem u8At_field {j m i : Nat} (h : i < m) : u8At (field mode j m) i = u8At mode (j + i) := by
  rw [field, u8At_take h, u8At, u8At, getD_eq_getElem?_getD, getElem?_drop,
    getD_eq_getElem?_getD]

theorem u24_desc {j m : Nat} (hm : 8 ≤ m) :
    u24BeToU32 (field (field mode j m) 0 8) 5 = u24BeToU32 mode (j + 5) := by
  rw [u24BeToU32, field_field (by omega), add_zero, u8At_field (by decide),
    u8At_field (by decide), u8At_field (by decide), u24BeToU32]

end Header

section Descriptors

variable {scsi : Scsi} {descs : List Cmds.BlkDesc}

theorem le_of_resBlkdescMode10 (h : scsi.resBlkdescMode10 = .ok descs) :
    8 + (blockDescLen scsi.dataBuffer).toNat ≤ scsi.dataBuffer.length := by
  obtain ⟨header, hheader, h⟩ := bind_eq_ok.mp h
  obtain ⟨-, rfl⟩ := resModeParamHeader10_eq_ok.mp hheader
  obtain ⟨bytes, hslice, -⟩ := bind_eq_ok.mp h
  have hlen := (slice_eq_ok.mp hslice).1.2
  rwa [blockDescLen_take] at hlen

/-- The descriptors are read exactly if they are in the buffer. -/
theorem exists_resBlkdescMode10 (scsi : Scsi)
    (hlen : 8 + (blockDescLen scsi.dataBuffer).toNat ≤ scsi.dataBuffer.length) :
    ∃ descs, scsi.resBlkdescMode10 = .ok descs ∧
      descs[0]?.map Cmds.BlkDesc.blockSize = firstBlockSize scsi.dataBuffer := by
  have hfield : (field scsi.dataBuffer 8
      (blockDescLen scsi.dataBuffer).toNat).length =
        (blockDescLen scsi.dataBuffer).toNat := length_field hlen
  rw [resBlkdescMode10, resModeParamHeader10_eq_ok.mpr ⟨by omega, rfl⟩, ok_bind, blockDescLen_take,
    slice_eq_ok.mpr ⟨⟨Nat.le_add_right _ _, hlen⟩, rfl⟩, ok_bind, longlba_take, Nat.add_sub_cancel_left]
  by_cases hlong : longlba scsi.dataBuffer
  · rw [if_pos hlong]
    refine ⟨_, rfl, ?_⟩
    rw [getElem?_map, sliceFromBytes_head (by decide), hfield, firstBlockSize, if_pos hlong]
    split
    · simp only [map_some, Cmds.BlkDesc.blockSize]
      rw [u32At, field_field (by decide), field_field (by omega)]
      rfl
    · rfl
  · have hshort (kind : List U8 → Cmds.BlkDesc)
        (hkind : ∀ desc, (kind desc).blockSize = u24BeToU32 desc 5) :
        (((sliceFromBytes 8 (field scsi.dataBuffer 8
          (blockDescLen scsi.dataBuffer).toNat)).map kind)[0]?).map
            Cmds.BlkDesc.blockSize = firstBlockSize scsi.dataBuffer := by
      rw [getElem?_map, sliceFromBytes_head (by decide), hfield, firstBlockSize, if_neg hlong]
      split
      · rename_i hdesc
        simp only [map_some, hkind, u24_desc hdesc]
      · rfl
    rw [if_neg hlong, resStandardInquiryData_eq, ok_bind]
    split
    · exact ⟨_, rfl, hshort .general fun _ => rfl⟩
    · exact ⟨_, rfl, hshort .short fun _ => rfl⟩

/-- The pages are what is left behind the descriptors. -/
theorem resModePages10_eq_ok {buffer : List U8}
    (hlen : 8 + (blockDescLen scsi.dataBuffer).toNat ≤ scsi.dataBuffer.length) :
    scsi.resModePages10 = .ok buffer ↔
      scsi.dataBuffer.drop (8 + (blockDescLen scsi.dataBuffer).toNat) = buffer := by
  rw [resModePages10, resModeParamHeader10_eq_ok.mpr ⟨by omega, rfl⟩, ok_bind, blockDescLen_take,
    slice_eq_ok, field, take_of_length_le (by rw [length_drop])]
  exact ⟨And.right, fun h => ⟨⟨hlen, le_refl _⟩, h⟩⟩

end Descriptors

/-- The first MODE SENSE is for the header alone, the second for all of the mode data. -/
theorem holds_getModeSense10 {Q : List Cmds.BlkDesc × List U8 → Session τ → Prop} :
    Holds Q (getModeSense10 p r.protocol s) ↔
      r.After (getBlockDesc 8 0) 8 s.protocol fun status header s₁ =>
        if status.kind = .failed then
          r.After (Cmds.RequestSense.new false 252 0) 252 s₁ fun _ _ _ => False
        else ∃ optimal, p.add (modeDataLen header) 2 = .ok optimal ∧
          r.After (getBlockDesc optimal 0) optimal.toNat s₁ fun _ mode s₂ =>
            ∃ descs, (s.scsi.putData mode).resBlkdescMode10 = .ok descs ∧
              Q (descs, mode.drop (8 + (blockDescLen mode).toNat))
                ⟨s.scsi.putData mode, s₂⟩ := by
  rw [getModeSense10, holds_bind]
  simp only [holds_bind]
  rw [holds_sendResized]
  refine after_congr fun status header s₁ hheader => ?_
  split
  · simp only [getFfSense, holds_bind]
    rw [show (252 : U8).toNat = 252 from rfl, holds_sendResized]
    refine after_congr fun _ bytes state _ => ⟨fun h => ?_, False.elim⟩
    rw [holds_pure, holds_read] at h
    obtain ⟨_, -, hpanic⟩ := holds_checked.mp h
    exact not_holds_panic hpanic
  · have htake : header.take 8 = header := take_of_length_le hheader.le
    simp only [holds_bind, holds_read, holds_checked, resModeParamHeader10_eq_ok,
      holds_sendResized, holds_pure, putData_dataBuffer, hheader, le_refl, true_and, htake,
      exists_eq_left', putData_putData]
    refine exists_congr fun optimal => and_congr_right fun _ => after_congr fun _ mode s₂ _ => ?_
    constructor
    · rintro ⟨_, -, descs, hdescs, pages, hpages, hQ⟩
      rw [resModePages10_eq_ok (le_of_resBlkdescMode10 hdescs)] at hpages
      exact ⟨descs, hdescs, hpages ▸ hQ⟩
    · rintro ⟨descs, hdescs, hQ⟩
      have hlen := le_of_resBlkdescMode10 hdescs
      have hpages := (resModePages10_eq_ok hlen).mpr rfl
      rw [putData_dataBuffer] at hlen hpages
      exact ⟨_, ⟨by omega, rfl⟩, descs, hdescs, _, hpages, hQ⟩

theorem resReadCapacity10_putData (scsi : Scsi) {bytes : List U8} (h : bytes.length = 8)
    (tail : List U8) : (scsi.putData (bytes ++ tail)).resReadCapacity10 = .ok bytes := by
  have hlen : 8 ≤ (bytes ++ tail).length := by
    rw [length_append, h]
    exact le_add_right _ _
  rw [resReadCapacity10, view, fromBytes, Cmds.ReadCapacity10ParamData.size,
    putData_dataBuffer, if_pos hlen, take_left' h]
  rfl

/-- The block size comes from the first descriptor or from READ CAPACITY. -/
theorem holds_geometry {descs : List Cmds.BlkDesc} :
    Holds (fun g _ => g.1 ≠ 0) (geometry r.protocol descs s) ↔
      (∀ size, descs[0]?.map Cmds.BlkDesc.blockSize = some size → size ≠ 0) ∧
      (descs[0]?.map Cmds.BlkDesc.blockSize = none →
        r.After (Cmds.ReadCapacity10.new 0) 8 s.protocol fun _ bytes _ =>
          logicalBlockLen bytes ≠ 0) := by
  unfold geometry
  cases descs[0]? with
  | some =>
    simp only [holds_pure, map_some, some_inj, forall_eq', reduceCtorEq,
      false_implies, and_true]
  | none =>
    simp only [readCapacity, resizeData, holds_bind, holds_pure, holds_modify,
      holds_read, map_none, reduceCtorEq, false_implies, implies_true, true_and,
      forall_const]
    rw [holds_sendData (by rw [length_resize]; decide)]
    refine after_congr fun _ bytes state hlen => ?_
    have hview := resReadCapacity10_putData s.scsi hlen ((resize s.scsi.dataBuffer 10).drop 8)
    refine holds_checked.trans ⟨?_, fun h => ⟨bytes, hview, h⟩⟩
    rintro ⟨_, hok, h⟩
    cases hview.symm.trans hok
    exact h

/-- What `Scsi::new` is for: the block size can be divided by. -/
structure Usable (scsi : Scsi) : Prop where
  blockSize_ne : scsi.blockSize ≠ 0
  divides : ∀ offset len, ¬ Panics (ScsiScheme.lbaOf scsi.blockSize offset len)

theorem usable_iff {scsi : Scsi} : scsi.Usable ↔ scsi.blockSize ≠ 0 := by
  refine ⟨Usable.blockSize_ne, fun h => ⟨h, fun offset len => ?_⟩⟩
  rw [ScsiScheme.lbaOf, if_neg h]
  split
  · exact not_panics_errno _
  · exact not_panics_ok _

end Scsi

open Scsi

namespace Responder

variable {τ : Type}

/-- The initialisation returns, in a build with or without overflow checks; if it does not return
an error, then a disk that can be used. -/
def Robust (r : Responder τ) (s : τ) : Prop :=
  ∀ p, Holds (fun _ after => after.scsi.Usable) (new p r.protocol ⟨blank, s⟩)

/-- Mode data with its descriptors and pages whole, and with a block size or none. -/
structure ModeSane (r : Responder τ) (mode : List U8) (s : τ) : Prop where
  descs : 8 + (blockDescLen mode).toNat ≤ mode.length
  pages : ¬ Cmds.EndsInStub (mode.drop (8 + (blockDescLen mode).toNat))
  blockSize : ∀ size, firstBlockSize mode = some size → size ≠ 0
  capacity : firstBlockSize mode = none →
    r.After (Cmds.ReadCapacity10.new 0) 8 s fun _ bytes _ =>
      logicalBlockLen bytes ≠ 0

/-- The answers that the initialisation survives. -/
def Sane (r : Responder τ) (s : τ) : Prop :=
  r.After (new false 0 5 0) 5 s fun _ first s₁ =>
  r.After (new false 0 (4 + (u8At first 4).setWidth 16) 0)
    (4 + (u8At first 4).toNat) s₁ fun _ _ s₂ =>
  r.After (getBlockDesc 8 0) 8 s₂ fun status header s₃ =>
    if status.kind = .failed then
      r.After (Cmds.RequestSense.new false 252 0) 252 s₃ fun _ _ _ => False
    else (modeDataLen header).toNat + 2 < 2 ^ 16 ∧
      r.After (getBlockDesc (modeDataLen header + 2) 0)
        ((modeDataLen header).toNat + 2) s₃ fun _ mode s₄ => r.ModeSane mode s₄

section

variable {r : Responder τ} {s : τ} {p : Profile}

/-- The same for one build, in which the length of the mode data may wrap around. -/
theorem holds_new : Holds (fun _ after => after.scsi.Usable)
      (Scsi.new p r.protocol ⟨Scsi.blank, s⟩) ↔
    r.After (new false 0 5 0) 5 s fun _ first s₁ =>
    r.After (new false 0 (4 + (u8At first 4).setWidth 16) 0)
      (4 + (u8At first 4).toNat) s₁ fun _ _ s₂ =>
    r.After (getBlockDesc 8 0) 8 s₂ fun status header s₃ =>
      if status.kind = .failed then
        r.After (Cmds.RequestSense.new false 252 0) 252 s₃ fun _ _ _ => False
      else ∃ optimal, p.add (modeDataLen header) 2 = .ok optimal ∧
        r.After (getBlockDesc optimal 0) optimal.toNat s₃ fun _ mode s₄ =>
          r.ModeSane mode s₄ := by
  rw [Scsi.new, holds_bind, Scsi.holds_getInquiryAllocLen]
  refine after_congr fun _ first s₁ _ => ?_
  have hlen : (4 + (u8At first 4).setWidth 16 : U16).toNat = 4 + (u8At first 4).toNat := by
    bv_omega
  rw [holds_bind, Scsi.holds_getStandardInquiryData (by omega), hlen]
  refine after_congr fun _ inquiry s₂ _ => ?_
  simp only [holds_bind, holds_read, holds_checked, Scsi.resStandardInquiryData_eq,
    Except.ok.injEq, exists_eq_left', Scsi.holds_getModeSense10, holds_modify, Scsi.usable_iff,
    Scsi.holds_geometry]
  refine after_congr fun status header s₃ _ => ?_
  split
  · rfl
  · refine exists_congr fun optimal => and_congr_right fun _ => after_congr fun _ mode s₄ _ => ?_
    constructor
    · rintro ⟨descs, hdescs, pages, hpages, hsize, hcapacity⟩
      have hlen := Scsi.le_of_resBlkdescMode10 hdescs
      obtain ⟨_, hdescs', hfirst⟩ := Scsi.exists_resBlkdescMode10 _ hlen
      cases hdescs.symm.trans hdescs'
      rw [hfirst] at hsize hcapacity
      exact ⟨hlen, pages_ok_iff.mp ⟨pages, hpages⟩, hsize, hcapacity⟩
    · rintro ⟨hlen, hpages, hsize, hcapacity⟩
      obtain ⟨descs, hdescs, hfirst⟩ := Scsi.exists_resBlkdescMode10
        (((Scsi.blank.putInquiry first).putInquiry inquiry).putData mode) hlen
      obtain ⟨pages, hpages⟩ := pages_ok_iff.mpr hpages
      refine ⟨descs, hdescs, pages, hpages, ?_⟩
      rw [hfirst]
      exact ⟨hsize, hcapacity⟩

end

theorem not_robust_of_panics {r : Responder τ} {s : τ} (p : Profile)
    (h : Panics (new p r.protocol ⟨blank, s⟩).1) : ¬ r.Robust s :=
  fun hrobust => (hrobust p).not_panics h

/-- `Scsi::new` neither panics nor overflows, and leaves a block size that is not zero, exactly for
the devices with sane answers. -/
theorem init_robust (r : Responder τ) (s : τ) : r.Robust s ↔ r.Sane s := by
  constructor
  · intro h
    refine (holds_new.mp (h .debug)).imp fun _ first s₁ => After.imp fun _ inquiry s₂ =>
      After.imp fun status header s₃ hmode => ?_
    split
    · rwa [if_pos ‹_›] at hmode
    · rw [if_neg ‹_›] at hmode
      obtain ⟨optimal, hadd, hafter⟩ := hmode
      obtain ⟨hfits, rfl⟩ := Profile.add_eq_ok.mp hadd
      have hlt : (modeDataLen header).toNat + 2 < 2 ^ 16 :=
        Nat.lt_of_not_le fun hle => hfits ⟨rfl, hle⟩
      rw [toNat_of_add_eq_ok hadd hlt] at hafter
      exact ⟨hlt, hafter⟩
  · intro h p
    refine holds_new.mpr (h.imp fun _ first s₁ => After.imp fun _ inquiry s₂ =>
      After.imp fun status header s₃ hmode => ?_)
    split
    · rwa [if_pos ‹_›] at hmode
    · rw [if_neg ‹_›] at hmode
      obtain ⟨hlt, hafter⟩ := hmode
      have hadd : p.add (modeDataLen header) 2 =
          .ok (modeDataLen header + 2) :=
        Profile.add_eq_ok.mpr ⟨fun hover => absurd hover.2 (not_le.mpr hlt), rfl⟩
      rw [← toNat_of_add_eq_ok hadd hlt] at hafter
      exact ⟨_, hadd, hafter⟩

/-- A device whose mode data is a header and the two first bytes of a sub-page. -/
def stubDevice : Responder Unit where
  answer _ n _ := (.ok ⟨none, .success⟩,
    ⟨resize [0, 8, 0, 0, 0, 0, 0, 0, 0x40, 0] n, length_resize _ _⟩, ())

/-- The loop over its pages panics. -/
theorem stub_page_panics : ¬ stubDevice.Robust () := by
  refine not_robust_of_panics .release ?_
  decide +kernel

end Responder

end RedoxDrivers.Usbscsi
