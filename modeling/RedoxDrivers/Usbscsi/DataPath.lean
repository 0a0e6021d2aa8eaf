import RedoxDrivers.Usbscsi.Exchange
import RedoxDrivers.Usbscsi.Scsi

/-!
What `Scsi::read` and `Scsi::write` report.

A device may do as it likes on the bulk endpoints. The bytes that count are those that crossed the
bus, less those that the CSW says were not processed (`Dealing.moved`). `Scsi::read` and
`Scsi::write` return another number if the data ended with a short packet, since the number of
bytes in it is taken for the number of those that are missing. They return a number although the
CSW said that the command failed or came without all its bytes, and the subtraction underflows if
the device leaves more bytes than there were. `reports_truthfully` says for which devices none
of this happens.
-/

namespace RedoxDrivers.Usbscsi

open Lib Lib.Endian BulkOnlyTransport List Nat BitVec

namespace Dealing

variable {n : Nat}

/-- The number of bytes that the device moved. -/
def moved (d : Dealing n) : Nat := min d.data.count (n - d.wrapper.dataResidue.toNat)

/-- A return value that the device's answers bear out. -/
structure Supports (d : Dealing n) (tag : U32) (count : Nat) : Prop where
  whole : d.csw.count = 13
  valid : d.wrapper.isValid
  tag_eq : d.wrapper.tag = tag
  passed : d.wrapper.status = CswStatus.passed
  moved_eq : count = d.moved

/-- What the device says of the data agrees with what the driver makes of it: a short packet has
half of the bytes, or as many as the device says are missing. -/
def Consistent (d : Dealing n) : Prop :=
  let residue := d.wrapper.dataResidue.toNat
  if d.data.kind = .success then residue ≤ n
  else if d.data.count = 0 then residue = n
  else (n = 2 * d.data.count ∧ residue ≤ d.data.count) ∨
    (residue = d.data.count ∧ n ≤ 2 * d.data.count) ∨ (d.data.count = n ∧ n ≤ residue)

/-- The CSW comes whole, the command has passed, and the device is consistent. -/
structure Honest (d : Dealing n) : Prop where
  whole : d.csw.count = 13
  passed : d.wrapper.status = CswStatus.passed
  consistent : d.Consistent

theorem missing_or (early : Option NonZeroU32) (r : U32) (kind : SendCommandStatusKind) :
    (SendCommandStatus.mk (early.or (NonZeroU32.new r)) kind).missing =
      (early.map (·.1)).getD r := by
  cases early with
  | some => rfl
  | none =>
    by_cases h : r = 0
    · subst h
      rfl
    · rw [NonZeroU32.new_of_ne h]
      rfl

/-- The number that the driver takes for the bytes that are missing. -/
theorem missing_status (d : Dealing n) (hn : n < 2 ^ 32) : d.status.missing.toNat =
      if d.data.kind = .shortPacket ∧ d.data.count ≠ 0 then d.data.count
      else d.wrapper.dataResidue.toNat := by
  have hcount : (BitVec.ofNat 32 d.data.count).toNat = d.data.count := by
    exact mod_eq_of_lt (d.data.count_le.trans_lt hn)
  rw [status, missing_or, early]
  by_cases hkind : d.data.kind = .shortPacket
  · by_cases hzero : d.data.count = 0
    · simp [hkind, hzero, NonZeroU32.new]
    · have hne : (BitVec.ofNat 32 d.data.count : U32) ≠ 0 := by
        intro h
        rw [h] at hcount
        exact hzero hcount.symm
      rw [if_pos hkind, NonZeroU32.new_of_ne hne, if_pos ⟨hkind, hzero⟩]
      exact hcount
  · simp [hkind]

/-- The driver reports what was moved exactly for a consistent device. -/
theorem consistent_iff {d : Dealing n} {tag : U32} (h : d.Accepted tag) (hn : n < 2 ^ 32) :
    d.Consistent ↔ d.status.missing.toNat ≤ n ∧ n - d.status.missing.toNat = d.moved := by
  have hle := d.data.count_le
  rw [missing_status d hn, Consistent, moved]
  rcases h.kind with ⟨hkind, hfull⟩ | hkind
  · simp only [hkind, if_true]
    rw [if_neg (by rintro ⟨h, -⟩; cases h)]
    omega
  · simp only [hkind, true_and]
    by_cases hzero : d.data.count = 0
    all_goals
      simp [hzero]
      omega

end Dealing

namespace Scsi

variable {σ : Type} {p : Profile} {bus : Bus σ} {transport : BulkOnlyTransport σ}

namespace Request

/-- However the device deals with the command, it is honest if that is accepted. -/
def Honest (p : Profile) (bus : Bus σ) (transport : BulkOnlyTransport σ) (r : Request) : Prop :=
  0 < r.data.len → r.data.len < 2 ^ 32 → ∀ tag d s', p.add transport.currentTag 1 = .ok tag →
    Deals bus tag r.command r.data transport d s' → d.Accepted tag → d.Honest

/-- No more bytes are taken for missing than there were. -/
def NoUnderflow (p : Profile) (bus : Bus σ) (transport : BulkOnlyTransport σ) (r : Request) : Prop :=
  ∀ depth status s', exchange bus p depth r.command r.data ⟨transport, r.data.buffer, rfl⟩ =
    (.ok (.ok status), s') → status.missing.toNat ≤ r.data.len

/-- A command of a block call. -/
structure IsBlock (r : Request) : Prop where
  command : r.command.length ≤ 16
  data : r.data ≠ .noData

end Request

theorem readRequest_isBlock (scsi : Scsi) (lba : U64) (len : Nat) :
    (scsi.readRequest lba len).IsBlock :=
  ⟨(Cmds.length_blockCommand _ _ _ _).le, by rintro h; cases h⟩

theorem writeRequest_isBlock (scsi : Scsi) (lba : U64) (buffer : List U8) :
    (scsi.writeRequest lba buffer).IsBlock :=
  ⟨(Cmds.length_blockCommand _ _ _ _).le, by rintro h; cases h⟩

section

variable (p bus) (s : Session (BulkOnlyTransport σ)) (lba : U64) (buffer : List U8)

/-- `Scsi::read` returns a number only if the device's answers bear it out, and that many bytes of
the caller's buffer are those that the device sent. -/
structure ReadTruthful : Prop where
  supported : ∀ depth n buffer' s', read p (protocol bus p depth) lba buffer s =
      (.ok (.ok (n, buffer')), s') →
    ∃ tag d e, p.add s.protocol.currentTag 1 = .ok tag ∧
      Deals bus tag (s.scsi.readRequest lba buffer.length).command
        (s.scsi.readRequest lba buffer.length).data s.protocol d e ∧
      d.Supports tag n.toNat ∧ n.toNat ≤ buffer.length ∧
      buffer'.take n.toNat = d.buffer.1.take n.toNat
  noUnderflow : (s.scsi.readRequest lba buffer.length).NoUnderflow p bus s.protocol

/-- The same for `Scsi::write`. -/
structure WriteTruthful : Prop where
  supported : ∀ depth n s', write p (protocol bus p depth) lba buffer s = (.ok (.ok n), s') →
    ∃ tag d e, p.add s.protocol.currentTag 1 = .ok tag ∧
      Deals bus tag (s.scsi.writeRequest lba buffer).command
        (s.scsi.writeRequest lba buffer).data s.protocol d e ∧
      d.Supports tag n.toNat ∧ n.toNat ≤ buffer.length
  noUnderflow : (s.scsi.writeRequest lba buffer).NoUnderflow p bus s.protocol

end

/-- The subtraction of `bytes_transferred` if it does not underflow. -/
theorem bytesTransferred_of_le {len : Nat} (hlen : len < 2 ^ 32) {status : SendCommandStatus}
    (hle : status.missing.toNat ≤ len) :
    status.bytesTransferred p (.ofNat 32 len) = .ok (.ofNat 32 (len - status.missing.toNat)) := by
  have h := Profile.sub_ofNat (p := p) hlen hle
  rwa [ofNat_toNat, setWidth_eq] at h

/-- What is returned then. -/
theorem toNat_of_bytesTransferred {len : Nat} (hlen : len < 2 ^ 32) {status : SendCommandStatus} {n : U32}
    (hle : status.missing.toNat ≤ len) (hn : status.bytesTransferred p (.ofNat 32 len) = .ok n) :
    n.toNat = len - status.missing.toNat := by
  rw [bytesTransferred_of_le hlen hle] at hn
  cases hn
  exact mod_eq_of_lt (by omega)

namespace Request

variable {r : Request}

/-- A status comes from a dealing that was accepted. -/
theorem Honest.supports (hr : r.IsBlock) (h : r.Honest p bus transport) {depth : Nat}
    {status : SendCommandStatus} {s' : Exchange σ r.data.len}
    (hex : exchange bus p depth r.command r.data ⟨transport, r.data.buffer, rfl⟩ =
      (.ok (.ok status), s')) : ∃ tag d, p.add transport.currentTag 1 = .ok tag ∧
      Deals bus tag r.command r.data transport d s' ∧
      d.Supports tag (r.data.len - status.missing.toNat) ∧ status.missing.toNat ≤ r.data.len := by
  obtain ⟨hlen, tag, d, htag, hdeals, haccepted, rfl⟩ := exchange_sound hr.command hr.data hex
  have hhonest := h hlen.1 hlen.2 tag d s' htag hdeals haccepted
  obtain ⟨hle, hmoved⟩ := (Dealing.consistent_iff haccepted hlen.2).mp hhonest.consistent
  exact ⟨tag, d, htag, hdeals,
    ⟨hhonest.whole, haccepted.valid, haccepted.tag_eq, hhonest.passed, hmoved⟩, hle⟩

/-- The number of bytes of a status is borne out. -/
theorem Honest.counted (hr : r.IsBlock) (h : r.Honest p bus transport) {depth : Nat}
    {status : SendCommandStatus} {s' : Exchange σ r.data.len} {n : U32}
    (hex : exchange bus p depth r.command r.data ⟨transport, r.data.buffer, rfl⟩ =
      (.ok (.ok status), s')) (hn : status.bytesTransferred p (.ofNat 32 r.data.len) = .ok n) :
    ∃ tag d, p.add transport.currentTag 1 = .ok tag ∧
      Deals bus tag r.command r.data transport d s' ∧
      d.Supports tag n.toNat ∧ n.toNat ≤ r.data.len := by
  obtain ⟨-, hlt⟩ := (exchange_sound hr.command hr.data hex).1
  obtain ⟨tag, d, htag, hdeals, hsupports, hle⟩ := h.supports hr hex
  rw [toNat_of_bytesTransferred hlt hle hn]
  exact ⟨tag, d, htag, hdeals, hsupports, sub_le _ _⟩

/-- If every number of bytes that is returned is borne out, the device is honest. -/
theorem honest_of_counted (hr : r.IsBlock) (hnone : r.NoUnderflow p bus transport)
    (h : ∀ depth status s' n, exchange bus p depth r.command r.data ⟨transport, r.data.buffer, rfl⟩ =
        (.ok (.ok status), s') →
      0 < r.data.len → r.data.len < 2 ^ 32 →
      status.bytesTransferred p (.ofNat 32 r.data.len) = .ok n →
      ∃ tag d e, p.add transport.currentTag 1 = .ok tag ∧
        Deals bus tag r.command r.data transport d e ∧ d.Supports tag n.toNat) :
    r.Honest p bus transport := by
  intro hpos hlt tag d s' htag hdeals haccepted
  obtain ⟨taken, b, b', hwrite, hkind, hcount, hphase, hcsw⟩ := id hdeals
  obtain ⟨depth, hcsw⟩ := readCswRaw_complete hcsw
  have hex := exchange_of_csw hr.command hr.data ⟨hpos, hlt⟩ htag hwrite hkind hcount hphase hcsw
    haccepted
  have hle := hnone depth _ _ hex
  have hn := bytesTransferred_of_le (p := p) hlt hle
  obtain ⟨tag', d', e, htag', hdeals', hsupports⟩ := h depth _ _ _ hex hpos hlt hn
  rw [toNat_of_bytesTransferred hlt hle hn] at hsupports
  rw [htag] at htag'
  cases htag'
  cases hdeals.unique hdeals'
  exact ⟨hsupports.whole, hsupports.passed,
    (Dealing.consistent_iff haccepted hlt).mpr ⟨hle, hsupports.moved_eq⟩⟩

end Request

/-- A buffer whose blocks are bytes that can be transferred. -/
theorem blocks_of_bytesIn {scsi : Scsi} {len : Nat} (hpos : 0 < scsi.bytesIn len)
    (hlt : scsi.bytesIn len < 2 ^ 32) :
    scsi.blockSize ≠ 0 ∧ len / scsi.blockSize.toNat < 2 ^ 32 := by
  have hsize : 0 < scsi.blockSize.toNat := Nat.pos_of_mul_pos_left hpos
  refine ⟨?_, lt_of_le_of_lt (Nat.le_mul_of_pos_right _ hsize) hlt⟩
  intro h
  rw [h] at hsize
  exact absurd hsize (by decide)

section Calls

variable {s : Session (BulkOnlyTransport σ)} {lba : U64} {buffer : List U8}

theorem readTruthful_iff : ReadTruthful p bus s lba buffer ↔
    (s.scsi.readRequest lba buffer.length).Honest p bus s.protocol := by
  have hblock := s.scsi.readRequest_isBlock lba buffer.length
  have hbytes := s.scsi.readRequest_len lba buffer.length
  constructor
  · intro h
    refine Request.honest_of_counted hblock h.noUnderflow fun depth status s' n hex hpos hlt hn => ?_
    have hread := read_eq_ok.mpr ⟨blocks_of_bytesIn (hbytes ▸ hpos) (hbytes ▸ hlt), status, s'.buffer,
      s'.transport, sendCommand_eq_ok.mpr ⟨s', hex, rfl, rfl⟩, hbytes ▸ hn, rfl, rfl⟩
    obtain ⟨tag, d, e, htag, hdeals, hsupports, -⟩ := h.supported _ _ _ _ hread
    exact ⟨tag, d, e, htag, hdeals, hsupports⟩
  · intro h
    refine ⟨fun depth n buffer' s' hread => ?_, fun depth status s' hex => ?_⟩
    · obtain ⟨-, status, back, state, hsend, hn, rfl, -⟩ := read_eq_ok.mp hread
      obtain ⟨e, hex, rfl, rfl⟩ := sendCommand_eq_ok.mp hsend
      rw [← hbytes] at hn
      obtain ⟨tag, d, htag, hdeals, hsupports, hle⟩ := h.counted hblock hex hn
      have hwhole := s.scsi.bytesIn_le buffer.length
      refine ⟨tag, d, e, htag, hdeals, hsupports, by omega, ?_⟩
      rw [hdeals.outOfReach.1, take_append_of_le_length (by rw [d.buffer.2]; omega)]
    · obtain ⟨_, _, _, _, _, hle⟩ := h.supports hblock hex
      exact hle

theorem writeTruthful_iff : WriteTruthful p bus s lba buffer ↔
    (s.scsi.writeRequest lba buffer).Honest p bus s.protocol := by
  have hblock := s.scsi.writeRequest_isBlock lba buffer
  have hbytes := s.scsi.writeRequest_len lba buffer
  constructor
  · intro h
    refine Request.honest_of_counted hblock h.noUnderflow fun depth status s' n hex hpos hlt hn => ?_
    have hwrite := write_eq_ok.mpr ⟨blocks_of_bytesIn (hbytes ▸ hpos) (hbytes ▸ hlt), status, s'.buffer,
      s'.transport, sendCommand_eq_ok.mpr ⟨s', hex, rfl, rfl⟩, hbytes ▸ hn, rfl⟩
    obtain ⟨tag, d, e, htag, hdeals, hsupports, -⟩ := h.supported _ _ _ hwrite
    exact ⟨tag, d, e, htag, hdeals, hsupports⟩
  · intro h
    refine ⟨fun depth n s' hwrite => ?_, fun depth status s' hex => ?_⟩
    · obtain ⟨-, status, back, state, hsend, hn, -⟩ := write_eq_ok.mp hwrite
      obtain ⟨e, hex, rfl, rfl⟩ := sendCommand_eq_ok.mp hsend
      rw [← hbytes] at hn
      obtain ⟨tag, d, htag, hdeals, hsupports, hle⟩ := h.counted hblock hex hn
      have hwhole := s.scsi.bytesIn_le buffer.length
      exact ⟨tag, d, e, htag, hdeals, hsupports, by omega⟩
    · obtain ⟨_, _, _, _, _, hle⟩ := h.supports hblock hex
      exact hle

end Calls

end Scsi

/-- Whatever a device does, the two calls report truthfully exactly if it is honest whenever the
driver accepts what it did. -/
theorem reports_truthfully {σ : Type} (p : Profile) (bus : Bus σ) (s : Session (BulkOnlyTransport σ))
    (lba : U64) (buffer : List U8) : (Scsi.ReadTruthful p bus s lba buffer ↔
      (s.scsi.readRequest lba buffer.length).Honest p bus s.protocol) ∧
    (Scsi.WriteTruthful p bus s lba buffer ↔
      (s.scsi.writeRequest lba buffer).Honest p bus s.protocol) :=
  ⟨Scsi.readTruthful_iff, Scsi.writeTruthful_iff⟩

/-- A device that sends one byte, and says in its CSW for the first command that 511 are missing. -/
def shortDevice : Bus Unit where
  write buf _ := (.ok ⟨.success, buf.length, le_refl _⟩, ())
  read n _ := (.ok
    (if h : n = 13 then
      ⟨⟨.success, n, le_refl _⟩,
        leBytes 4 CSW_SIGNATURE.toNat ++ leBytes 4 1 ++ leBytes 4 511 ++ [0], by rw [h]; rfl⟩
    else ⟨⟨.shortPacket, min 1 n, min_le_right _ _⟩, List.replicate n 7, length_replicate⟩), ())
  status _ _ := (.ok .enabled, ())
  reset _ _ _ := (.ok (), ())
  deviceRequest _ _ _ _ _ _ := (.ok (), ())

theorem shortDevice_count {scsi : Scsi} {lba : U64} {len : Nat} {tag : U32}
    {transport : BulkOnlyTransport Unit} {d : Dealing (scsi.readRequest lba len).data.len}
    {e : Exchange Unit (scsi.readRequest lba len).data.len} (hlen : scsi.bytesIn len ≠ 13)
    (h : Deals shortDevice tag (scsi.readRequest lba len).command (scsi.readRequest lba len).data transport
      d e) : d.data.count ≤ 1 := by
  obtain ⟨_, b, b', _, _, _, ⟨t, hread, hmoved, _⟩, _⟩ := h
  rw [← scsi.readRequest_len lba len] at hlen
  rw [← hmoved]
  cases hread
  split
  · exact absurd ‹_› hlen
  · exact min_le_left _ _

/-- A disk with blocks of 512 bytes that has not been used. -/
def freshDisk : Session (BulkOnlyTransport Unit) :=
  ⟨{ Scsi.blank with blockSize := 512 }, ⟨(), 1, 2, 0, 0⟩⟩

/-- Of one byte that was read, 511 are reported. -/
theorem short_read_misreported :
    ¬ Scsi.ReadTruthful .release shortDevice freshDisk 0 (List.replicate 512 0) := by
  intro h
  have hvalue : (Try.value (Scsi.read .release (BulkOnlyTransport.protocol shortDevice .release 1) 0
      (List.replicate 512 0) freshDisk)).map Prod.fst = some 511 := by
    decide +kernel
  obtain ⟨⟨n, buffer'⟩, hread, hn⟩ := Option.map_eq_some_iff.mp hvalue
  obtain ⟨tag, d, e, -, hdeals, hsupports, -⟩ := h.supported 1 n buffer' _ (Try.value_eq_some.mp hread)
  have hcount := shortDevice_count (by decide +kernel) hdeals
  have hle : n.toNat ≤ d.data.count := hsupports.moved_eq.le.trans (min_le_left _ _)
  have h511 : n.toNat = 511 := by
    rw [show n = 511 from hn]
    rfl
  omega

end RedoxDrivers.Usbscsi
