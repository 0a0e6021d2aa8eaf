import RedoxDrivers.Lib.Image
import RedoxDrivers.Usbscsi.DataPath

/-!
Reading back what was written to a USB disk.

`Implements` says what a block device does with the commands READ(16) and WRITE(16): it takes the
address and the number of blocks from the command block, where they are big-endian. Nothing is said
of what it does with other commands, or if the CBW does not agree with the command block.

`Read16::new` puts the numbers in that order and `Write16::new` does not, so that a write goes to
`swap` of its address, and is of `swap` of its number of blocks. `read_after_write` says for which
addresses and numbers a write is read back all the same: those that are the same in either order.
-/

namespace RedoxDrivers.Usbscsi

open Lib Lib.Endian Lib.Image BulkOnlyTransport Cmds Scsi BitVec List Nat

/-! ### Block devices -/

/-- The transfer was a success, and all of it. -/
def Transfer.Complete {n : Nat} (t : Transfer n) : Prop := t.kind = .success ∧ t.count = n

def Transfer.whole (n : Nat) : Transfer n := ⟨.success, n, le_refl n⟩

namespace Target

/-- The length in the CBW. -/
def dataTransferLength (wire : List U8) : Nat := ofLe (field wire 8 4)

/-- The command block in the CBW. -/
def cdb (wire : List U8) : List U8 := field wire 15 16

/-- The address in bytes 2 to 9 of the command block. -/
def lba (cdb : List U8) : Nat := ofBe (field cdb 2 8)

/-- The number of blocks in bytes 10 to 13 of the command block. -/
def transferLength (cdb : List U8) : Nat := ofBe (field cdb 10 4)

/-- A READ(16) or WRITE(16). -/
structure Command where
  write : Bool
  lba : Nat
  len : Nat
  tag : Nat
deriving DecidableEq, Repr

/-- A command for blocks that the device has, in a CBW that agrees with it. -/
def decode (b capacity : Nat) (wire : List U8) : Option Command :=
  if wire.length = 31 ∧ ofLe (field wire 0 4) = 0x43425355 ∧
      transferLength (cdb wire) * b = dataTransferLength wire ∧
      lba (cdb wire) + transferLength (cdb wire) ≤ capacity then
    if field wire 15 1 = [0x88] ∧ field wire 12 1 = [0x80] then
      some ⟨false, lba (cdb wire), transferLength (cdb wire), ofLe (field wire 4 4)⟩
    else if field wire 15 1 = [0x8A] ∧ field wire 12 1 = [0x00] then
      some ⟨true, lba (cdb wire), transferLength (cdb wire), ofLe (field wire 4 4)⟩
    else none
  else none

/-- The CSW of a command that has passed with nothing missing. -/
def passed (tag : Nat) : List U8 := leBytes 4 0x53425355 ++ leBytes 4 tag ++ leBytes 4 0 ++ [0]

end Target

open Target

/-- A device with `capacity` blocks of `b` bytes. It answers a command from any `Ready` state. -/
structure Implements {σ : Type} (bus : Bus σ) (b capacity : Nat) (image : σ → Nat → U8)
    (Ready : σ → Prop) : Prop where
  read : ∀ s wire c n, Ready s → decode b capacity wire = some c → c.write = false →
    n = c.len * b →
    ∃ s₁ s₂ s₃ taken t csw,
      (bus.write wire s = (.ok taken, s₁) ∧ taken.Complete) ∧
      (bus.read n s₁ = (.ok t, s₂) ∧ t.Complete ∧ t.bytes.1 = bytes (image s) (c.lba * b) n) ∧
      (bus.read 13 s₂ = (.ok csw, s₃) ∧ csw.Complete ∧ csw.bytes.1 = passed c.tag) ∧
      image s₃ = image s ∧ Ready s₃
  write : ∀ s wire c data, Ready s → decode b capacity wire = some c → c.write = true →
    data.length = c.len * b →
    ∃ s₁ s₂ s₃ taken t csw,
      (bus.write wire s = (.ok taken, s₁) ∧ taken.Complete) ∧
      (bus.write data s₁ = (.ok t, s₂) ∧ t.Complete) ∧
      (bus.read 13 s₂ = (.ok csw, s₃) ∧ csw.Complete ∧ csw.bytes.1 = passed c.tag) ∧
      image s₃ = store (image s) (c.lba * b) data ∧ Ready s₃

/-! ### What the device reads in a command -/

section Wire

variable {tag : U32} {data : DeviceReqData} {b capacity : Nat}

theorem lba_blockCommand (opcode : U8) (lba : U64) (k : U32) :
    Target.lba (blockCommand opcode lba k 0) = swap 8 lba.toNat := rfl

theorem transferLength_blockCommand (opcode : U8) (lba : U64) (k : U32) :
    transferLength (blockCommand opcode lba k 0) = swap 4 k.toNat := rfl

theorem cdb_cbwFor {cb : List U8} (h : cb.length = 16) :
    cdb (cbwFor tag cb data).bytes = cb := by
  show (cb ++ List.replicate (16 - cb.length) 0).take 16 = cb
  rw [← h, take_left]

theorem dataTransferLength_cbwFor (tag : U32) (cb : List U8) (data : DeviceReqData) :
    dataTransferLength (cbwFor tag cb data).bytes = data.len % 2 ^ 32 := by
  show ofLe (leBytes 4 (BitVec.ofNat 32 data.len).toNat) = _
  rw [ofLe_leBytes, toNat_ofNat]
  exact mod_mod _ _

theorem decode_cbwFor (tag : U32) (opcode : U8) (lba : U64) (k : U32) (data : DeviceReqData)
    (hlen : swap 4 k.toNat * b = data.len) (hfit : data.len < 2 ^ 32)
    (hcap : swap 8 lba.toNat + swap 4 k.toNat ≤ capacity) :
    decode b capacity (cbwFor tag (blockCommand opcode lba k 0) data).bytes =
      if opcode = 0x88 ∧ (cbwFor tag (blockCommand opcode lba k 0) data).flags = 0x80 then
        some ⟨false, swap 8 lba.toNat, swap 4 k.toNat, tag.toNat⟩
      else if opcode = 0x8A ∧ (cbwFor tag (blockCommand opcode lba k 0) data).flags = 0 then
        some ⟨true, swap 8 lba.toNat, swap 4 k.toNat, tag.toNat⟩
      else none := by
  have hcb := length_blockCommand opcode lba k 0
  have hsize : (cbwFor tag (blockCommand opcode lba k 0) data).bytes.length = 31 :=
    CommandBlockWrapper.length_bytes hcb.le
  have hsignature : ofLe (field (cbwFor tag (blockCommand opcode lba k 0) data).bytes 0 4) =
      0x43425355 := by
    show ofLe (leBytes 4 CBW_SIGNATURE.toNat) = _
    decide
  have htag : ofLe (field (cbwFor tag (blockCommand opcode lba k 0) data).bytes 4 4) =
      tag.toNat := by
    show ofLe (leBytes 4 tag.toNat) = _
    rw [ofLe_leBytes]
    exact mod_eq_of_lt tag.isLt
  have hopcode : field (cbwFor tag (blockCommand opcode lba k 0) data).bytes 15 1 = [opcode] := rfl
  have hflags : field (cbwFor tag (blockCommand opcode lba k 0) data).bytes 12 1 =
      [(cbwFor tag (blockCommand opcode lba k 0) data).flags] := rfl
  rw [decode, cdb_cbwFor hcb, lba_blockCommand, transferLength_blockCommand,
    dataTransferLength_cbwFor, mod_eq_of_lt hfit, if_pos ⟨hsize, hsignature, hlen, hcap⟩, htag,
    hopcode, hflags]
  simp only [List.cons.injEq, and_true]

/-- The device finds the blocks of a read. -/
theorem decode_read (tag : U32) (lba : U64) (k : U32) {buffer : List U8}
    (hlen : k.toNat * b = buffer.length)
    (hfit : buffer.length < 2 ^ 32) (hcap : lba.toNat + k.toNat ≤ capacity) :
    decode b capacity (cbwFor tag (Cmds.Read16.new lba k 0) (.in_ buffer)).bytes =
      some ⟨false, lba.toNat, k.toNat, tag.toNat⟩ := by
  have hlba : swap 8 (toBe lba).toNat = lba.toNat := ofBe_toBe (n := 8) rfl lba
  have hk : swap 4 (toBe k).toNat = k.toNat := ofBe_toBe (n := 4) rfl k
  rw [← hlba, ← hk] at hcap
  rw [← hk] at hlen
  have h := decode_cbwFor tag Cmds.Opcode.read16 (toBe lba) (toBe k) (.in_ buffer) hlen hfit hcap
  rw [hlba, hk] at h
  exact h.trans (if_pos ⟨rfl, rfl⟩)

end Wire

/-! ### Commands that the device answers -/

section Answers

variable {σ : Type} {bus : Bus σ} {p : Profile} {transport : BulkOnlyTransport σ} {tag : U32}

theorem ofBytes_passed (tag : U32) :
    CommandStatusWrapper.ofBytes (passed tag.toNat) = ⟨CSW_SIGNATURE, tag, 0, 0⟩ := by
  have htag : BitVec.ofNat 32 (ofLe (leBytes 4 tag.toNat)) = tag := by
    rw [ofLe_leBytes, mod_eq_of_lt (show tag.toNat < 256 ^ 4 from tag.isLt), ofNat_toNat,
      setWidth_eq]
  have hsignature : BitVec.ofNat 32 (ofLe (leBytes 4 0x53425355)) = CSW_SIGNATURE := by decide
  show CommandStatusWrapper.mk (BitVec.ofNat 32 (ofLe (leBytes 4 0x53425355)))
    (BitVec.ofNat 32 (ofLe (leBytes 4 tag.toNat))) _ _ = _
  rw [htag, hsignature]
  rfl

/-- A command that the device completes at once. -/
theorem sendCommand_of_answers (depth : Nat) (cb : List U8) (data : DeviceReqData) {b b₁ b₂ : σ}
    {taken : Transfer (cbwFor tag cb data).bytes.length}
    {moved : Transfer data.len} {after : Buf data.len} {csw : Received 13} (hcb : cb.length ≤ 16)
    (hdata : data ≠ .noData) (hlen : 0 < data.len ∧ data.len < 2 ^ 32)
    (htag : p.add transport.currentTag 1 = .ok tag)
    (hwrite : bus.write (cbwFor tag cb data).bytes transport.bus = (.ok taken, b))
    (htaken : taken.Complete) (hphase : DataPhase bus data b moved after b₁) (hmoved : moved.Complete)
    (hread : bus.read 13 b₁ = (.ok csw, b₂)) (hcsw : csw.Complete)
    (hpassed : csw.bytes.1 = passed tag.toNat) :
    (protocol bus p (depth + 1)).sendCommand cb data transport =
      (.ok (.ok ⟨none, .success⟩), after, { transport with bus := b₂, currentTag := tag }) := by
  let d : Dealing data.len := ⟨moved, after, csw⟩
  have hwrapper : d.wrapper = ⟨CSW_SIGNATURE, tag, 0, 0⟩ := by
    rw [Dealing.wrapper, hpassed, ofBytes_passed]
  have haccepted : d.Accepted tag :=
    ⟨.inl hmoved, by rw [hwrapper]; rfl, by rw [hwrapper], .inl (by rw [hwrapper]; rfl)⟩
  have hstatus : d.status = ⟨none, .success⟩ := by
    have hearly : d.early = none := if_neg (by rw [hmoved.1]; decide)
    rw [Dealing.status, hearly, hwrapper]
    rfl
  have hone : readCswRaw bus (depth + 1) false ⟨{ transport with bus := b₁, currentTag := tag }, after⟩ =
      (.ok (.ok csw), ⟨{ transport with bus := b₂, currentTag := tag }, after⟩) := by
    rw [readCswRaw_step hread fun _ => hcsw.2, hcsw.1]
    rfl
  have hcount : taken.count = 31 := htaken.2.trans (CommandBlockWrapper.length_bytes hcb)
  rw [← hstatus]
  refine sendCommand_eq_ok.mpr ⟨_, exchange_of_csw hcb hdata hlen htag hwrite ?_ hcount hphase hone haccepted,
    rfl, rfl⟩
  rw [htaken.1]
  decide

end Answers

/-! ### Whole blocks -/

section Whole

variable {scsi : Scsi} {b k : U32} {lba : U64} {buffer : List U8}

theorem div_whole (hb : b ≠ 0) : k.toNat * b.toNat / b.toNat = k.toNat := by
  refine Nat.mul_div_cancel _ (Nat.pos_of_ne_zero fun h => hb ?_)
  exact eq_of_toNat_eq h

section

variable (hb : b ≠ 0) (hsize : scsi.blockSize = b)

include hb hsize

theorem bytesIn_whole : scsi.bytesIn (k.toNat * b.toNat) = k.toNat * b.toNat := by
  rw [bytesIn, hsize, div_whole hb]

theorem writeRequest_whole (hlen : buffer.length = k.toNat * b.toNat) :
    scsi.writeRequest lba buffer = ⟨Cmds.Write16.new lba k 0, .out buffer⟩ := by
  rw [writeRequest, hlen, bytesIn_whole hb hsize, hsize, div_whole hb, ofNat_toNat,
    setWidth_eq, ← hlen, take_length]

theorem readRequest_whole : scsi.readRequest lba (k.toNat * b.toNat) =
      ⟨Cmds.Read16.new lba k 0, .in_ (resize scsi.dataBuffer (k.toNat * b.toNat))⟩ := by
  rw [readRequest, bytesIn_whole hb hsize, hsize, div_whole hb, ofNat_toNat,
    setWidth_eq, take_of_length_le (length_resize _ _).le]

end

end Whole

/-! ### Reading back -/

section Calls

variable {σ : Type} {bus : Bus σ} {p : Profile} {capacity : Nat} {image : σ → Nat → U8}
  {Ready : σ → Prop} {s : Session (BulkOnlyTransport σ)} {tag b k : U32} {lba : U64}
  {buffer : List U8}

/-- Nothing is missing of what was transferred. -/
theorem bytesTransferred_none (n : U32) :
    SendCommandStatus.bytesTransferred p ⟨none, .success⟩ n = .ok n := by
  refine Profile.sub_eq_ok.mpr ⟨?_, BitVec.sub_zero n⟩
  rintro ⟨-, h⟩
  exact absurd h (not_lt_zero _)

/-- A write that the device takes for one of `k` blocks goes to `swap` of its address. -/
theorem write_answered (depth : Nat) (himpl : Implements bus b.toNat capacity image Ready) (hb : b ≠ 0)
    (hsize : s.scsi.blockSize = b) (hready : Ready s.protocol.bus)
    (htag : p.add s.protocol.currentTag 1 = .ok tag) (hlen : buffer.length = k.toNat * b.toNat)
    (hpos : 0 < k.toNat * b.toNat) (hfit : k.toNat * b.toNat < 2 ^ 32) (hk : swap 4 k.toNat = k.toNat)
    (hcap : swap 8 lba.toNat + k.toNat ≤ capacity) :
    ∃ s₁, write p (protocol bus p (depth + 1)) lba buffer s =
        (.ok (.ok (.ofNat 32 buffer.length)), s₁) ∧
      image s₁.protocol.bus = store (image s.protocol.bus) (swap 8 lba.toNat * b.toNat) buffer ∧
      Ready s₁.protocol.bus ∧ s₁.scsi.blockSize = b ∧ s₁.protocol.currentTag = tag := by
  have hblocks : buffer.length = swap 4 k.toNat * b.toNat := by rw [hk, hlen]
  rw [← hlen] at hpos hfit
  rw [← hk] at hcap
  have hdecode := (decode_cbwFor tag Cmds.Opcode.write16 lba k (.out buffer) hblocks.symm hfit hcap).trans
    ((if_neg fun h => absurd h.1 (by decide)).trans (if_pos ⟨rfl, rfl⟩))
  obtain ⟨s₁, s₂, s₃, taken, t, csw, ⟨hwrite, htaken⟩, ⟨hdata, hmoved⟩, ⟨hread, hcsw, hpassed⟩, himage,
    hready'⟩ := himpl.write _ _ _ buffer hready hdecode rfl hblocks
  have hsend := sendCommand_of_answers depth (Cmds.Write16.new lba k 0) (.out buffer)
    (length_blockCommand _ _ _ _).le (by rintro h; cases h) ⟨hpos, hfit⟩ htag hwrite htaken
    ⟨hdata, rfl⟩ hmoved hread hcsw hpassed
  have hbytes : s.scsi.bytesIn buffer.length = buffer.length := by rw [hlen, bytesIn_whole hb hsize]
  refine ⟨⟨{ s.scsi with dataBuffer := buffer.take buffer.length },
    { s.protocol with bus := s₃, currentTag := tag }⟩, write_eq_ok.mpr ⟨⟨by rwa [hsize], ?_⟩, ?_⟩,
    himage, hready', hsize, rfl⟩
  · rw [hlen, hsize, div_whole hb]
    exact k.isLt
  · rw [writeRequest_whole hb hsize hlen, hbytes]
    exact ⟨_, _, _, hsend, bytesTransferred_none _, rfl⟩

/-- A read goes where it should. -/
theorem read_answered (depth : Nat) (himpl : Implements bus b.toNat capacity image Ready) (hb : b ≠ 0)
    (hsize : s.scsi.blockSize = b) (hready : Ready s.protocol.bus)
    (htag : p.add s.protocol.currentTag 1 = .ok tag) (hlen : buffer.length = k.toNat * b.toNat)
    (hpos : 0 < k.toNat * b.toNat) (hfit : k.toNat * b.toNat < 2 ^ 32)
    (hcap : lba.toNat + k.toNat ≤ capacity) :
    ∃ s₁, read p (protocol bus p (depth + 1)) lba buffer s =
        (.ok (.ok (.ofNat 32 buffer.length,
          bytes (image s.protocol.bus) (lba.toNat * b.toNat) buffer.length)), s₁) := by
  have hres := length_resize s.scsi.dataBuffer (k.toNat * b.toNat)
  have hpos' := hres.symm ▸ hpos
  have hfit' := hres.symm ▸ hfit
  obtain ⟨s₁, s₂, s₃, taken, t, csw, ⟨hwrite, htaken⟩, ⟨hdata, hmoved, ht⟩, ⟨hread, hcsw, hpassed⟩, -, -⟩ :=
    himpl.read _ _ _ _ hready (decode_read tag lba k hres.symm hfit' hcap) rfl hres
  have hsend := sendCommand_of_answers depth (Cmds.Read16.new lba k 0)
    (.in_ (resize s.scsi.dataBuffer (k.toNat * b.toNat)))
    (length_blockCommand _ _ _ _).le (by rintro h; cases h) ⟨hpos', hfit'⟩ htag hwrite htaken
    ⟨t, hdata, rfl, rfl⟩ hmoved hread hcsw hpassed
  have hbytes : s.scsi.bytesIn buffer.length = buffer.length := by rw [hlen, bytesIn_whole hb hsize]
  refine ⟨⟨{ s.scsi with dataBuffer := t.bytes.1 }, { s.protocol with bus := s₃, currentTag := tag }⟩,
    read_eq_ok.mpr ⟨⟨by rwa [hsize], ?_⟩, ?_⟩⟩
  · rw [hlen, hsize, div_whole hb]
    exact k.isLt
  · rw [hbytes, hlen, readRequest_whole hb hsize]
    refine ⟨_, _, _, hsend, bytesTransferred_none _, ?_, rfl⟩
    rw [ht, ← hlen, drop_length, append_nil, hlen]
    exact congrArg _ hres.symm

end Calls

/-- The number of blocks in a command block agrees with the length in its CBW. -/
def Agrees (tag : U32) (b : Nat) (r : Scsi.Request) : Prop :=
  let wire := (cbwFor tag r.command r.data).bytes
  transferLength (cdb wire) * b = dataTransferLength wire

/-- A write changes the blocks at its address and no others, and is read back from there. -/
structure ReadsBack {σ : Type} (p : Profile) (bus : Bus σ) (image : σ → Nat → U8)
    (s : Session (BulkOnlyTransport σ)) (lba : U64) (buffer : List U8) : Prop where
  agree_write : ∀ tag, Agrees tag s.scsi.blockSize.toNat (s.scsi.writeRequest lba buffer)
  agree_read : ∀ tag, Agrees tag s.scsi.blockSize.toNat (s.scsi.readRequest lba buffer.length)
  roundTrip : ∀ depth old, old.length = buffer.length → ∃ s₁ s₂,
    write p (protocol bus p (depth + 1)) lba buffer s =
      (.ok (.ok (.ofNat 32 buffer.length)), s₁) ∧
    image s₁.protocol.bus =
      store (image s.protocol.bus) (lba.toNat * s.scsi.blockSize.toNat) buffer ∧
    read p (protocol bus p (depth + 1)) lba old s₁ =
      (.ok (.ok (.ofNat 32 buffer.length, buffer)), s₂)

/-- `k` blocks of `b` bytes at `lba` are read back from every device that has them. -/
def ReadAfterWrite (p : Profile) (tag b : U32) (lba : U64) (k : U32) : Prop :=
  ∀ {σ : Type} (bus : Bus σ) (capacity : Nat) (image : σ → Nat → U8) (Ready : σ → Prop),
    Implements bus b.toNat capacity image Ready → lba.toNat + k.toNat ≤ capacity →
    ∀ (s : Session (BulkOnlyTransport σ)) (buffer : List U8), s.scsi.blockSize = b →
      s.protocol.currentTag = tag → Ready s.protocol.bus → buffer.length = k.toNat * b.toNat →
      ReadsBack p bus image s lba buffer

section Conditions

variable {p : Profile} {tag b k : U32} {lba : U64}

theorem agrees_blockCommand (tag : U32) (b : Nat) (opcode : U8) (lba : U64) (k : U32) (data : DeviceReqData) :
    Agrees tag b ⟨blockCommand opcode lba k 0, data⟩ ↔
      swap 4 k.toNat * b = data.len % 2 ^ 32 := by
  simp only [Agrees]
  rw [cdb_cbwFor (length_blockCommand opcode lba k 0), dataTransferLength_cbwFor,
    transferLength_blockCommand]

theorem agrees_write_iff {scsi : Scsi} {buffer : List U8} (hb : b ≠ 0) (hsize : scsi.blockSize = b)
    (hlen : buffer.length = k.toNat * b.toNat) : Agrees tag b.toNat (scsi.writeRequest lba buffer) ↔
      swap 4 k.toNat * b.toNat = k.toNat * b.toNat % 2 ^ 32 := by
  rw [writeRequest_whole hb hsize hlen, ← hlen]
  exact agrees_blockCommand _ _ _ _ _ _

theorem agrees_read_iff {scsi : Scsi} (hb : b ≠ 0) (hsize : scsi.blockSize = b) :
    Agrees tag b.toNat (scsi.readRequest lba (k.toNat * b.toNat)) ↔
      k.toNat * b.toNat = k.toNat * b.toNat % 2 ^ 32 := by
  have hk : swap 4 (toBe k).toNat = k.toNat := ofBe_toBe (n := 4) rfl k
  have h := agrees_blockCommand tag b.toNat Cmds.Opcode.read16 (toBe lba) (toBe k)
    (.in_ (resize scsi.dataBuffer (k.toNat * b.toNat)))
  rw [hk, DeviceReqData.len, DeviceReqData.buffer, length_resize] at h
  rw [readRequest_whole hb hsize]
  exact h

/-- The numbers that are the same in either byte order, of blocks that can be transferred at once. -/
structure Readable (p : Profile) (tag b : U32) (lba : U64) (k : U32) : Prop where
  pos : 0 < k.toNat
  fits : k.toNat * b.toNat < 2 ^ 32
  lba_swap : swap 8 lba.toNat = lba.toNat
  len_swap : swap 4 k.toNat = k.toNat
  tags : p = .debug → tag.toNat + 2 < 2 ^ 32

/-- Two commands can be sent. -/
theorem add_tag (h : p = .debug → tag.toNat + 2 < 2 ^ 32) :
    p.add tag 1 = .ok (tag + 1) ∧ p.add (tag + 1) 1 = .ok (tag + 1 + 1) := by
  have hone : (1 : U32).toNat = 1 := rfl
  refine ⟨Profile.add_eq_ok.mpr ⟨?_, rfl⟩, Profile.add_eq_ok.mpr ⟨?_, rfl⟩⟩
  · rintro ⟨hp, hle⟩
    have := h hp
    omega
  · rintro ⟨hp, hle⟩
    have := h hp
    rw [toNat_add, hone, mod_eq_of_lt (by omega)] at hle
    omega

theorem Readable.readAfterWrite (hb : b ≠ 0) (h : Readable p tag b lba k) :
    ReadAfterWrite p tag b lba k := by
  intro σ bus capacity image Ready himpl hcap s buffer hsize htag hready hlen
  have hfits := Nat.mod_eq_of_lt h.fits
  have hpos : 0 < k.toNat * b.toNat := by
    refine Nat.mul_pos h.pos (Nat.pos_of_ne_zero fun hzero => hb ?_)
    exact eq_of_toNat_eq hzero
  obtain ⟨htag₁, htag₂⟩ := add_tag h.tags
  rw [← htag] at htag₁ htag₂
  refine ⟨fun t => ?_, fun t => ?_, fun depth old hold => ?_⟩
  · rw [hsize, agrees_write_iff hb hsize hlen, h.len_swap, hfits]
  · rw [hsize, hlen, agrees_read_iff hb hsize, hfits]
  · obtain ⟨s₁, hwrite, himage, hready₁, hsize₁, htag'⟩ := write_answered depth himpl hb hsize hready
      htag₁ hlen hpos h.fits h.len_swap (h.lba_swap.symm ▸ hcap)
    obtain ⟨s₂, hread⟩ := read_answered depth himpl hb hsize₁ hready₁ (htag'.symm ▸ htag₂)
      (hold.trans hlen) hpos h.fits hcap
    rw [h.lba_swap] at himage
    rw [himage, hold, bytes_store] at hread
    exact ⟨s₁, s₂, hwrite, hsize ▸ himage, hread⟩

end Conditions

/-! ### A disk -/

/-- How far a disk is with a command. -/
inductive Phase where
  | idle
  | data (c : Command)
  | status (tag : Nat)

structure Disk where
  image : Nat → U8
  phase : Phase

namespace Disk

def write (b capacity : Nat) (buf : List U8) (d : Disk) : Disk :=
  match d.phase with
  | .idle => { d with phase := ((decode b capacity buf).map Phase.data).getD .idle }
  | .data c => ⟨store d.image (c.lba * b) buf, .status c.tag⟩
  | .status _ => d

def read (b n : Nat) (d : Disk) : List U8 × Disk :=
  match d.phase with
  | .idle => (List.replicate n 0, d)
  | .data c => (bytes d.image (c.lba * b) n, { d with phase := .status c.tag })
  | .status tag => (resize (passed tag) n, { d with phase := .idle })

theorem length_read (b n : Nat) (d : Disk) : (d.read b n).1.length = n := by
  unfold read
  cases d.phase with
  | idle => exact length_replicate
  | data => exact length_bytes _ _ _
  | status => exact length_resize _ _

/-- The bus with such a disk on it. -/
def bus (b capacity : Nat) : Bus Disk where
  write buf d := (.ok (.whole buf.length), d.write b capacity buf)
  read n d := (.ok ⟨.whole n, (d.read b n).1, d.length_read b n⟩, (d.read b n).2)
  status _ d := (.ok .enabled, d)
  reset _ _ d := (.ok (), d)
  deviceRequest _ _ _ _ _ d := (.ok (), d)

theorem bus_implements (b capacity : Nat) :
    Implements (bus b capacity) b capacity image fun d => d.phase = .idle where
  read := by
    rintro ⟨image, phase⟩ wire c n rfl hdecode - rfl
    have hidle : write b capacity wire ⟨image, .idle⟩ = ⟨image, .data c⟩ := by
      rw [write, hdecode]
      rfl
    refine ⟨_, _, _, _, _, _, ⟨rfl, rfl, rfl⟩, ⟨rfl, ⟨rfl, rfl⟩, ?_⟩, ⟨rfl, ⟨rfl, rfl⟩, ?_⟩, ?_, ?_⟩
    all_goals simp only [hidle]
    all_goals rfl
  write := by
    rintro ⟨image, phase⟩ wire c data rfl hdecode - hlen
    have hidle : write b capacity wire ⟨image, .idle⟩ = ⟨image, .data c⟩ := by
      rw [write, hdecode]
      rfl
    refine ⟨_, _, _, _, _, _, ⟨rfl, rfl, rfl⟩, ⟨rfl, rfl, rfl⟩, ⟨rfl, ⟨rfl, rfl⟩, ?_⟩, ?_, ?_⟩
    all_goals simp only [hidle]
    all_goals rfl

/-- A disk of zeros, and the driver's side of it. -/
def session (tag b : U32) : Session (BulkOnlyTransport Disk) :=
  ⟨{ blank with blockSize := b }, ⟨⟨fun _ => 0, .idle⟩, 1, 2, tag, 0⟩⟩

end Disk

section Necessity

variable {σ : Type} {bus : Bus σ} {p : Profile} {s s' : Session (BulkOnlyTransport σ)}
  {tag b k : U32} {lba : U64} {buffer : List U8} {n : U32}

/-- A write that returns a number was not empty, and has taken the next tag. -/
theorem write_sent {depth : Nat}
    (h : write p (protocol bus p depth) lba buffer s = (.ok (.ok n), s')) :
    0 < s.scsi.bytesIn buffer.length ∧
      p.add s.protocol.currentTag 1 = .ok s'.protocol.currentTag := by
  have hblock := s.scsi.writeRequest_isBlock lba buffer
  obtain ⟨-, status, back, state, hsend, -, rfl⟩ := write_eq_ok.mp h
  obtain ⟨e, hex, rfl, rfl⟩ := sendCommand_eq_ok.mp hsend
  obtain ⟨hlen, tag, d, htag, hdeals, -⟩ := exchange_sound hblock.command hblock.data hex
  rw [← s.scsi.writeRequest_len lba buffer]
  exact ⟨hlen.1, htag.trans (congrArg _ hdeals.outOfReach.2.symm)⟩

theorem read_sent {depth : Nat} {buffer' : List U8}
    (h : read p (protocol bus p depth) lba buffer s = (.ok (.ok (n, buffer')), s')) :
    ∃ tag, p.add s.protocol.currentTag 1 = .ok tag := by
  have hblock := s.scsi.readRequest_isBlock lba buffer.length
  obtain ⟨-, status, back, state, hsend, -⟩ := read_eq_ok.mp h
  obtain ⟨e, hex, -⟩ := sendCommand_eq_ok.mp hsend
  obtain ⟨-, tag, -, htag, -⟩ := exchange_sound hblock.command hblock.data hex
  exact ⟨tag, htag⟩

/-- If two commands were sent, the tags have not run out. -/
theorem tags_of_add {tag₁ tag₂ : U32} (h₁ : p.add tag 1 = .ok tag₁) (h₂ : p.add tag₁ 1 = .ok tag₂) :
    p = .debug → tag.toNat + 2 < 2 ^ 32 := by
  intro hp
  obtain ⟨hle₁, rfl⟩ := Profile.add_eq_ok.mp h₁
  obtain ⟨hle₂, -⟩ := Profile.add_eq_ok.mp h₂
  have hone : (1 : U32).toNat = 1 := rfl
  rw [hp] at hle₁ hle₂
  simp only [true_and, hone] at hle₁ hle₂
  rw [toNat_add, hone, mod_eq_of_lt (by omega)] at hle₂
  omega

/-- A disk of zeros shows where ones were written. -/
theorem ReadAfterWrite.readable (hb : b ≠ 0) (h : ReadAfterWrite p tag b lba k) :
    Readable p tag b lba k := by
  let capacity := swap 8 lba.toNat + lba.toNat + k.toNat
  let ones : List U8 := List.replicate (k.toNat * b.toNat) 1
  have hlen : ones.length = k.toNat * b.toNat := length_replicate
  have himpl := Disk.bus_implements b.toNat capacity
  have hback := h (Disk.bus b.toNat capacity) capacity Disk.image _ himpl (by omega)
    (Disk.session tag b) ones rfl rfl rfl hlen
  have hbpos : 0 < b.toNat := Nat.pos_of_ne_zero fun hzero => hb (eq_of_toNat_eq hzero)
  obtain ⟨s₁, s₂, hwrite, himage, hread⟩ := hback.roundTrip 0 ones rfl
  obtain ⟨hpos, htag₁⟩ := write_sent hwrite
  obtain ⟨tag₂, htag₂⟩ := read_sent hread
  have hfits : k.toNat * b.toNat < 2 ^ 32 := by
    have hread := hback.agree_read 0
    rw [hlen] at hread
    rw [(agrees_read_iff hb rfl).mp hread]
    exact mod_lt _ (by decide)
  have hk : swap 4 k.toNat = k.toNat := by
    have hwrite := (agrees_write_iff hb rfl hlen).mp (hback.agree_write 0)
    rw [mod_eq_of_lt hfits] at hwrite
    exact eq_of_mul_eq_mul_right hbpos hwrite
  rw [hlen, bytesIn_whole hb rfl] at hpos
  obtain ⟨s₁', hwrite', himage', -⟩ := write_answered 0 himpl hb rfl rfl htag₁ hlen hpos hfits hk
    (show swap 8 lba.toNat + k.toNat ≤ capacity by omega)
  rw [hwrite] at hwrite'
  cases hwrite'
  have hoffset : swap 8 lba.toNat * b.toNat = lba.toNat * b.toNat := by
    refine offset_eq_of_store_eq (hlen.symm ▸ hpos) ?_ (himage'.symm.trans himage)
    rw [List.getElem?_replicate_of_lt hpos]
    decide
  exact ⟨Nat.pos_of_mul_pos_right hpos, hfits, Nat.eq_of_mul_eq_mul_right hbpos hoffset, hk,
    tags_of_add htag₁ htag₂⟩

end Necessity

/-- What is written to a disk can be read back exactly if its address and its number of blocks are
the same in either byte order. -/
theorem read_after_write (p : Profile) (tag : U32) {b : U32} (hb : b ≠ 0) (lba : U64) (k : U32) :
    ReadAfterWrite p tag b lba k ↔ Readable p tag b lba k :=
  ⟨fun h => h.readable hb, fun h => h.readAfterWrite hb⟩

/-- Sixteen megabytes at the first block, in a number of blocks that is a palindrome. -/
theorem first_blocks_read_back : ReadAfterWrite .release 0 256 0 0x010100 := by
  refine (read_after_write .release 0 (by decide) 0 0x010100).mpr ⟨?_, ?_, ?_, ?_, ?_⟩
  all_goals decide

/-- One block at address 1 is a write of `2 ^ 24` blocks at address `2 ^ 56` for the disk. -/
theorem one_block_not_read_back : ¬ ReadAfterWrite .release 0 512 1 1 := by
  intro h
  exact absurd (h.readable (by decide)).lba_swap (by decide)

end RedoxDrivers.Usbscsi
