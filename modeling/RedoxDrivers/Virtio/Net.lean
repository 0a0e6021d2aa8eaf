import RedoxDrivers.Virtio.Device

/-!
The receive path of `virtio-netd` (`net/virtio-netd/src/scheme.rs`).

`VirtioNet::new` offers one buffer for each descriptor of the receive queue. The
device fills the offered buffers in order and reports each in the used ring;
`try_recv` hands a packet to the scheme. The specification beside the driver is a
queue of packets: `delivered` in order, of which the first `read` have been read.
The transmit queue and the MAC address are left out: nothing here depends on them.

* `VirtioNet.new_spec`: the receive queue as `new` leaves it.
* `Valid` holds in every state of every run: the newest used element belongs to the
  last packet delivered, and there are at most as many packets as descriptors, since
  nothing offers a buffer again.
* `receive_iff_onlyIdle`: the receive path does what it should exactly in the runs in
  which no read finds a packet; with at most one packet waiting at each read, the
  packets come out in order (`Synced.fifo`).
-/

namespace RedoxDrivers.Virtio.Net

open Lib List Option Nat
open BitVec (ofNat)

/-! ### The driver -/

/-- `size_of::<VirtHeader>()`. -/
def headerSize : Nat := 12

def maxBufferLen : Nat := 65535

/-- A DMA buffer: `len` bytes at a physical address. -/
structure Dma where
  physical : U64
  len : Nat
  data : Nat → U8

namespace Dma

def zeroedSlice (physical : U64) (len : Nat) : Dma := ⟨physical, len, fun _ => 0⟩

/-- `&self[start..stop]`. -/
def slice (self : Dma) (start stop : Nat) : Except Fault (List U8) :=
  if start ≤ stop ∧ stop ≤ self.len then
    .ok ((List.range (stop - start)).map fun k => self.data (start + k))
  else .error .outOfBounds

/-- The device stores `bytes` at the start of the buffer. -/
def write (self : Dma) (bytes : List U8) : Dma :=
  { self with data := fun k => bytes[k]?.getD (self.data k) }

end Dma

/-- `Buffer::new_unsized(val).flags(flags)`. -/
def newUnsized (val : Dma) (flags : DescriptorFlags) : Buffer :=
  ⟨val.physical, ofNat 64 val.len, flags⟩

structure VirtioNet where
  rx : Queue
  rxBuffers : List Dma
  recvHead : U16

namespace VirtioNet

/-- One round of the loop of `new`: the `i`-th buffer, which the allocator has placed
at `phys i`, is sent. -/
def populate (p : Profile) (phys : Nat → U64) (st : Queue × List Dma) (i : Nat) :
    Except Fault (Queue × List Dma) := do
  let rxBuffers := st.2 ++ [Dma.zeroedSlice (phys i) maxBufferLen]
  let buffer ← index rxBuffers i
  let chain ← ChainBuilder.ofBuffers [newUnsized buffer .writeOnly]
  let (rx, _) ← st.1.send p chain
  return (rx, rxBuffers)

def new (p : Profile) (phys : Nat → U64) (rx : Queue) : Except Fault VirtioNet := do
  let (rx, rxBuffers) ← (List.range rx.descriptor.length).foldlM (populate p phys) (rx, [])
  return { rx, rxBuffers, recvHead := 0 }

/-- `target[..src.len()].copy_from_slice(src)`. -/
def copyFromSlice (target src : List U8) : Except Fault (List U8) :=
  if src.length ≤ target.length then .ok (src ++ target.drop src.length) else .error .outOfBounds

/-- Returns the driver, the target and the number of bytes read. The last two
subtractions are of `usize`. -/
def tryRecv (p : Profile) (self : VirtioNet) (target : List U8) :
    Except Fault (VirtioNet × List U8 × Nat) :=
  if self.recvHead = self.rx.used.headIndex then
    -- The read would block.
    .ok (self, target, 0)
  else do
    let idx : U64 := self.rx.used.headIndex.setWidth 64
    let newest ← p.sub idx 1
    let element ← self.rx.used.getElementAt newest.toNat
    let payloadSize ← p.sub (element.written.setWidth 64) (ofNat 64 headerSize)
    let buffer ← index self.rxBuffers element.tableIndex.toNat
    let stop ← p.add (ofNat 64 headerSize) payloadSize
    let packet ← buffer.slice headerSize stop.toNat
    let target ← copyFromSlice target packet
    return ({ self with recvHead := self.rx.used.headIndex }, target, payloadSize.toNat)

def availableForRead (p : Profile) (self : VirtioNet) : Except Fault Nat := do
  let n ← p.sub self.rx.used.headIndex self.recvHead
  return n.toNat

end VirtioNet

open VirtioNet

/-! ### The queue that `new` leaves -/

/-- After `k` rounds of the loop of `new`: descriptor `i` points to buffer `i` and is
offered in slot `i`, for each `i < k`. -/
structure Populated (size : QueueSize) (phys : Nat → U64) (k : Nat) (rx : Queue)
    (rxBuffers : List Dma) : Prop where
  table : rx.descriptor.length = size.val
  address : ∀ i < k, ∃ d, rx.descriptor[i]? = some d ∧ d.address = phys i
  stack : rx.descriptorStack = (indices size.val).drop k
  availableSize : rx.available.queueSize = size.val
  availableLength : rx.available.elements.length = size.val
  availableHead : rx.available.headIndex = ofNat 16 k
  heads : ∀ i < k, rx.available.elements[i]? = some (ofNat 16 i)
  usedSize : rx.used.queueSize = size.val
  usedLength : rx.used.elements.length = size.val
  usedHead : rx.used.headIndex = 0
  buffers : rxBuffers = (List.range k).map fun i => Dma.zeroedSlice (phys i) maxBufferLen

namespace Populated

variable {p : Profile} {size : QueueSize} {phys : Nat → U64} {q rx : Queue}
  {rxBuffers : List Dma} {k : Nat}

theorem start (fresh : q.Fresh size) : Populated size phys 0 q [] where
  table := fresh.descriptor
  address := nofun
  stack := fresh.stack
  availableSize := fresh.availableSize
  availableLength := fresh.availableLength
  availableHead := fresh.availableHead
  heads := nofun
  usedSize := fresh.usedSize
  usedLength := fresh.usedLength
  usedHead := fresh.usedRingHead
  buffers := rfl

theorem populate (pop : Populated size phys k rx rxBuffers) (hk : k < size.val) :
    ∃ rx' rxBuffers', populate p phys (rx, rxBuffers) k = .ok (rx', rxBuffers') ∧
      Populated size phys (k + 1) rx' rxBuffers' := by
  have hsize := size.le
  have hk16 : (ofNat 16 k).toNat = k := by
    rw [BitVec.toNat_ofNat]
    omega
  have hstack : rx.descriptorStack = ofNat 16 k :: (indices size.val).drop (k + 1) := by
    rw [pop.stack, drop_eq_getElem_cons (by simpa [indices] using hk)]
    simp [indices]
  have hlen : rxBuffers.length = k := by
    rw [pop.buffers, length_map, length_range]
  have hindex : index (rxBuffers ++ [Dma.zeroedSlice (phys k) maxBufferLen]) k =
      .ok (Dma.zeroedSlice (phys k) maxBufferLen) := by
    simp [← hlen]
  have hbound : (ofNat 16 k).toNat < rx.descriptor.length := by
    rw [hk16, pop.table]
    exact hk
  have hhead : rx.available.headIndex.toNat = k := by
    rw [pop.availableHead, hk16]
  have hslot : rx.available.headIndex.toNat % rx.available.queueSize = k := by
    rw [hhead, pop.availableSize, mod_eq_of_lt hk]
  have hsend := fun b => Queue.send_one (p := p) (b := b) hstack hbound
    (by rw [hslot, pop.availableLength]; exact hk) (by rw [hhead]; omega)
  refine ⟨_, _, bind_eq_ok.mpr ⟨_, hindex, bind_eq_ok.mpr ⟨_, rfl,
    bind_eq_ok.mpr ⟨_, hsend _, rfl⟩⟩⟩, ?_⟩
  constructor
  · simpa using pop.table
  · intro i hi
    rcases Nat.lt_succ_iff_lt_or_eq.mp hi with hlt | rfl
    · obtain ⟨d, hd, haddress⟩ := pop.address i hlt
      refine ⟨d, ?_, haddress⟩
      rw [getElem?_modify_ne _ _ (by omega), getElem?_modify_ne _ _ (by omega)]
      exact hd
    · rw [hk16] at hbound ⊢
      rw [getElem?_modify_eq, getElem?_modify_eq, getElem?_eq_getElem hbound]
      exact ⟨_, rfl, rfl⟩
  · rfl
  · exact pop.availableSize
  · simpa using pop.availableLength
  · simp [pop.availableHead, BitVec.ofNat_add]
  · intro i hi
    simp only [hslot]
    rcases Nat.lt_succ_iff_lt_or_eq.mp hi with hlt | rfl
    · rw [getElem?_set_ne (by omega)]
      exact pop.heads i hlt
    · exact getElem?_set_self (by rw [pop.availableLength]; exact hk)
  · exact pop.usedSize
  · exact pop.usedLength
  · exact pop.usedHead
  · rw [pop.buffers, range_succ, map_append, map_singleton]

theorem of_rounds (phys : Nat → U64) (fresh : q.Fresh size) (hk : k ≤ size.val) :
    ∃ rx rxBuffers, (range k).foldlM (VirtioNet.populate p phys) (q, []) =
      .ok (rx, rxBuffers) ∧ Populated size phys k rx rxBuffers := by
  induction k with
  | zero => exact ⟨q, [], rfl, start fresh⟩
  | succ k ih =>
    obtain ⟨rx, rxBuffers, hrun, pop⟩ := ih (by omega)
    obtain ⟨rx', rxBuffers', hround, pop'⟩ := pop.populate (p := p) (by omega)
    refine ⟨rx', rxBuffers', ?_, pop'⟩
    rw [range_succ, foldlM_append, hrun, ok_bind, foldlM_cons, hround]
    rfl

end Populated

/-! ### The driver with its device -/

/-- A packet that the device has delivered, in the buffer of descriptor `head`. -/
structure Packet where
  head : U16
  payload : List U8
deriving DecidableEq, Repr

structure Reception where
  net : VirtioNet
  /-- The device's own indices into the two rings. -/
  deviceAvail : U16
  deviceUsed : U16
  delivered : List Packet
  /-- How many of them a queue of packets would have handed out. -/
  read : Nat

namespace Reception

def start (net : VirtioNet) : Reception := ⟨net, 0, 0, [], 0⟩

/-- The packets still to be read. -/
def unread (s : Reception) : List Packet := s.delivered.drop s.read

/-- The descriptors that the driver has offered and the device has not used. -/
def offered (s : Reception) : List U16 :=
  let available := s.net.rx.available
  (List.range (available.headIndex - s.deviceAvail).toNat).filterMap fun k =>
    available.elements[(s.deviceAvail.toNat + k) % available.queueSize]?

/-- The device takes the next offered buffer and writes header and payload to where
its descriptor points. -/
def deliver (s : Reception) (header payload : List U8) : Option Reception :=
  if header.length = headerSize ∧ headerSize + payload.length ≤ maxBufferLen ∧
      s.deviceAvail ≠ s.net.rx.available.headIndex then do
    let rx := s.net.rx
    let head ← rx.available.elements[s.deviceAvail.toNat % rx.available.queueSize]?
    let d ← rx.descriptor[head.toNat]?
    let written := ofNat 32 (headerSize + payload.length)
    let rxBuffers := s.net.rxBuffers.map fun b =>
      if b.physical = d.address then b.write (header ++ payload) else b
    let used := rx.used.append s.deviceUsed ⟨head.setWidth 32, written⟩
    some { s with
      net := { s.net with rx := { rx with used }, rxBuffers }
      deviceAvail := s.deviceAvail + 1
      deviceUsed := s.deviceUsed + 1
      delivered := s.delivered ++ [⟨head, payload⟩] }
  else none

/-- The scheme reads into a target that is long enough for every packet. -/
def recv (p : Profile) (s : Reception) (target : List U8) : Option Reception :=
  if ∀ packet ∈ s.delivered, packet.payload.length ≤ target.length then
    (s.net.tryRecv p target).toOption.map fun (net, _, _) =>
      { s with net, read := min (s.read + 1) s.delivered.length }
  else none

end Reception

open Reception

theorem Reception.deliver_eq_some {s s' : Reception} {header payload : List U8}
    (h : s.deliver header payload = some s') :
    header.length = headerSize ∧ headerSize + payload.length ≤ maxBufferLen ∧
    s.deviceAvail ≠ s.net.rx.available.headIndex ∧ ∃ head d,
      s.net.rx.available.elements[s.deviceAvail.toNat % s.net.rx.available.queueSize]? =
        some head ∧
      s.net.rx.descriptor[head.toNat]? = some d ∧
      s' = { s with
        net := { s.net with
          rx := { s.net.rx with
            used := s.net.rx.used.append s.deviceUsed
              ⟨head.setWidth 32, ofNat 32 (headerSize + payload.length)⟩ }
          rxBuffers := s.net.rxBuffers.map fun b =>
            if b.physical = d.address then b.write (header ++ payload) else b }
        deviceAvail := s.deviceAvail + 1
        deviceUsed := s.deviceUsed + 1
        delivered := s.delivered ++ [⟨head, payload⟩] } := by
  unfold deliver at h
  split at h
  · rename_i hguard
    obtain ⟨head, hhead, h⟩ := bind_eq_some_iff.mp h
    obtain ⟨d, hd, h⟩ := bind_eq_some_iff.mp h
    cases h
    exact ⟨hguard.1, hguard.2.1, hguard.2.2, head, d, hhead, hd, rfl⟩
  · cases h

inductive NetEvent where
  | deliver (header payload : List U8)
  | read (target : List U8)
  | poll
deriving DecidableEq, Repr

def step (p : Profile) (s : Reception) : NetEvent → Option Reception
  | .deliver header payload => s.deliver header payload
  | .read target => s.recv p target
  | .poll => (s.net.availableForRead p).toOption.map fun _ => s

/-! ### Every run -/

/-- What holds in every state of every run. -/
structure Valid (size : QueueSize) (phys : Nat → U64) (s : Reception) : Prop where
  address : ∀ i < size.val, ∃ d, s.net.rx.descriptor[i]? = some d ∧ d.address = phys i
  availableSize : s.net.rx.available.queueSize = size.val
  availableHead : s.net.rx.available.headIndex = ofNat 16 size.val
  heads : ∀ i < size.val, s.net.rx.available.elements[i]? = some (ofNat 16 i)
  usedSize : s.net.rx.used.queueSize = size.val
  usedLength : s.net.rx.used.elements.length = size.val
  buffers : ∀ i < size.val, ∃ b, s.net.rxBuffers[i]? = some b ∧ b.physical = phys i ∧
    b.len = maxBufferLen
  bound : s.delivered.length ≤ size.val
  deviceAvail : s.deviceAvail = ofNat 16 s.delivered.length
  deviceUsed : s.deviceUsed = ofNat 16 s.delivered.length
  usedHead : s.net.rx.used.headIndex = ofNat 16 s.delivered.length
  recvHead : s.net.recvHead.toNat ≤ s.delivered.length
  read : s.read ≤ s.delivered.length
  order : s.delivered.map Packet.head = indices s.delivered.length
  fits : ∀ packet ∈ s.delivered, headerSize + packet.payload.length ≤ maxBufferLen
  /-- The newest used element and the buffer it names hold the last packet. -/
  newest : ∀ packet, s.delivered.getLast? = some packet →
    s.net.rx.used.elements[s.delivered.length - 1]? =
      some ⟨packet.head.setWidth 32, ofNat 32 (headerSize + packet.payload.length)⟩ ∧
    ∃ b, s.net.rxBuffers[packet.head.toNat]? = some b ∧ b.len = maxBufferLen ∧
      ∀ k, ∀ h : k < packet.payload.length, b.data (headerSize + k) = packet.payload[k]

namespace Valid

variable {p : Profile} {size : QueueSize} {phys : Nat → U64} {s s' : Reception} {net : VirtioNet}

theorem start (pop : Populated size phys size.val net.rx net.rxBuffers)
    (hrecv : net.recvHead = 0) : Valid size phys (.start net) where
  address := pop.address
  availableSize := pop.availableSize
  availableHead := pop.availableHead
  heads := pop.heads
  usedSize := pop.usedSize
  usedLength := pop.usedLength
  buffers := fun i hi => by
    refine ⟨Dma.zeroedSlice (phys i) maxBufferLen, ?_, rfl, rfl⟩
    simp [Reception.start, pop.buffers, hi]
  bound := zero_le _
  deviceAvail := rfl
  deviceUsed := rfl
  usedHead := pop.usedHead
  recvHead := by simp [Reception.start, hrecv]
  read := zero_le _
  order := rfl
  fits := nofun
  newest := nofun

section

variable (valid : Valid size phys s)

include valid

theorem toNat_delivered : (ofNat 16 s.delivered.length).toNat = s.delivered.length := by
  have hsize := size.le
  have hbound := valid.bound
  rw [BitVec.toNat_ofNat]
  omega

theorem toNat_usedHead : s.net.rx.used.headIndex.toNat = s.delivered.length := by
  rw [valid.usedHead]
  exact valid.toNat_delivered

/-- A read that finds the indices apart finds the last packet delivered. -/
theorem tryRecv_news (news : s.net.recvHead ≠ s.net.rx.used.headIndex) {target : List U8}
    (long : ∀ packet ∈ s.delivered, packet.payload.length ≤ target.length) :
    ∃ packet, s.delivered.getLast? = some packet ∧
      s.net.tryRecv p target = .ok ({ s.net with recvHead := s.net.rx.used.headIndex },
        packet.payload ++ target.drop packet.payload.length, packet.payload.length) := by
  have hsize := size.le
  have hbound := valid.bound
  have hne : s.delivered ≠ [] := by
    intro hnil
    apply news
    apply BitVec.eq_of_toNat_eq
    have hle := valid.recvHead
    rw [valid.toNat_usedHead, hnil] at *
    simpa using hle
  have hpos := length_pos_iff.mpr hne
  let packet := s.delivered.getLast hne
  have hlast : s.delivered.getLast? = some packet := getLast?_eq_some_getLast hne
  obtain ⟨helement, b, hb, hlen, hdata⟩ := valid.newest packet hlast
  have hmem : packet ∈ s.delivered := getLast_mem hne
  have hfits := valid.fits packet hmem
  unfold maxBufferLen at hfits
  have hidx : p.sub (s.net.rx.used.headIndex.setWidth 64) 1 =
      .ok (ofNat 64 (s.delivered.length - 1)) := by
    rw [valid.usedHead, BitVec.setWidth_ofNat_of_le_of_lt (by decide) (by omega)]
    exact Profile.sub_ofNat (by omega) hpos
  have hget : s.net.rx.used.getElementAt (ofNat 64 (s.delivered.length - 1)).toNat =
      .ok ⟨packet.head.setWidth 32, ofNat 32 (headerSize + packet.payload.length)⟩ := by
    rw [Used.getElementAt, unwrap_eq_ok, valid.usedSize,
      toNat_ofNat_of_lt (by omega : s.delivered.length - 1 < 2 ^ 64), mod_eq_of_lt (by omega)]
    exact helement
  have hpayload : p.sub ((ofNat 32 (headerSize + packet.payload.length)).setWidth 64)
      (ofNat 64 headerSize) = .ok (ofNat 64 packet.payload.length) := by
    rw [BitVec.setWidth_ofNat_of_le_of_lt (by decide) (by omega),
      Profile.sub_ofNat (by omega) (Nat.le_add_right _ _), Nat.add_sub_cancel_left]
  have hbuffer : index s.net.rxBuffers (packet.head.setWidth 32).toNat = .ok b := by
    rw [Queue.toNat_widen, index_eq_ok]
    exact hb
  have hstop : p.add (ofNat 64 headerSize) (ofNat 64 packet.payload.length) =
      .ok (ofNat 64 (headerSize + packet.payload.length)) :=
    Profile.add_ofNat (by omega)
  have hslice : b.slice headerSize
      (ofNat 64 (headerSize + packet.payload.length)).toNat = .ok packet.payload := by
    rw [toNat_ofNat_of_lt (by omega), Dma.slice, if_pos ⟨le_add_right _ _, hlen ▸ hfits⟩,
      Nat.add_sub_cancel_left]
    congr 1
    refine ext_getElem (by simp) fun k _ hk => ?_
    simpa using hdata k hk
  have hcopy : copyFromSlice target packet.payload = .ok _ :=
    if_pos (long packet hmem)
  have hsize64 : (ofNat 64 packet.payload.length).toNat = packet.payload.length := by
    rw [BitVec.toNat_ofNat]
    omega
  refine ⟨packet, hlast, ?_⟩
  rw [tryRecv, if_neg news]
  simp only [hidx, hget, hpayload, hbuffer, hstop, hslice, hcopy, ok_bind, pure_eq_ok, hsize64]

/-- The device can only use the buffers that `new` has offered: the next one is that of
the next descriptor. -/
theorem next_offered (havail : s.deviceAvail ≠ s.net.rx.available.headIndex) {head : U16}
    (hhead : s.net.rx.available.elements[s.deviceAvail.toNat % s.net.rx.available.queueSize]? = some head) :
    s.delivered.length < size.val ∧ head = ofNat 16 s.delivered.length := by
  have hlt : s.delivered.length < size.val := by
    apply lt_of_le_of_ne valid.bound
    intro heq
    rw [valid.deviceAvail, valid.availableHead, heq] at havail
    exact havail rfl
  rw [valid.deviceAvail, valid.toNat_delivered, valid.availableSize, mod_eq_of_lt hlt,
    valid.heads _ hlt] at hhead
  exact ⟨hlt, (some.inj hhead).symm⟩

theorem deliver_keeps {header payload : List U8} (h : s.deliver header payload = some s') :
    Valid size phys s' := by
  obtain ⟨hheader, hfits, havail, head, d, hhead, hd, rfl⟩ := deliver_eq_some h
  obtain ⟨hlt, rfl⟩ := valid.next_offered havail hhead
  have hlen := valid.toNat_delivered
  have hnext : ofNat 16 s.delivered.length + 1 =
      ofNat 16 (s.delivered.length + 1) := by
    rw [BitVec.ofNat_add]
    rfl
  obtain ⟨b, hb, hphysical, hblen⟩ := valid.buffers _ hlt
  obtain ⟨d', hd', haddress⟩ := valid.address _ hlt
  rw [hlen, hd'] at hd
  cases hd
  constructor
  · exact valid.address
  · exact valid.availableSize
  · exact valid.availableHead
  · exact valid.heads
  · exact valid.usedSize
  · simpa [Used.append] using valid.usedLength
  · intro i hi
    obtain ⟨c, hc, hcphysical, hclen⟩ := valid.buffers i hi
    rw [getElem?_map, hc]
    by_cases hmine : c.physical = d.address
    · exact ⟨c.write (header ++ payload), congrArg some (if_pos hmine), hcphysical, hclen⟩
    · exact ⟨c, congrArg some (if_neg hmine), hcphysical, hclen⟩
  · rw [length_append]
    exact hlt
  · rw [length_append, length_singleton, valid.deviceAvail]
    exact hnext
  · rw [length_append, length_singleton, valid.deviceUsed]
    exact hnext
  · rw [length_append, length_singleton, Used.append, valid.deviceUsed]
    exact hnext
  · simpa using le_succ_of_le valid.recvHead
  · simpa using le_succ_of_le valid.read
  · simp [valid.order, indices, range_succ]
  · intro packet hpacket
    rcases mem_append.mp hpacket with hold | hnew
    · exact valid.fits packet hold
    · obtain rfl := mem_singleton.mp hnew
      exact hfits
  · intro packet hpacket
    obtain rfl : ⟨ofNat 16 s.delivered.length, payload⟩ = packet := by
      simpa using hpacket
    refine ⟨?_, ?_⟩
    · simp only [Used.append, valid.deviceUsed, hlen, valid.usedSize, mod_eq_of_lt hlt,
        length_append, length_singleton, Nat.add_sub_cancel]
      exact getElem?_set_self (by rw [valid.usedLength]; exact hlt)
    · refine ⟨b.write (header ++ payload), ?_, hblen, fun k hk => ?_⟩
      · simp [hlen, hb, hphysical, haddress]
      · simp [Dma.write, ← hheader, hk]

end

theorem tryRecv_idle (idle : s.net.recvHead = s.net.rx.used.headIndex) (target : List U8) :
    s.net.tryRecv p target = .ok (s.net, target, 0) :=
  if_pos idle

/-- A read leaves the driver's index where the device's is. -/
theorem recv_eq_some (valid : Valid size phys s) {target : List U8}
    (h : s.recv p target = some s') :
    (∀ packet ∈ s.delivered, packet.payload.length ≤ target.length) ∧
      s' = { s with
        net := { s.net with recvHead := s.net.rx.used.headIndex }
        read := min (s.read + 1) s.delivered.length } := by
  rw [recv, ite_none_right_eq_some] at h
  obtain ⟨long, h⟩ := h
  refine ⟨long, ?_⟩
  by_cases idle : s.net.recvHead = s.net.rx.used.headIndex
  · rw [tryRecv_idle idle] at h
    cases h
    rw [← idle]
  · obtain ⟨packet, -, hrecv⟩ := valid.tryRecv_news (p := p) idle long
    rw [hrecv] at h
    cases h
    rfl

theorem keeps (valid : Valid size phys s) {e : NetEvent} (h : step p s e = some s') :
    Valid size phys s' := by
  cases e with
  | deliver => exact valid.deliver_keeps h
  | read =>
    obtain ⟨-, rfl⟩ := valid.recv_eq_some h
    exact { valid with
      recvHead := valid.toNat_usedHead.le
      read := min_le_right _ _ }
  | poll =>
    obtain ⟨-, -, rfl⟩ := map_eq_some_iff.mp h
    exact valid

/-- The descriptors still offered are those of the packets to come. -/
theorem offered_eq (valid : Valid size phys s) :
    s.offered = (indices size.val).drop s.delivered.length := by
  have hsize := size.le
  have hbound := valid.bound
  have hcount : (s.net.rx.available.headIndex - s.deviceAvail).toNat =
      size.val - s.delivered.length := by
    rw [valid.availableHead, valid.deviceAvail,
      BitVec.ofNat_sub_ofNat_of_le _ _ (by omega) hbound, BitVec.toNat_ofNat]
    omega
  have hhead : s.deviceAvail.toNat = s.delivered.length := by
    rw [valid.deviceAvail, BitVec.toNat_ofNat]
    omega
  have hslot : ∀ k ∈ range (size.val - s.delivered.length),
      s.net.rx.available.elements[(s.delivered.length + k) % size.val]? =
        some (ofNat 16 (s.delivered.length + k)) := by
    intro k hk
    rw [mem_range] at hk
    rw [mod_eq_of_lt (by omega)]
    exact valid.heads _ (by omega)
  rw [offered, hcount, hhead, valid.availableSize,
    filterMap_congr hslot, filterMap_eq_map']
  apply ext_getElem
  · simp [indices]
  · intro k _ _
    simp [indices]

end Valid

/-! ### What the receive path promises -/

section

variable (p : Profile) (size : QueueSize) (s : Reception) (e : NetEvent)

/-- The payload that a queue of packets hands out next. -/
def Reception.next : List U8 :=
  match s.unread with
  | [] => []
  | packet :: _ => packet.payload

/-- A read returns the packet whose turn it is, and nothing if there is none. -/
def Fifo : Prop :=
  ∀ target, e = .read target → ∃ net target' count,
    s.net.tryRecv p target = .ok (net, target', count) ∧ count = s.next.length ∧
      target'.take count = s.next

/-- Every buffer is offered to the device or holds a packet to be read. -/
def Recycled : Prop :=
  (s.offered ++ s.unread.map Packet.head).Perm (indices size.val)

/-- The checked build executes the call of the step without an overflow. -/
def NoUnderflow : NetEvent → Prop
  | .deliver _ _ => True
  | .read target => s.net.tryRecv .debug target ≠ .error .overflow
  | .poll => s.net.availableForRead .debug ≠ .error .overflow

/-- No read finds a packet. -/
def OnlyIdle : Prop :=
  ∀ target, e = .read target → s.net.recvHead = s.net.rx.used.headIndex

/-- Each read finds at most one packet waiting. -/
def AtMostOne : Prop :=
  ∀ target, e = .read target → s.unread.length ≤ 1

end

section Promises

variable {p : Profile} {size : QueueSize} {phys : Nat → U64} {s s' : Reception} {e : NetEvent}

theorem Valid.noUnderflow (valid : Valid size phys s) (h : step p s e = some s') :
    NoUnderflow s e := by
  cases e with
  | deliver => trivial
  | read target =>
    obtain ⟨long, -⟩ := valid.recv_eq_some h
    show s.net.tryRecv .debug target ≠ _
    by_cases idle : s.net.recvHead = s.net.rx.used.headIndex
    · rw [Valid.tryRecv_idle idle]
      nofun
    · obtain ⟨packet, -, hrecv⟩ := valid.tryRecv_news (p := .debug) idle long
      rw [hrecv]
      nofun
  | poll =>
    have hsub : Profile.debug.sub s.net.rx.used.headIndex s.net.recvHead =
        .ok (s.net.rx.used.headIndex - s.net.recvHead) := by
      refine Profile.sub_eq_ok.mpr ⟨fun hlt => ?_, rfl⟩
      have hle := valid.recvHead
      rw [valid.toNat_usedHead] at hlt
      omega
    simp [NoUnderflow, availableForRead, hsub]

/-- Nothing is offered again, so every packet that counts as read has taken a buffer
away. -/
theorem Valid.recycled_iff (valid : Valid size phys s) : Recycled size s ↔ s.read = 0 := by
  have hbound := valid.bound
  have hread := valid.read
  have hheads : s.unread.map Packet.head = (indices s.delivered.length).drop s.read := by
    rw [unread, map_drop, valid.order]
  rw [Recycled, valid.offered_eq, hheads]
  constructor
  · intro hperm
    have hlen := hperm.length_eq
    simp only [indices, length_append, length_drop, length_map,
      length_range] at hlen
    omega
  · intro hzero
    have htake : (indices size.val).take s.delivered.length = indices s.delivered.length := by
      rw [indices, ← map_take, take_range, min_eq_left hbound, indices]
    rw [hzero, drop_zero, ← htake]
    refine perm_append_comm.trans ?_
    rw [take_append_drop]

/-- The driver's index counts the packets that a queue would have handed out. -/
structure Synced (size : QueueSize) (phys : Nat → U64) (s : Reception) : Prop
    extends Valid size phys s where
  synced : s.net.recvHead.toNat = s.read

namespace Synced

section

variable (sync : Synced size phys s)

include sync

theorem idle_iff : s.net.recvHead = s.net.rx.used.headIndex ↔ s.unread = [] := by
  rw [unread, drop_eq_nil_iff, ← BitVec.toNat_inj, sync.synced,
    sync.toNat_usedHead]
  have hread := sync.read
  omega

theorem keeps (one : AtMostOne s e) (h : step p s e = some s') : Synced size phys s' := by
  refine ⟨sync.toValid.keeps h, ?_⟩
  cases e with
  | deliver =>
    obtain ⟨-, -, -, head, d, -, -, rfl⟩ := deliver_eq_some h
    exact sync.synced
  | read target =>
    obtain ⟨-, rfl⟩ := sync.recv_eq_some h
    have hone := one target rfl
    rw [unread, length_drop] at hone
    show s.net.rx.used.headIndex.toNat = min (s.read + 1) s.delivered.length
    rw [sync.toNat_usedHead]
    omega
  | poll =>
    obtain ⟨-, -, rfl⟩ := map_eq_some_iff.mp h
    exact sync.synced

theorem atMostOne (idle : OnlyIdle s e) : AtMostOne s e := by
  intro target he
  rw [sync.idle_iff.mp (idle target he)]
  exact zero_le _

/-- With at most one packet waiting, a read returns it. -/
theorem fifo (one : AtMostOne s e) (h : step p s e = some s') : Fifo p s e := by
  rintro target rfl
  obtain ⟨long, -⟩ := sync.recv_eq_some h
  by_cases idle : s.net.recvHead = s.net.rx.used.headIndex
  · refine ⟨_, _, _, Valid.tryRecv_idle idle target, ?_⟩
    rw [Reception.next, sync.idle_iff.mp idle]
    exact ⟨rfl, rfl⟩
  · obtain ⟨packet, hlast, hrecv⟩ := sync.tryRecv_news (p := p) idle long
    have hne : s.unread ≠ [] := fun hnil => idle (sync.idle_iff.mpr hnil)
    have hpos := length_pos_iff.mpr hne
    obtain ⟨first, hunread⟩ := length_eq_one_iff.mp (le_antisymm (one target rfl) hpos)
    have hsame : s.unread.getLast? = s.delivered.getLast? := by
      rw [unread, getLast?_drop, if_neg]
      intro hle
      exact hne (drop_eq_nil_iff.mpr hle)
    obtain rfl : first = packet := by
      rw [hunread, hlast] at hsame
      exact some.inj hsame
    refine ⟨_, _, _, hrecv, ?_⟩
    rw [Reception.next, hunread]
    exact ⟨rfl, take_left⟩

end

end Synced

/-- No packet has been read. -/
structure Untouched (size : QueueSize) (phys : Nat → U64) (s : Reception) : Prop
    extends Synced size phys s where
  untouched : s.read = 0

namespace Untouched

/-- The first read that finds a packet keeps its buffer from the device. -/
theorem recycled_iff (un : Untouched size phys s) (h : step p s e = some s') :
    Recycled size s' ↔ OnlyIdle s e := by
  rw [(un.toValid.keeps h).recycled_iff]
  cases e with
  | deliver =>
    obtain ⟨-, -, -, head, d, -, -, rfl⟩ := deliver_eq_some h
    exact ⟨fun _ => nofun, fun _ => un.untouched⟩
  | read target =>
    obtain ⟨-, rfl⟩ := un.recv_eq_some h
    have hidle : OnlyIdle s (.read target) ↔ s.unread = [] := by
      rw [← un.idle_iff]
      exact ⟨fun idle => idle target rfl, fun idle _ _ => idle⟩
    rw [hidle, unread, drop_eq_nil_iff]
    have hzero := un.untouched
    show min (s.read + 1) s.delivered.length = 0 ↔ _
    omega
  | poll =>
    obtain ⟨-, -, rfl⟩ := map_eq_some_iff.mp h
    exact ⟨fun _ => nofun, fun _ => un.untouched⟩

theorem keeps (un : Untouched size phys s) (idle : OnlyIdle s e) (h : step p s e = some s') :
    Untouched size phys s' := by
  have sync' := un.toSynced.keeps (un.atMostOne idle) h
  exact ⟨sync', sync'.toValid.recycled_iff.mp ((un.recycled_iff h).mpr idle)⟩

end Untouched

end Promises

/-- **The receive path works exactly as long as nothing is received.** In every run of
deliveries, reads and polls, in either profile: the reads return the delivered
packets in order, every buffer is offered again once its packet is read, and no index
arithmetic underflows, all along the run, if and only if no read finds a packet. The
order alone is kept if each read finds at most one packet waiting; the index
arithmetic never underflows; and the device can deliver no more packets than the
queue has descriptors. -/
theorem receive_iff_onlyIdle (p : Profile) (size : QueueSize) (phys : Nat → U64) (q : Queue)
    (net : VirtioNet) (hq : Queue.setup size.val = .ok q) (hnet : VirtioNet.new p phys q = .ok net)
    (es : List NetEvent) (s : Reception) (h : run (step p) (.start net) es = some s) :
    (Along (step p) (.start net) (Fifo p) es ∧
        Throughout (step p) (.start net) (Recycled size) es ∧
        Along (step p) (.start net) NoUnderflow es ↔
      Along (step p) (.start net) OnlyIdle es) ∧
    (Along (step p) (.start net) AtMostOne es → Along (step p) (.start net) (Fifo p) es) ∧
    Along (step p) (.start net) NoUnderflow es ∧
    s.delivered.length ≤ size.val := by
  have fresh : q.Fresh size := .of_setup hq
  obtain ⟨rx, rxBuffers, hrun, pop⟩ := Populated.of_rounds (p := p) phys fresh (le_refl _)
  rw [VirtioNet.new, fresh.descriptor, hrun] at hnet
  have hnet : ⟨rx, rxBuffers, 0⟩ = net := Except.ok.inj hnet
  have valid : Valid size phys (.start net) := hnet ▸ .start pop rfl
  have sync : Synced size phys (.start net) := ⟨valid, by simp [start, ← hnet]⟩
  have un : Untouched size phys (.start net) := ⟨sync, rfl⟩
  have underflow : Along (step p) (.start net) NoUnderflow es :=
    along_of_along (P := fun _ _ => True) valid (fun _ _ _ valid _ hstep => valid.keeps hstep)
      (fun _ _ _ valid _ hstep => valid.noUnderflow hstep) h fun _ _ _ _ _ _ => trivial
  have recycled : Throughout (step p) (.start net) (Recycled size) es ↔
      Along (step p) (.start net) OnlyIdle es :=
    throughout_iff_along un (valid.recycled_iff.mpr rfl)
      (fun _ _ _ un idle hstep => un.keeps idle hstep)
      (fun _ _ _ un hstep => un.recycled_iff hstep) h
  refine ⟨⟨fun promises => recycled.mp promises.2.1, fun idle => ⟨?_, recycled.mpr idle, underflow⟩⟩,
    ?_, underflow, (invariant_of_run valid (fun _ _ _ valid hstep => valid.keeps hstep) h).bound⟩
  · exact along_of_along un (fun _ _ _ un idle hstep => un.keeps idle hstep)
      (fun _ _ _ un idle hstep => un.toSynced.fifo (un.atMostOne idle) hstep) h idle
  · exact along_of_along sync (fun _ _ _ sync one hstep => sync.keeps one hstep)
      (fun _ _ _ sync one hstep => sync.fifo one hstep) h

/-- Buffer `i` lies at `65536 * (i + 1)`. -/
def spaced (i : Nat) : U64 := ofNat 64 (65536 * (i + 1))

/-- A header of twelve zero bytes. -/
def zeroHeader : List U8 := List.replicate headerSize 0

theorem receive_iff_onlyIdle_two_packets : ∃ q net s, Queue.setup 2 = .ok q ∧
    new .debug spaced q = .ok net ∧
    run (step .debug) (.start net)
      [.read [0, 0], .deliver zeroHeader [1, 2], .poll, .deliver zeroHeader [3]] = some s ∧
    Along (step .debug) (.start net) NoUnderflow
      [.read [0, 0], .deliver zeroHeader [1, 2], .poll, .deliver zeroHeader [3]] := by
  have along := fun q net s hq hnet h =>
    (receive_iff_onlyIdle .debug ⟨2, 1, by decide, rfl⟩ spaced q net hq hnet
      [.read [0, 0], .deliver zeroHeader [1, 2], .poll, .deliver zeroHeader [3]] s h).2.2.1
  exact ⟨_, _, _, rfl, rfl, rfl, along _ _ _ rfl rfl rfl⟩

/-- Two packets are delivered before the first read, which returns the second; the next
read returns nothing although the first packet has not been returned, and the device
has no buffer left. -/
theorem first_of_two_packets_lost : ∃ q net s s', Queue.setup 2 = .ok q ∧
    new .release spaced q = .ok net ∧
    run (step .release) (.start net) [.deliver zeroHeader [1], .deliver zeroHeader [2]] = some s ∧
    s.next = [1] ∧
    (s.net.tryRecv .release [0]).map (fun r => (r.2.1, r.2.2)) = .ok ([2], 1) ∧
    step .release s (.read [0]) = some s' ∧
    s'.next = [2] ∧
    (s'.net.tryRecv .release [0]).map (fun r => (r.2.1, r.2.2)) = .ok ([0], 0) ∧
    s'.offered = [] ∧ s'.deliver zeroHeader [3] = none :=
  ⟨_, _, _, _, rfl, rfl, rfl, rfl, rfl, rfl, rfl, rfl, rfl, rfl⟩

end RedoxDrivers.Virtio.Net
