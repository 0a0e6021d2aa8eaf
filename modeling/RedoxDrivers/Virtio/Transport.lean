import RedoxDrivers.Virtio.SplitVirtqueue

/-!
The driver's half of a split virtqueue (`virtio-core/src/transport.rs`): `Queue`
with `send` and `reinit`, and the poll of the future that `send` returns.

The descriptor table, the two rings and the stack of free descriptors are lists.
`crossbeam_queue::SegQueue` is first in, first out whatever its field is called, so
the stack is popped at the front and pushed at the back. The notification bell and
the interrupt vector are left out: no function here reads them back.

* `send_eq_ok` says all a finished `send` did: it popped one descriptor for each
  buffer, made a chain of them, touched no other descriptor, and stored the head
  of the chain in the available ring.
* `poll_eq_ok` says all a finished poll did, in its three cases.
* `walk_linked`: following `next` from the head of a chain ends and yields the
  chain.
-/

namespace RedoxDrivers.Virtio

open Lib List Option Nat

/-- A queue size the transport accepts: `queue_part_sizes` asserts a power of two,
and the device's size register has 16 bits. -/
structure QueueSize where
  val : Nat
  isPow : ∃ k ≤ 15, val = 2 ^ k

namespace QueueSize

variable (size : QueueSize)

theorem pos : 0 < size.val := by
  obtain ⟨k, -, h⟩ := size.isPow
  rw [h]
  exact Nat.two_pow_pos k

theorem dvd : size.val ∣ 65536 := by
  obtain ⟨k, hk, h⟩ := size.isPow
  rw [h]
  exact Nat.pow_dvd_pow 2 (show k ≤ 16 by omega)

theorem le : size.val ≤ 32768 := by
  obtain ⟨k, hk, h⟩ := size.isPow
  rw [h]
  exact Nat.pow_le_pow_right (by decide) hk

end QueueSize

/-! ### The rings -/

/-- The available ring: the heads of the chains offered to the device. -/
structure Available where
  queueSize : Nat
  headIndex : U16
  elements : List U16
deriving DecidableEq, Repr

namespace Available

/-- `get_element_at(index).set_table_index(value)`. -/
def setElementAt (self : Available) (index : Nat) (value : U16) : Except Fault Available :=
  if index % self.queueSize < self.elements.length then
    .ok { self with elements := self.elements.set (index % self.queueSize) value }
  else .error .unwrapNone

def setHeadIdx (self : Available) (index : U16) : Available := { self with headIndex := index }

/-- Every element of the zeroed ring memory is set to `u16::MAX`. -/
def fromRaw (mem : List U16) (queueSize : Nat) : Except Fault Available :=
  (List.range queueSize).foldlM (fun ring i => ring.setElementAt i 0xFFFF) ⟨queueSize, 0, mem⟩

def new (queueSize : Nat) : Except Fault Available := fromRaw (List.replicate queueSize 0) queueSize

end Available

open Available

/-- The used ring: the chains the device has finished with. -/
structure Used where
  queueSize : Nat
  headIndex : U16
  elements : List UsedRingElement
deriving DecidableEq, Repr

namespace Used

def getElementAt (self : Used) (index : Nat) : Except Fault UsedRingElement :=
  unwrap self.elements[index % self.queueSize]?

/-- `get_mut_element_at(index).table_index.set(value)`. The source reduces the
index modulo 256 here, not modulo the queue size. -/
def setTableIndexAt (self : Used) (index : Nat) (value : U32) : Except Fault Used :=
  if index % 256 < self.elements.length then
    .ok { self with elements := self.elements.modify (index % 256) ({ · with tableIndex := value }) }
  else .error .unwrapNone

/-- Sets the elements of the zeroed ring memory to `u32::MAX`. -/
def fromRaw (mem : List UsedRingElement) (queueSize : Nat) : Except Fault Used :=
  (List.range queueSize).foldlM (fun ring i => ring.setTableIndexAt i 0xFFFFFFFF)
    ⟨queueSize, 0, mem⟩

def new (queueSize : Nat) : Except Fault Used := fromRaw (List.replicate queueSize ⟨0, 0⟩) queueSize

end Used

/-! ### The queue -/

/-- A task's waker, by identity. -/
abbrev Waker := Nat

structure Queue where
  waker : List (U32 × Waker)
  used : Used
  descriptor : List Descriptor
  available : Available
  usedHead : U16
  descriptorStack : List U16
deriving DecidableEq, Repr

/-- The future returned by `send`. -/
structure PendingRequest where
  firstDescriptor : U32
deriving DecidableEq, Repr

/-- The indices of a table of `len` descriptors, in order. -/
def indices (len : Nat) : List U16 := (List.range len).map (BitVec.ofNat 16)

namespace Queue

def new (descriptor : List Descriptor) (available : Available) (used : Used) : Queue :=
  { waker := [], used, descriptor, available, usedHead := 0,
    descriptorStack := indices descriptor.length }

/-- The queue that `setup_queue` hands out for a device queue of `queueSize` entries. -/
def setup (queueSize : Nat) : Except Fault Queue := do
  let available ← Available.new queueSize
  let used ← Used.new queueSize
  return new (List.replicate queueSize .zeroed) available used

/-- Drains the stack and refills it. The used ring is the device's and is not
written. -/
def reinit (self : Queue) : Queue :=
  { self with
    usedHead := 0
    available := self.available.setHeadIdx 0
    descriptorStack := indices self.descriptor.length }

/-- `descriptor_stack.pop()`. -/
def pop : List U16 → Option (U16 × List U16)
  | [] => none
  | i :: rest => some (i, rest)

/-- The stores into the descriptor of one buffer. -/
def store (buffer : Buffer) (d : Descriptor) : Descriptor :=
  ((d.setAddr buffer.buffer).setFlags buffer.flags).setSize (buffer.size.setWidth 32)

/-- `if let Some(index) = last_descriptor` of the loop of `send`: the chain so far
continues with `descriptor`. -/
def setNextOf (table : List Descriptor) (last : Option Nat) (descriptor : Nat) :
    Except Fault (List Descriptor) :=
  match last with
  | some index => modifyAt table index (·.setNext (some (BitVec.ofNat 16 descriptor)))
  | none => .ok table

/-- The loop of `send` over the buffers of the chain. -/
def sendLoop (self : Queue) (first last : Option Nat) :
    List Buffer → Except Fault (Queue × Option Nat × Option Nat)
  | [] => .ok (self, first, last)
  | buffer :: rest => do
    let (index, stack) ← unwrap (pop self.descriptorStack)
    let descriptor := index.toNat
    let first := if first.isNone then some descriptor else first
    let table ← modifyAt self.descriptor descriptor (store buffer)
    let table ← setNextOf table last descriptor
    sendLoop { self with descriptor := table, descriptorStack := stack } first
      (some descriptor) rest

def send (p : Profile) (self : Queue) (chain : List Buffer) :
    Except Fault (Queue × PendingRequest) := do
  let (self, first, last) ← sendLoop self none none chain
  let lastDescriptor ← unwrap last
  let firstDescriptor ← unwrap first
  let table ← modifyAt self.descriptor lastDescriptor (·.setNext none)
  let index := self.available.headIndex.toNat
  let available ← self.available.setElementAt index (BitVec.ofNat 16 firstDescriptor)
  let head ← p.add (BitVec.ofNat 16 index) 1
  return ({ self with descriptor := table, available := available.setHeadIdx head },
    ⟨BitVec.ofNat 32 firstDescriptor⟩)

/-- The indices that the recycling loop of `poll` pushes, from `tableIndex` on.
The loop does not write the table, so a walk longer than the table has come back
to a descriptor it has seen and never ends. -/
def walk (table : List Descriptor) : Nat → U32 → Except Fault (List U16)
  | 0, _ => .error .diverges
  | fuel + 1, tableIndex => do
    let d ← index table tableIndex.toNat
    if d.hasNext then
      let pushed ← walk table fuel (d.next.setWidth 32)
      return tableIndex.setWidth 16 :: pushed
    else return [tableIndex.setWidth 16]

def insertWaker (self : Queue) (key : U32) (waker : Waker) : Queue :=
  { self with waker := (key, waker) :: self.waker.filter (·.1 ≠ key) }

def removeWaker (self : Queue) (key : U32) : Queue :=
  { self with waker := self.waker.filter (·.1 ≠ key) }

end Queue

open Queue

/-- `std::task::Poll<u32>`. -/
inductive Poll where
  | pending
  | ready (written : U32)
deriving DecidableEq, Repr

/-- `PendingRequest::poll`. -/
def PendingRequest.poll (p : Profile) (queue : Queue) (self : PendingRequest) (waker : Waker) :
    Except Fault (Queue × Poll) := do
  let queue := queue.insertWaker self.firstDescriptor waker
  let usedHead := queue.used.headIndex
  if usedHead = queue.usedHead then
    -- No new requests have been completed.
    return (queue, .pending)
  else
    let newest ← p.sub usedHead 1
    let usedElement ← queue.used.getElementAt newest.toNat
    if usedElement.tableIndex = self.firstDescriptor then
      let pushed ← walk queue.descriptor queue.descriptor.length usedElement.tableIndex
      let queue := { queue with descriptorStack := queue.descriptorStack ++ pushed }
      let queue := queue.removeWaker self.firstDescriptor
      return ({ queue with usedHead }, .ready usedElement.written)
    else return (queue, .pending)

/-! ### A fresh queue -/

/-- A loop of writes that each keep `P` keeps it and cannot fail. -/
theorem foldlM_keeps {α β : Type} {P : β → Prop} {f : β → α → Except Fault β} (l : List α)
    (keep : ∀ b, ∀ a ∈ l, P b → ∃ b', f b a = .ok b' ∧ P b') (b : β) (hb : P b) :
    ∃ b', l.foldlM f b = .ok b' ∧ P b' := by
  induction l generalizing b with
  | nil => exact ⟨b, rfl, hb⟩
  | cons a rest ih =>
    obtain ⟨b', hstep, hb'⟩ := keep b a mem_cons_self hb
    obtain ⟨b'', hrest, hb''⟩ :=
      ih (fun c x hx => keep c x (mem_cons_of_mem _ hx)) b' hb'
    exact ⟨b'', by rw [foldlM_cons, hstep]; exact hrest, hb''⟩

theorem Available.new_spec (size : QueueSize) : ∃ available, new size.val = .ok available ∧
    available.queueSize = size.val ∧ available.headIndex = 0 ∧
    available.elements.length = size.val := by
  refine foldlM_keeps (P := fun a : Available =>
    a.queueSize = size.val ∧ a.headIndex = 0 ∧ a.elements.length = size.val) _ ?_ _ ⟨rfl, rfl, ?_⟩
  · rintro a i - ⟨hsize, hhead, hlen⟩
    have hlt : i % a.queueSize < a.elements.length := by
      rw [hlen, hsize]
      exact mod_lt _ size.pos
    refine ⟨_, if_pos hlt, hsize, hhead, ?_⟩
    rw [length_set]
    exact hlen
  · exact length_replicate

namespace Used

/-- A ring in memory of the right size. -/
structure OfSize (size : QueueSize) (used : Used) : Prop where
  queueSize : used.queueSize = size.val
  length : used.elements.length = size.val

theorem setTableIndexAt_of_lt {used : Used} {i : Nat} (h : i % 256 < used.elements.length)
    (value : U32) : used.setTableIndexAt i value = .ok { used with
      elements := used.elements.modify (i % 256) ({ · with tableIndex := value }) } :=
  if_pos h

variable {size : QueueSize}

/-- Only the first 256 elements are set, however many rounds the loop makes. -/
theorem fromRaw_rounds {mem : List UsedRingElement} (hmem : mem.length = size.val) {n : Nat}
    (hn : n ≤ size.val) : ∃ used : Used,
      (range n).foldlM (fun ring i => ring.setTableIndexAt i 0xFFFFFFFF) (⟨size.val, 0, mem⟩ : Used) =
        .ok used ∧ used.headIndex = 0 ∧ used.OfSize size ∧ ∀ i, used.elements[i]? = mem[i]?.map fun e =>
          if i < min n 256 then { e with tableIndex := 0xFFFFFFFF } else e := by
  induction n with
  | zero => exact ⟨_, rfl, rfl, ⟨rfl, hmem⟩, fun i => by simp⟩
  | succ n ih =>
    obtain ⟨used, hused, hhead, ofSize, hset⟩ := ih (by omega)
    have hlt : n % 256 < used.elements.length := by
      rw [ofSize.length]
      exact Nat.lt_of_le_of_lt (Nat.mod_le n 256) hn
    rw [range_succ, foldlM_append, hused, ok_bind, foldlM_cons, setTableIndexAt_of_lt hlt]
    refine ⟨_, rfl, hhead, ⟨ofSize.queueSize, (length_modify ..).trans ofSize.length⟩, fun i => ?_⟩
    refine (getElem?_modify ..).trans ?_
    rw [hset i]
    cases mem[i]? with
    | none => rfl
    | some e =>
      refine congrArg some ?_
      beta_reduce
      by_cases hi : n % 256 = i
      · rw [if_pos hi, if_pos (by omega : i < min (n + 1) 256)]
        split <;> rfl
      · rw [if_neg hi]
        exact if_congr (by omega) rfl rfl

theorem new_spec (size : QueueSize) : ∃ used, Used.new size.val = .ok used ∧
    used.queueSize = size.val ∧ used.headIndex = 0 ∧ used.elements.length = size.val := by
  obtain ⟨used, hused, hhead, ofSize, -⟩ := fromRaw_rounds length_replicate (Nat.le_refl size.val)
  exact ⟨used, hused, ofSize.queueSize, hhead, ofSize.length⟩

/-- `from_raw` sets every element. -/
def Fills (size : QueueSize) : Prop :=
  ∀ mem : List UsedRingElement, mem.length = size.val → ∃ used, fromRaw mem size.val = .ok used ∧
    used.OfSize size ∧ ∀ e ∈ used.elements, e.tableIndex = 0xFFFFFFFF

/-- Either accessor takes the element at the index modulo the queue size. -/
def Accesses (size : QueueSize) : Prop :=
  ∀ used : Used, used.OfSize size → ∀ i,
    (∃ e, used.elements[i % size.val]? = some e ∧ used.getElementAt i = .ok e) ∧
    ∀ value, used.setTableIndexAt i value = .ok { used with
      elements := used.elements.modify (i % size.val) ({ · with tableIndex := value }) }

theorem fills_iff : Fills size ↔ size.val ≤ 256 := by
  constructor
  · intro fills
    by_contra hgt
    have hmem : (replicate size.val (⟨0, 0⟩ : UsedRingElement)).length = size.val := length_replicate
    obtain ⟨used, hused, -, -, hset⟩ := fromRaw_rounds hmem (Nat.le_refl _)
    obtain ⟨used', hused', -, hfilled⟩ := fills _ hmem
    cases hused.symm.trans hused'
    have hget : used.elements[256]? = some ⟨0, 0⟩ := by
      rw [hset, List.getElem?_replicate, if_pos (by omega), map_some, if_neg (by omega)]
    exact absurd (hfilled _ (mem_of_getElem? hget)) (by decide)
  · intro hle mem hmem
    obtain ⟨used, hused, -, ofSize, hset⟩ := fromRaw_rounds hmem (Nat.le_refl _)
    refine ⟨used, hused, ofSize, fun e he => ?_⟩
    obtain ⟨i, hi, hget⟩ := getElem_of_mem he
    have he' := (hset i).symm.trans (List.getElem?_eq_some_iff.mpr ⟨hi, hget⟩)
    obtain ⟨old, -, rfl⟩ := map_eq_some_iff.mp he'
    rw [ofSize.length] at hi
    rw [if_pos (by omega)]

theorem eq_of_accesses (h : Accesses size) : size.val = 256 := by
  have hring : OfSize size ⟨size.val, 0, replicate size.val ⟨0, 0⟩⟩ := ⟨rfl, length_replicate⟩
  rcases Nat.lt_trichotomy size.val 256 with hlt | heq | hgt
  · -- The element behind the last one is asked for.
    have hset := (h _ hring size.val).2 1
    rw [setTableIndexAt, if_neg (by simp [mod_eq_of_lt hlt])] at hset
    cases hset
  · exact heq
  · -- The element 256 is taken for the first one.
    have hset := (h _ hring 256).2 1
    rw [setTableIndexAt_of_lt (by rw [length_replicate]; omega)] at hset
    have hfirst := congrArg (·.elements[0]?) (Except.ok.inj hset)
    simp [mod_eq_of_lt hgt, size.pos] at hfirst

theorem accesses_of_eq (h : size.val = 256) : Accesses size := by
  intro used ofSize i
  have hlt : i % size.val < used.elements.length := by
    rw [ofSize.length]
    exact mod_lt i size.pos
  have hget := getElem?_eq_getElem hlt
  refine ⟨⟨_, hget, ?_⟩, fun value => ?_⟩
  · rw [getElementAt, ofSize.queueSize, hget]
    rfl
  · rw [h] at hlt ⊢
    exact setTableIndexAt_of_lt hlt value

/-- **The used ring.** A new ring is filled exactly if it has at most 256 elements, and the two
accessors agree exactly if it has 256. -/
theorem fills_and_accesses_iff (size : QueueSize) :
    (Fills size ↔ size.val ≤ 256) ∧ (Accesses size ↔ size.val = 256) :=
  ⟨fills_iff, eq_of_accesses, accesses_of_eq⟩

theorem not_fills_512 : ¬ Fills ⟨512, 9, by decide⟩ ∧ ¬ Accesses ⟨512, 9, by decide⟩ :=
  ⟨fun h => absurd (fills_iff.mp h) (by decide), fun h => absurd (eq_of_accesses h) (by decide)⟩

end Used

/-- What `setup_queue` guarantees of a fresh queue. -/
structure Queue.Fresh (size : QueueSize) (q : Queue) : Prop where
  descriptor : q.descriptor.length = size.val
  availableSize : q.available.queueSize = size.val
  availableLength : q.available.elements.length = size.val
  availableHead : q.available.headIndex = 0
  usedSize : q.used.queueSize = size.val
  usedLength : q.used.elements.length = size.val
  usedRingHead : q.used.headIndex = 0
  usedHead : q.usedHead = 0
  stack : q.descriptorStack = indices size.val

theorem Queue.setup_spec (size : QueueSize) : ∃ q, setup size.val = .ok q ∧ q.Fresh size := by
  obtain ⟨available, hnewA, hsizeA, hheadA, hlenA⟩ := Available.new_spec size
  obtain ⟨used, hnewU, hsizeU, hheadU, hlenU⟩ := Used.new_spec size
  refine ⟨new (replicate size.val .zeroed) available used, ?_, ?_⟩
  · simp [setup, hnewA, hnewU]
  · constructor <;> simp [new, *]

theorem Queue.Fresh.of_setup {size : QueueSize} {q : Queue} (h : setup size.val = .ok q) :
    q.Fresh size := by
  obtain ⟨q', hq', fresh⟩ := setup_spec size
  cases h.symm.trans hq'
  exact fresh

/-! ### What a finished `send` did -/

namespace Queue

/-- The descriptor table after the loop of `send` has put `buffers` into the
descriptors `popped`, behind the descriptor `last` of the chain so far. -/
def fill (table : List Descriptor) (last : Option Nat) : List U16 → List Buffer → List Descriptor
  | i :: popped, buffer :: buffers =>
    let table := table.modify i.toNat (store buffer)
    let table := match last with
      | some l => table.modify l (·.setNext (some i))
      | none => table
    fill table (some i.toNat) popped buffers
  | _, _ => table

theorem fill_length (table : List Descriptor) (last : Option Nat) (popped : List U16)
    (buffers : List Buffer) : (fill table last popped buffers).length = table.length := by
  induction popped generalizing table last buffers with
  | nil => simp [fill]
  | cons i popped ih =>
    cases buffers with
    | nil => simp [fill]
    | cons =>
      cases last with
      | none | some => simp [fill, ih]

/-- The loop writes no descriptor besides those it popped and the one it
continues. -/
theorem fill_frame (table : List Descriptor) (last : Option Nat) (popped : List U16)
    (buffers : List Buffer) {k : Nat} (hk : ∀ i ∈ popped, i.toNat ≠ k) (hlast : last ≠ some k) :
    (fill table last popped buffers)[k]? = table[k]? := by
  induction popped generalizing table last buffers with
  | nil => simp [fill]
  | cons i popped ih =>
    cases buffers with
    | nil => simp [fill]
    | cons =>
      have hi : i.toNat ≠ k := hk i mem_cons_self
      have hrest := fun j hj => hk j (mem_cons_of_mem _ hj)
      cases last with
      | none =>
        simp only [fill]
        rw [ih _ _ _ hrest (by simpa using hi), getElem?_modify_ne _ _ hi]
      | some l =>
        have hl : l ≠ k := by simpa using hlast
        simp only [fill]
        rw [ih _ _ _ hrest (by simpa using hi), getElem?_modify_ne _ _ hl,
          getElem?_modify_ne _ _ hi]

variable {buffers chain : List Buffer} {q q' : Queue} {p : Profile}

/-- Continuing the chain that ends in `l` with the descriptors `popped`, and
clearing the `next` of the new last one, makes `l :: popped` a chain. -/
theorem linked_fill {table : List Descriptor} {l : U16} {d : Descriptor} {b : Buffer}
    {popped : List U16} (hl : table[l.toNat]? = some d) (hd : d.hasNext = b.hasNext)
    (terminated : Terminated (b :: buffers)) (len : popped.length = buffers.length)
    (nodup : (l :: popped).Nodup) (bound : ∀ i ∈ popped, i.toNat < table.length) :
    Linked ((fill table (some l.toNat) popped buffers).modify
      ((l :: popped).getLast (by simp)).toNat (·.setNext none)) (l :: popped) := by
  induction buffers generalizing table l d b popped with
  | nil =>
    obtain rfl : popped = [] := length_eq_zero_iff.mp len
    refine ⟨d.setNext none, ?_, ?_⟩
    · simp [fill, hl]
    · rw [Descriptor.setNext_hasNext, hd]
      exact terminated
  | cons c buffers ih =>
    cases popped with
    | nil => simp at len
    | cons i popped =>
      obtain ⟨hb, hrest⟩ : b.hasNext = true ∧ Terminated (c :: buffers) := terminated
      have hli : l ≠ i := fun h => by simp [h] at nodup
      have hne : l.toNat ≠ i.toNat := fun h => hli (BitVec.eq_of_toNat_eq h)
      obtain ⟨di, hdi⟩ : ∃ di, table[i.toNat]? = some di :=
        ⟨_, getElem?_eq_getElem (bound i mem_cons_self)⟩
      let table' := (table.modify i.toNat (store c)).modify l.toNat (·.setNext (some i))
      have hi' : table'[i.toNat]? = some (store c di) := by
        rw [getElem?_modify_ne _ _ hne, getElem?_modify_eq, hdi]
        rfl
      have hl' : table'[l.toNat]? = some (d.setNext (some i)) := by
        rw [getElem?_modify_eq, getElem?_modify_ne _ _ (Ne.symm hne), hl]
        rfl
      have chain := ih hi' rfl hrest (by simpa using len) (nodup_cons.mp nodup).2
        fun j hj => by
          simpa [table'] using bound j (mem_cons_of_mem _ hj)
      have hfar : ∀ j ∈ i :: popped, j.toNat ≠ l.toNat := fun j hj h =>
        (nodup_cons.mp nodup).1 (BitVec.eq_of_toNat_eq h ▸ hj)
      refine ⟨⟨d.setNext (some i), ?_, ?_, rfl⟩, ?_⟩
      · rw [getElem?_modify_ne _ _ (hfar _ (by simp [getLast_cons])), fill]
        rw [fill_frame _ _ _ _ (fun j hj => hfar j (mem_cons_of_mem _ hj))
          (by simpa using Ne.symm hne)]
        exact hl'
      · rw [Descriptor.setNext_hasNext, hd, hb]
      · exact chain

/-- The loop of `send` pops one descriptor for each buffer and fills it. -/
theorem sendLoop_eq_ok {first last f l : Option Nat}
    (h : sendLoop q first last buffers = .ok (q', f, l)) :
    ∃ popped rest, q.descriptorStack = popped ++ rest ∧ popped.length = buffers.length ∧
      q' = { q with descriptor := fill q.descriptor last popped buffers, descriptorStack := rest } ∧
      f = first.or (popped.head?.map BitVec.toNat) ∧
      l = (popped.getLast?.map BitVec.toNat).or last := by
  induction buffers generalizing q first last with
  | nil =>
    obtain ⟨rfl, rfl, rfl⟩ : q = q' ∧ first = f ∧ last = l := by
      simpa [sendLoop] using h
    exact ⟨[], q.descriptorStack, rfl, rfl, by simp [fill], by simp, by simp⟩
  | cons b buffers ih =>
    obtain ⟨⟨i, stack⟩, hpop, h⟩ := bind_eq_ok.mp h
    obtain ⟨table, hstore, h⟩ := bind_eq_ok.mp h
    obtain ⟨table', hlink, h⟩ := bind_eq_ok.mp h
    obtain ⟨popped, rest, hstack, hlen, rfl, rfl, rfl⟩ := ih h
    have hq : q.descriptorStack = i :: stack := by
      cases hs : q.descriptorStack with
      | nil => simp [hs, pop] at hpop
      | cons =>
        simp only [hs, pop, unwrap_eq_ok, some.injEq, Prod.mk.injEq] at hpop
        rw [hpop.1, hpop.2]
    obtain ⟨-, rfl⟩ := modifyAt_eq_ok.mp hstore
    refine ⟨i :: popped, rest, ?_, by simp [hlen], ?_, ?_, ?_⟩
    · simpa [hq] using hstack
    · cases last with
      | none =>
        cases hlink
        rfl
      | some =>
        obtain ⟨-, rfl⟩ := modifyAt_eq_ok.mp hlink
        simp [fill]
    · cases first with
      | none | some => simp
    · cases popped with
      | nil => simp
      | cons j js =>
        cases hlast : (j :: js).getLast? with
        | none => simp at hlast
        | some => simp [getLast?_cons_cons, hlast]

/-- **What a finished `send` did.** It popped one descriptor for each buffer, made
a chain of them and wrote no other descriptor; the head of the chain went to the
element at the available index, which was advanced. -/
theorem send_eq_ok {r : PendingRequest} (h : send p q chain = .ok (q', r))
    (terminated : Terminated chain) (nodup : q.descriptorStack.Nodup)
    (bound : ∀ i ∈ q.descriptorStack, i.toNat < q.descriptor.length) :
    ∃ head popped rest, q.descriptorStack = (head :: popped) ++ rest ∧
      (head :: popped).length = chain.length ∧
      r.firstDescriptor = head.setWidth 32 ∧
      Linked q'.descriptor (head :: popped) ∧
      (∀ k, (∀ i ∈ head :: popped, i.toNat ≠ k) → q'.descriptor[k]? = q.descriptor[k]?) ∧
      q'.descriptor.length = q.descriptor.length ∧
      q'.descriptorStack = rest ∧
      ¬ (p = .debug ∧ q.available.headIndex.toNat = 65535) ∧
      q'.available = { q.available with
        headIndex := q.available.headIndex + 1
        elements := q.available.elements.set
          (q.available.headIndex.toNat % q.available.queueSize) head } ∧
      q'.used = q.used ∧ q'.usedHead = q.usedHead ∧ q'.waker = q.waker := by
  obtain ⟨⟨q₁, first, last⟩, hloop, h⟩ := bind_eq_ok.mp h
  obtain ⟨lastDescriptor, hlast, h⟩ := bind_eq_ok.mp h
  obtain ⟨firstDescriptor, hfirst, h⟩ := bind_eq_ok.mp h
  obtain ⟨table, htable, h⟩ := bind_eq_ok.mp h
  obtain ⟨available, havailable, h⟩ := bind_eq_ok.mp h
  obtain ⟨index, hindex, h⟩ := bind_eq_ok.mp h
  obtain ⟨popped, rest, hstack, hlen, rfl, rfl, rfl⟩ := sendLoop_eq_ok hloop
  cases popped with
  | nil => simp at hfirst
  | cons head popped =>
    cases chain with
    | nil => simp at hlen
    | cons b =>
      obtain rfl : head.toNat = firstDescriptor := by simpa using hfirst
      obtain rfl : ((head :: popped).getLast (by simp)).toNat = lastDescriptor := by
        simpa [getLast?_eq_some_getLast] using hlast
      obtain ⟨-, rfl⟩ := modifyAt_eq_ok.mp htable
      obtain ⟨hoverflow, rfl⟩ := Profile.add_eq_ok.mp hindex
      have hsub : ∀ i ∈ head :: popped, i ∈ q.descriptorStack := fun i hi => by
        rw [hstack]
        exact mem_append_left _ hi
      have hnodup : (head :: popped).Nodup :=
        (nodup_append.mp (hstack ▸ nodup)).1
      obtain ⟨d, hd⟩ : ∃ d, q.descriptor[head.toNat]? = some d :=
        ⟨_, getElem?_eq_getElem (bound head (hsub head mem_cons_self))⟩
      have hd' : (q.descriptor.modify head.toNat (store b))[head.toNat]? = some (store b d) := by
        rw [getElem?_modify_eq, hd]
        rfl
      have chain := linked_fill hd' rfl terminated (by simpa using hlen) hnodup fun i hi => by
        simpa using bound i (hsub i (mem_cons_of_mem _ hi))
      refine ⟨head, popped, rest, hstack, hlen, ?_⟩
      unfold setElementAt at havailable
      split at havailable
      · cases havailable
        cases h
        refine ⟨?_, chain, ?_, ?_, rfl, ?_, ?_, rfl, rfl, rfl⟩
        · exact BitVec.eq_of_toNat_eq (by simp)
        · intro k hk
          rw [getElem?_modify_ne _ _ (hk _ (getLast_mem _)),
            fill_frame _ _ _ _ hk (by simp)]
        · simp [fill_length]
        · rintro ⟨hp, hmax⟩
          exact hoverflow ⟨hp, by simp [hmax]⟩
        · simp [setHeadIdx]
      · cases havailable

/-! ### When `send` finishes -/

theorem sendLoop_total {first last : Option Nat} (len : buffers.length ≤ q.descriptorStack.length)
    (bound : ∀ i ∈ q.descriptorStack, i.toNat < q.descriptor.length)
    (hlast : ∀ l, last = some l → l < q.descriptor.length) :
    ∃ res, sendLoop q first last buffers = .ok res := by
  induction buffers generalizing q first last with
  | nil => exact ⟨_, rfl⟩
  | cons b buffers ih =>
    cases hstack : q.descriptorStack with
    | nil => simp [hstack] at len
    | cons i =>
      rw [hstack] at len bound
      have hi := bound i mem_cons_self
      have hstore : modifyAt q.descriptor i.toNat (store b) =
          .ok (q.descriptor.modify i.toNat (store b)) := modifyAt_eq_ok.mpr ⟨hi, rfl⟩
      obtain ⟨table, hlink, hlen⟩ : ∃ table,
          setNextOf (q.descriptor.modify i.toNat (store b)) last i.toNat = .ok table ∧
            table.length = q.descriptor.length := by
        cases last with
        | none => exact ⟨_, rfl, by simp⟩
        | some l =>
          refine ⟨_, modifyAt_eq_ok.mpr ⟨?_, rfl⟩, by simp⟩
          simpa using hlast l rfl
      simp only [sendLoop, hstack, pop, unwrap, ok_bind, hstore, hlink]
      refine ih (by simpa using len) (fun j hj => ?_) fun l hl => ?_
      · rw [hlen]
        exact bound j (mem_cons_of_mem _ hj)
      · cases hl
        rw [hlen]
        exact hi

/-- `index as u16 + 1`. -/
theorem add_one_index (p : Profile) (i : U16) : p.add (BitVec.ofNat 16 i.toNat) 1 =
    if p = .debug ∧ i.toNat = 65535 then .error .overflow else .ok (i + 1) := by
  have hmax : 2 ^ 16 ≤ i.toNat + (1 : U16).toNat ↔ i.toNat = 65535 := by
    simp
    omega
  simp only [Profile.add, BitVec.ofNat_toNat, BitVec.setWidth_eq, hmax]

/-- A chain that is not empty and not longer than the free stack is sent, unless the
available index overflows. -/
theorem send_total (ne : chain ≠ []) (len : chain.length ≤ q.descriptorStack.length)
    (bound : ∀ i ∈ q.descriptorStack, i.toNat < q.descriptor.length)
    (slot : q.available.headIndex.toNat % q.available.queueSize < q.available.elements.length)
    (room : ¬ (p = .debug ∧ q.available.headIndex.toNat = 65535)) :
    ∃ res, send p q chain = .ok res := by
  obtain ⟨⟨q₁, first, last⟩, hloop⟩ : ∃ res, sendLoop q none none chain = .ok res :=
    sendLoop_total len bound nofun
  obtain ⟨popped, rest, hstack, hlen, rfl, rfl, rfl⟩ := sendLoop_eq_ok hloop
  cases popped with
  | nil => exact absurd (length_eq_zero_iff.mp hlen.symm) ne
  | cons head popped =>
    let last := (head :: popped).getLast (by simp)
    have hlast : unwrap (((head :: popped).getLast?.map BitVec.toNat).or none) =
        .ok last.toNat := by
      simp [last, getLast?_eq_some_getLast]
    have hbound : last.toNat < (fill q.descriptor none (head :: popped) chain).length := by
      rw [fill_length]
      refine bound last ?_
      rw [hstack]
      exact mem_append_left _ (getLast_mem _)
    have htable := modifyAt_eq_ok.mpr ⟨hbound, Eq.refl (modify _ _ (·.setNext none))⟩
    have hslot : q.available.setElementAt q.available.headIndex.toNat
        (BitVec.ofNat 16 head.toNat) = .ok _ := if_pos slot
    have hadd := (add_one_index p q.available.headIndex).trans (if_neg room)
    exact ⟨_, bind_eq_ok.mpr ⟨_, hloop, bind_eq_ok.mpr ⟨_, hlast, bind_eq_ok.mpr ⟨_, rfl,
      bind_eq_ok.mpr ⟨_, htable, bind_eq_ok.mpr ⟨_, hslot, bind_eq_ok.mpr ⟨_, hadd, rfl⟩⟩⟩⟩⟩⟩⟩

/-- Sending one buffer, step by step. -/
theorem send_one {i : U16} {rest : List U16} {b : Buffer} (hstack : q.descriptorStack = i :: rest)
    (bound : i.toNat < q.descriptor.length)
    (slot : q.available.headIndex.toNat % q.available.queueSize < q.available.elements.length)
    (room : ¬ (p = .debug ∧ q.available.headIndex.toNat = 65535)) : send p q [b] = .ok
      ({ q with
          descriptor := (q.descriptor.modify i.toNat (store b)).modify i.toNat (·.setNext none)
          descriptorStack := rest
          available := { q.available with
            headIndex := q.available.headIndex + 1
            elements := q.available.elements.set
              (q.available.headIndex.toNat % q.available.queueSize) i } },
        ⟨i.setWidth 32⟩) := by
  have hstore : modifyAt q.descriptor i.toNat (store b) = .ok _ := modifyAt_eq_ok.mpr ⟨bound, rfl⟩
  have hlast : modifyAt (q.descriptor.modify i.toNat (store b)) i.toNat (·.setNext none) =
      .ok _ := modifyAt_eq_ok.mpr ⟨by simpa using bound, rfl⟩
  have hslot : q.available.setElementAt q.available.headIndex.toNat (BitVec.ofNat 16 i.toNat) =
      .ok _ := if_pos slot
  have hadd := (add_one_index p q.available.headIndex).trans (if_neg room)
  simp only [send, sendLoop, hstack, pop, unwrap, ok_bind, hstore, setNextOf, hlast, hslot, hadd,
    isNone_none, if_true, pure_eq_ok, setHeadIdx]
  simp

/-- The checked `send` computes what any finished one does, or overflows. -/
theorem send_debug {r : PendingRequest} (h : send p q chain = .ok (q', r)) : send .debug q chain =
      if q.available.headIndex.toNat = 65535 then .error .overflow else .ok (q', r) := by
  obtain ⟨⟨q₁, first, last⟩, hloop, h⟩ := bind_eq_ok.mp h
  obtain ⟨lastDescriptor, hlast, h⟩ := bind_eq_ok.mp h
  obtain ⟨firstDescriptor, hfirst, h⟩ := bind_eq_ok.mp h
  obtain ⟨table, htable, h⟩ := bind_eq_ok.mp h
  obtain ⟨available, havailable, h⟩ := bind_eq_ok.mp h
  obtain ⟨index, hindex, h⟩ := bind_eq_ok.mp h
  obtain ⟨popped, rest, -, -, rfl, -, -⟩ := sendLoop_eq_ok hloop
  obtain ⟨-, rfl⟩ := Profile.add_eq_ok.mp hindex
  cases h
  simp only [send, hloop, ok_bind, hlast, hfirst, htable, havailable]
  rw [add_one_index, BitVec.ofNat_toNat, BitVec.setWidth_eq]
  split <;> simp_all

/-! ### What a finished poll did -/

/-- The cast of a `u16` index to `u32` and on to `usize`. -/
theorem toNat_widen (i : U16) : (i.setWidth 32).toNat = i.toNat :=
  BitVec.toNat_setWidth_of_le (by decide)

/-- Following `next` from the head of a chain ends, and yields the chain. -/
theorem walk_linked {table : List Descriptor} {i : U16} {rest : List U16} {fuel : Nat}
    (h : Linked table (i :: rest)) (hfuel : (i :: rest).length ≤ fuel) :
    walk table fuel (i.setWidth 32) = .ok (i :: rest) := by
  induction rest generalizing i fuel with
  | nil =>
    obtain ⟨d, hd, hnext⟩ := h
    obtain ⟨fuel, rfl⟩ : ∃ k, fuel = k + 1 := ⟨fuel - 1, by simp at hfuel; omega⟩
    have hread : index table (i.setWidth 32).toNat = .ok d := by
      rw [toNat_widen, index_eq_ok, hd]
    rw [walk, hread]
    simp [hnext]
  | cons j rest ih =>
    obtain ⟨⟨d, hd, hnext, rfl⟩, hrest⟩ := h
    obtain ⟨fuel, rfl⟩ : ∃ k, fuel = k + 1 := ⟨fuel - 1, by simp at hfuel; omega⟩
    have hread : index table (i.setWidth 32).toNat = .ok d := by
      rw [toNat_widen, index_eq_ok, hd]
    have hwalk : walk table fuel (d.next.setWidth 32) = .ok (d.next :: rest) :=
      ih hrest (by simpa using hfuel)
    rw [walk, hread]
    simp [hnext, hwalk]

/-- The used element that a poll looks at: the one before the ring's head index. -/
def examined (q : Queue) : Option UsedRingElement :=
  q.used.elements[(q.used.headIndex - 1).toNat % q.used.queueSize]?

end Queue

/-- The queue after a poll that found its request completed and took its chain
`pushed` back. -/
def Queue.recycled (q : Queue) (r : PendingRequest) (w : Waker) (pushed : List U16) : Queue :=
  { (q.insertWaker r.firstDescriptor w).removeWaker r.firstDescriptor with
    descriptorStack := q.descriptorStack ++ pushed
    usedHead := q.used.headIndex }

namespace PendingRequest

variable {p : Profile} {q q' : Queue} {r : PendingRequest} {w : Waker} {e : UsedRingElement}
  {res : Poll}

theorem poll_idle (idle : q.used.headIndex = q.usedHead) :
    r.poll p q w = .ok (q.insertWaker r.firstDescriptor w, .pending) := by
  exact if_pos idle

theorem poll_underflow (news : q.used.headIndex ≠ q.usedHead) (hp : p = .debug)
    (hzero : q.used.headIndex = 0) : r.poll p q w = .error .overflow := by
  have hsub : p.sub q.used.headIndex 1 = .error .overflow :=
    Profile.sub_eq_overflow.mpr ⟨hp, by simp [hzero]⟩
  refine (if_neg news).trans ?_
  change (p.sub q.used.headIndex 1 >>= _) = _
  rw [hsub, error_bind]

/-- A poll that sees news reads the newest element and compares its head. -/
theorem poll_news (news : q.used.headIndex ≠ q.usedHead)
    (safe : ¬ (p = .debug ∧ q.used.headIndex = 0)) : r.poll p q w = (unwrap q.examined >>= fun e =>
      if e.tableIndex = r.firstDescriptor then
        walk q.descriptor q.descriptor.length e.tableIndex >>= fun pushed =>
          .ok (q.recycled r w pushed, .ready e.written)
      else .ok (q.insertWaker r.firstDescriptor w, .pending)) := by
  have hsub : p.sub q.used.headIndex 1 = .ok (q.used.headIndex - 1) := by
    refine Profile.sub_eq_ok.mpr ⟨fun ⟨hp, hlt⟩ => safe ⟨hp, ?_⟩, rfl⟩
    exact BitVec.eq_of_toNat_eq (lt_one_iff.mp hlt)
  refine (if_neg news).trans ?_
  change (p.sub q.used.headIndex 1 >>= _) = _
  rw [hsub, ok_bind]
  rfl

/-- **What a finished poll did**: nothing new was completed, or the newest used
element is another request's, and the request keeps waiting; or that element is
its own, and the chain found in the table went back to the stack. -/
theorem poll_eq_ok (h : r.poll p q w = .ok (q', res)) :
    (res = .pending ∧ q' = q.insertWaker r.firstDescriptor w ∧
      (q.used.headIndex ≠ q.usedHead → ∀ e, q.examined = some e →
        e.tableIndex ≠ r.firstDescriptor)) ∨
    (q.used.headIndex ≠ q.usedHead ∧ ∃ e pushed, q.examined = some e ∧
      e.tableIndex = r.firstDescriptor ∧
      walk q.descriptor q.descriptor.length r.firstDescriptor = .ok pushed ∧
      res = .ready e.written ∧ q' = q.recycled r w pushed) := by
  by_cases news : q.used.headIndex = q.usedHead
  · rw [poll_idle news] at h
    cases h
    exact .inl ⟨rfl, rfl, fun hne => absurd news hne⟩
  · by_cases safe : p = .debug ∧ q.used.headIndex = 0
    · rw [poll_underflow news safe.1 safe.2] at h
      cases h
    · rw [poll_news news safe] at h
      obtain ⟨e, he, h⟩ := bind_eq_ok.mp h
      rw [unwrap_eq_ok] at he
      split at h
      · rename_i hmine
        obtain ⟨pushed, hwalk, h⟩ := bind_eq_ok.mp h
        cases h
        exact .inr ⟨news, e, pushed, he, hmine, hmine ▸ hwalk, rfl, rfl⟩
      · rename_i hother
        cases h
        refine .inl ⟨rfl, rfl, fun _ e' he' => ?_⟩
        cases he.symm.trans he'
        exact hother

end PendingRequest

end RedoxDrivers.Virtio
