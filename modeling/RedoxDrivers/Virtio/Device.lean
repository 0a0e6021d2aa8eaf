import RedoxDrivers.Lib.Runs
import RedoxDrivers.Lib.Shares
import RedoxDrivers.Virtio.Transport

/-!
A queue together with its device and the requests made on it.

Three parties take turns in any order: the driver calls `send`, the device
completes an outstanding chain by appending a used element, and the tasks that
wait poll their futures. Each call is one step, and a call that panics is not a
step. The device keeps its own used index: it is reset with the device, while the
used ring in memory is not (`RedoxDrivers.Virtio.Completion` adds that step).

`Inv` is what every step keeps, under either build profile:

* the free stack and the chains of the unfinished requests share out the
  descriptor table, and each chain is still linked as its `send` left it;
* the element before the used ring's head index is the newest one, and it belongs
  to a request that has not returned unless the driver has caught up with it;
* a returned request was completed with the value it returned.

`Inv.poll_keeps` needs that the poll does not look at an element left over from
before a device reset (`Stale`). Without resets there is none, and every state of
every run satisfies the invariant (`Live.of_run`).
-/

namespace RedoxDrivers.Virtio

open Lib Queue List Option

/-- The used ring after a device whose used index is `index` has appended `e`. -/
def Used.append (self : Used) (index : U16) (e : UsedRingElement) : Used :=
  { self with
    headIndex := index + 1
    elements := self.elements.set (index.toNat % self.queueSize) e }

/-- A request made with `send`, and what has become of it. -/
structure Request where
  future : PendingRequest
  /-- The descriptors that its `send` popped. -/
  popped : List U16
  /-- The `written` of the used element that the device has appended for it. -/
  completed : Option U32
  /-- What its future has returned. -/
  returned : Option U32
deriving DecidableEq, Repr

/-- The descriptors that a request still occupies. -/
def Request.held (r : Request) : List U16 := if r.returned.isNone then r.popped else []

structure System where
  queue : Queue
  /-- The device's own used index. -/
  deviceUsed : U16
  /-- The used element that the device appended last, since it was started. -/
  latest : Option UsedRingElement
  requests : List Request
deriving DecidableEq, Repr

/-- What a poll leaves as the result of its future. -/
def Poll.value : Poll → Option U32
  | .pending => none
  | .ready written => some written

namespace System

def start (queue : Queue) : System := ⟨queue, 0, none, []⟩

/-- The driver chains `buffers` and sends them. -/
def send (p : Profile) (s : System) (buffers : List Buffer) : Option System := do
  let chain ← (ChainBuilder.ofBuffers buffers).toOption
  let (queue, future) ← (s.queue.send p chain).toOption
  let popped := s.queue.descriptorStack.take chain.length
  return { s with queue, requests := s.requests ++ [⟨future, popped, none, none⟩] }

/-- The device finishes with the chain of request `i`. -/
def complete (s : System) (i : Nat) (written : U32) : Option System := do
  let r ← s.requests[i]?
  let e : UsedRingElement := ⟨r.future.firstDescriptor, written⟩
  if r.completed = none then
    some { queue := { s.queue with used := s.queue.used.append s.deviceUsed e }
           deviceUsed := s.deviceUsed + 1
           latest := some e
           requests := s.requests.set i { r with completed := some written } }
  else none

/-- The future of request `i`, which has not returned yet, is polled. -/
def poll (p : Profile) (s : System) (i : Nat) (waker : Waker) : Option System := do
  let r ← s.requests[i]?
  if r.returned = none then
    (r.future.poll p s.queue waker).toOption.map fun (queue, res) =>
      { s with queue, requests := s.requests.set i { r with returned := res.value } }
  else none

end System

/-- A step of the driver, of the device or of a waiting task. -/
inductive Event where
  | send (buffers : List Buffer)
  | complete (request : Nat) (written : U32)
  | poll (request : Nat) (waker : Waker)
deriving DecidableEq, Repr

def step (p : Profile) (s : System) : Event → Option System
  | .send buffers => s.send p buffers
  | .complete i written => s.complete i written
  | .poll i waker => s.poll p i waker

namespace System

variable {p : Profile} {s s' : System}

theorem send_eq_some {buffers : List Buffer} (h : s.send p buffers = some s') :
    ∃ chain queue future, ChainBuilder.ofBuffers buffers = .ok chain ∧
      s.queue.send p chain = .ok (queue, future) ∧
      s' = { s with
        queue
        requests := s.requests ++
          [⟨future, s.queue.descriptorStack.take chain.length, none, none⟩] } := by
  obtain ⟨chain, hchain, h⟩ := bind_eq_some_iff.mp h
  obtain ⟨⟨queue, future⟩, hsend, h⟩ := bind_eq_some_iff.mp h
  exact ⟨chain, queue, future, toOption_eq_some.mp hchain, toOption_eq_some.mp hsend,
    (some.inj h).symm⟩

theorem complete_eq_some {i : Nat} {written : U32} (h : s.complete i written = some s') :
    ∃ r, s.requests[i]? = some r ∧ r.completed = none ∧
      s' = { queue := { s.queue with
               used := s.queue.used.append s.deviceUsed ⟨r.future.firstDescriptor, written⟩ }
             deviceUsed := s.deviceUsed + 1
             latest := some ⟨r.future.firstDescriptor, written⟩
             requests := s.requests.set i { r with completed := some written } } := by
  obtain ⟨r, hr, h⟩ := bind_eq_some_iff.mp h
  split at h
  · rename_i hnone
    exact ⟨r, hr, hnone, (some.inj h).symm⟩
  · cases h

/-- What a poll step did: the request keeps waiting and only its waker is new, or it
returns what the newest used element says. -/
theorem poll_cases {i : Nat} {waker : Waker} (h : s.poll p i waker = some s') :
    ∃ r, s.requests[i]? = some r ∧ r.returned = none ∧
      (s' = { s with queue := s.queue.insertWaker r.future.firstDescriptor waker } ∨
        s.queue.used.headIndex ≠ s.queue.usedHead ∧ ∃ e pushed, s.queue.examined = some e ∧
          e.tableIndex = r.future.firstDescriptor ∧
          walk s.queue.descriptor s.queue.descriptor.length r.future.firstDescriptor =
            .ok pushed ∧
          s' = { s with
            queue := s.queue.recycled r.future waker pushed
            requests := s.requests.set i { r with returned := some e.written } }) := by
  obtain ⟨r, hr, h⟩ := bind_eq_some_iff.mp h
  obtain ⟨hlive, h⟩ := ite_none_right_eq_some.mp h
  obtain ⟨⟨queue, res⟩, hpoll, hs'⟩ := map_eq_some_iff.mp h
  have hpoll := toOption_eq_some.mp hpoll
  dsimp only at hs'
  subst hs'
  refine ⟨r, hr, hlive, ?_⟩
  rcases PendingRequest.poll_eq_ok hpoll with
    ⟨rfl, rfl, -⟩ | ⟨news, e, pushed, he, hhead, hwalk, rfl, rfl⟩
  · obtain ⟨hi, hget⟩ := List.getElem?_eq_some_iff.mp hr
    have hsame : ({ r with returned := Poll.pending.value } : Request) = s.requests[i] := by
      rw [hget, Poll.value, ← hlive]
    exact .inl (by rw [hsame, set_getElem_self])
  · exact .inr ⟨news, e, pushed, he, hhead, hwalk, rfl⟩

end System

/-! ### The invariant -/

theorem mem_indices {n : Nat} (hn : n ≤ 65536) {i : U16} : i ∈ indices n ↔ i.toNat < n := by
  unfold indices
  rw [List.mem_map]
  constructor
  · rintro ⟨k, hk, rfl⟩
    rw [mem_range] at hk
    rwa [toNat_ofNat_of_lt (by omega)]
  · intro hi
    exact ⟨i.toNat, mem_range.mpr hi, BitVec.eq_of_toNat_eq (by simp)⟩

theorem nodup_indices {n : Nat} (hn : n ≤ 65536) : (indices n).Nodup := by
  refine List.Nodup.map_on (fun a ha b hb h => ?_) nodup_range
  rw [mem_range] at ha hb
  have := congrArg BitVec.toNat h
  rwa [toNat_ofNat_of_lt (by omega), toNat_ofNat_of_lt (by omega)] at this

structure Inv (p : Profile) (size : QueueSize) (s : System) : Prop where
  descriptorLength : s.queue.descriptor.length = size.val
  availableSize : s.queue.available.queueSize = size.val
  availableLength : s.queue.available.elements.length = size.val
  usedSize : s.queue.used.queueSize = size.val
  usedLength : s.queue.used.elements.length = size.val
  /-- The free descriptors and those in use are all there are, each once. -/
  conserved : (s.queue.descriptorStack ++ s.requests.flatMap Request.held).Perm (indices size.val)
  linked : ∀ r ∈ s.requests, r.returned = none → Linked s.queue.descriptor r.popped
  headed : ∀ r ∈ s.requests, r.popped.head?.map (·.setWidth 32) = some r.future.firstDescriptor
  genuine : ∀ r ∈ s.requests, ∀ w, r.returned = some w → r.completed = some w
  /-- The available index counts the requests, the device's index those it has completed. -/
  sentCount : s.queue.available.headIndex = BitVec.ofNat 16 s.requests.length
  sentBound : p = .debug → s.requests.length ≤ 65535
  doneCount : s.deviceUsed = BitVec.ofNat 16 (s.requests.countP (·.completed.isSome))
  newest : ∀ e, s.latest = some e → s.deviceUsed = s.queue.used.headIndex ∧
    s.queue.examined = some e ∧ ∃ (i : Nat) (r : Request), s.requests[i]? = some r ∧
      r.future.firstDescriptor = e.tableIndex ∧ r.completed = some e.written ∧
      (s.queue.used.headIndex ≠ s.queue.usedHead → r.returned = none)
  quiet : s.latest = none → s.queue.usedHead = 0 ∧ ∀ r ∈ s.requests, r.completed = none

/-- The element that a poll of `r` would look at was left by a device that has been
reset since, and carries the head of `r`'s chain. -/
def Stale (s : System) (r : Request) : Prop :=
  s.latest = none ∧ s.queue.used.headIndex ≠ 0 ∧
    ∃ e, s.queue.examined = some e ∧ e.tableIndex = r.future.firstDescriptor

namespace Inv

variable {p : Profile} {size : QueueSize} {s s' : System}

theorem start {q : Queue} (fresh : q.Fresh size) : Inv p size (System.start q) where
  descriptorLength := fresh.descriptor
  availableSize := fresh.availableSize
  availableLength := fresh.availableLength
  usedSize := fresh.usedSize
  usedLength := fresh.usedLength
  conserved := by simp [System.start, fresh.stack]
  linked := by simp [System.start]
  headed := by simp [System.start]
  genuine := by simp [System.start]
  sentCount := by simp [System.start, fresh.availableHead]
  sentBound := by simp [System.start]
  doneCount := by simp [System.start]
  newest := by simp [System.start]
  quiet := by simp [System.start, fresh.usedHead]

section

variable (inv : Inv p size s)

include inv

theorem nodup : (s.queue.descriptorStack ++ s.requests.flatMap Request.held).Nodup :=
  inv.conserved.nodup_iff.mpr (nodup_indices (size.le.trans (by decide)))

theorem stack_nodup : s.queue.descriptorStack.Nodup := (nodup_append.mp inv.nodup).1

theorem held_nodup : (s.requests.flatMap Request.held).Nodup := (nodup_append.mp inv.nodup).2.1

theorem stack_bound : ∀ i ∈ s.queue.descriptorStack, i.toNat < s.queue.descriptor.length := by
  intro i hi
  rw [inv.descriptorLength]
  exact (mem_indices (size.le.trans (by decide))).mp
    (inv.conserved.subset (mem_append_left _ hi))

end

variable {r : Request}

/-- An unfinished request holds what its `send` popped. -/
theorem held_eq (h : r.returned = none) : r.held = r.popped := by
  simp [Request.held, h]

/-- Two unfinished requests with one head are one. -/
theorem eq_of_head (inv : Inv p size s) {i j : Nat} {t : Request} (hr : s.requests[i]? = some r)
    (ht : s.requests[j]? = some t) (hlr : r.returned = none) (hlt : t.returned = none)
    (hhead : r.future.firstDescriptor = t.future.firstDescriptor) : i = j := by
  have headr := inv.headed r (mem_of_getElem? hr)
  have headt := inv.headed t (mem_of_getElem? ht)
  obtain ⟨x, hx, hxr⟩ := map_eq_some_iff.mp headr
  obtain ⟨y, hy, hyt⟩ := map_eq_some_iff.mp headt
  have hxy : x = y := by
    apply BitVec.eq_of_toNat_eq
    rw [← toNat_widen x, ← toNat_widen y, hxr, hyt, hhead]
  refine eq_of_mem_share inv.held_nodup hr ht (x := x) ?_ ?_
  · rw [held_eq hlr]
    exact mem_of_mem_head? hx
  · rw [held_eq hlt, hxy]
    exact mem_of_mem_head? hy

/-- The chain of an unfinished request is found by following `next`. -/
theorem walk_eq (inv : Inv p size s) {i : Nat} (hr : s.requests[i]? = some r)
    (hlive : r.returned = none) :
    walk s.queue.descriptor s.queue.descriptor.length r.future.firstDescriptor =
      .ok r.popped := by
  have hmem := mem_of_getElem? hr
  have hlinked := inv.linked r hmem hlive
  obtain ⟨x, hx, hfirst⟩ := map_eq_some_iff.mp (inv.headed r hmem)
  have hlen : r.popped.length ≤ s.queue.descriptor.length := by
    have hrelease := flatMap_release Request.held
      (b := { r with returned := some 0 }) hr rfl
    have hall := inv.conserved.length_eq
    rw [length_append, ← hrelease.length_eq, length_append, held_eq hlive] at hall
    simp only [indices, length_map, length_range] at hall
    rw [inv.descriptorLength]
    omega
  cases hpopped : r.popped with
  | nil => simp [hpopped] at hx
  | cons y =>
    obtain rfl : y = x := by simpa [hpopped] using hx
    rw [hpopped] at hlinked hlen
    rw [← hfirst]
    exact walk_linked hlinked hlen

/-! ### One step keeps the invariant -/

/-- What a `send` step did: the new request `r` took the descriptors in front of the
stack, `head` first. -/
structure Sent (p : Profile) (s s' : System) (r : Request) (head : U16) : Prop where
  requests : s'.requests = s.requests ++ [r]
  completed : r.completed = none
  returned : r.returned = none
  headed : r.popped.head? = some head
  first : r.future.firstDescriptor = head.setWidth 32
  stack : s.queue.descriptorStack = r.popped ++ s'.queue.descriptorStack
  linked : Linked s'.queue.descriptor r.popped
  frame : ∀ k, (∀ i ∈ r.popped, i.toNat ≠ k) → s'.queue.descriptor[k]? = s.queue.descriptor[k]?
  table : s'.queue.descriptor.length = s.queue.descriptor.length
  room : ¬ (p = .debug ∧ s.queue.available.headIndex.toNat = 65535)
  available : s'.queue.available = { s.queue.available with
    headIndex := s.queue.available.headIndex + 1
    elements := s.queue.available.elements.set
      (s.queue.available.headIndex.toNat % s.queue.available.queueSize) head }
  used : s'.queue.used = s.queue.used
  usedHead : s'.queue.usedHead = s.queue.usedHead
  deviceUsed : s'.deviceUsed = s.deviceUsed
  latest : s'.latest = s.latest

section

variable (inv : Inv p size s)

include inv

theorem sent {buffers : List Buffer} (h : s.send p buffers = some s') :
    ∃ r head, Sent p s s' r head := by
  obtain ⟨chain, queue, future, hchain, hsend, rfl⟩ := System.send_eq_some h
  have hterminated := build_terminated hchain
  obtain ⟨head, popped, rest, hstack, hlen, hfirst, hlinked, hframe, htable, hrest, hroom,
    havailable, hused, husedHead, -⟩ :=
    send_eq_ok hsend hterminated inv.stack_nodup inv.stack_bound
  have htake : s.queue.descriptorStack.take chain.length = head :: popped := by
    rw [hstack, ← hlen, take_left]
  refine ⟨_, head, rfl, rfl, rfl, ?_, hfirst, ?_, ?_, ?_, htable, hroom, havailable, hused,
    husedHead, rfl, rfl⟩
  · simp only [htake, head?_cons]
  · simp only [htake, hrest]
    exact hstack
  · simpa only [htake] using hlinked
  · simpa only [htake] using hframe

variable {r : Request} {i : Nat} {e : UsedRingElement}

/-- `send` takes free descriptors only, so it rewrites no unfinished chain. -/
theorem chain_kept {t : Request} {head : U16} (sent : Sent p s s' r head) (ht : t ∈ s.requests)
    (hlive : t.returned = none) {i : U16} (hi : i ∈ t.popped) :
    s'.queue.descriptor[i.toNat]? = s.queue.descriptor[i.toNat]? := by
  refine sent.frame _ fun j hj heq => ?_
  -- a free descriptor is in no unfinished chain
  obtain rfl := BitVec.eq_of_toNat_eq heq
  refine (nodup_append.mp inv.nodup).2.2 j (sent.stack ▸ mem_append_left _ hj) j ?_ rfl
  exact mem_flatMap.mpr ⟨t, ht, by rw [held_eq hlive]; exact hi⟩

theorem send_keeps {buffers : List Buffer} (h : s.send p buffers = some s') : Inv p size s' := by
  obtain ⟨r, head, sent⟩ := inv.sent h
  have hexamined : s'.queue.examined = s.queue.examined := by
    rw [examined, sent.used]
    rfl
  have hmem : ∀ t ∈ s'.requests, t ∈ s.requests ∨ t = r := by
    simp [sent.requests]
  constructor
  · exact sent.table.trans inv.descriptorLength
  · rw [sent.available]
    exact inv.availableSize
  · rw [sent.available]
    simpa using inv.availableLength
  · rw [sent.used]
    exact inv.usedSize
  · rw [sent.used]
    exact inv.usedLength
  · rw [sent.requests, flatMap_append, flatMap_singleton, held_eq sent.returned]
    refine .trans ?_ inv.conserved
    rw [sent.stack, ← append_assoc, append_assoc r.popped]
    exact perm_append_comm
  · intro t ht hlive
    rcases hmem t ht with hold | rfl
    · exact (inv.linked t hold hlive).congr fun i hi => inv.chain_kept sent hold hlive hi
    · exact sent.linked
  · intro t ht
    rcases hmem t ht with hold | rfl
    · exact inv.headed t hold
    · rw [sent.headed, sent.first]
      rfl
  · intro t ht w hw
    rcases hmem t ht with hold | rfl
    · exact inv.genuine t hold w hw
    · rw [sent.returned] at hw
      cases hw
  · simp only [sent.available, sent.requests, inv.sentCount, length_append,
      length_singleton, BitVec.ofNat_add]
    rfl
  · intro hp
    have hbound := inv.sentBound hp
    have hcount := congrArg BitVec.toNat inv.sentCount
    rw [toNat_ofNat_of_lt (by omega)] at hcount
    have : s.requests.length ≠ 65535 := fun h => sent.room ⟨hp, hcount.trans h⟩
    rw [sent.requests, length_append, length_singleton]
    omega
  · simpa [sent.deviceUsed, sent.requests, sent.completed] using inv.doneCount
  · intro e he
    obtain ⟨hdevice, hex, i, t, ht, hrest⟩ := inv.newest e (sent.latest ▸ he)
    rw [sent.deviceUsed, sent.used, sent.usedHead]
    refine ⟨hdevice, hexamined.trans hex, i, t, ?_, hrest⟩
    rw [sent.requests, List.getElem?_append_left (List.getElem?_eq_some_iff.mp ht).1]
    exact ht
  · intro he
    obtain ⟨hzero, hnone⟩ := inv.quiet (sent.latest ▸ he)
    refine ⟨sent.usedHead.trans hzero, fun t ht => ?_⟩
    rcases hmem t ht with hold | rfl
    · exact hnone t hold
    · exact sent.completed

/-- A request that has not been completed has not returned. -/
theorem returned_eq_none (hr : r ∈ s.requests) (hnone : r.completed = none) :
    r.returned = none := by
  cases hret : r.returned with
  | none => rfl
  | some w =>
    have := inv.genuine r hr w hret
    rw [hnone] at this
    cases this

/-- The device writes the element before its new index. -/
theorem examined_append (e : UsedRingElement) :
    examined { s.queue with used := s.queue.used.append s.deviceUsed e } = some e := by
  have hslot : s.deviceUsed.toNat % s.queue.used.queueSize < s.queue.used.elements.length := by
    rw [inv.usedLength, inv.usedSize]
    exact Nat.mod_lt _ size.pos
  simp only [examined, Used.append, BitVec.add_sub_cancel]
  exact getElem?_set_self hslot

theorem complete_keeps {written : U32} (h : s.complete i written = some s') : Inv p size s' := by
  obtain ⟨r, hr, hnone, rfl⟩ := System.complete_eq_some h
  have hmem := mem_of_getElem? hr
  have hlive := inv.returned_eq_none hmem hnone
  have hset : ∀ t ∈ s.requests.set i { r with completed := some written },
      t = { r with completed := some written } ∨ t ∈ s.requests :=
    fun t ht => (mem_or_eq_of_mem_set ht).symm
  obtain ⟨hi, hget⟩ := List.getElem?_eq_some_iff.mp hr
  constructor
  · exact inv.descriptorLength
  · exact inv.availableSize
  · exact inv.availableLength
  · exact inv.usedSize
  · simp only [Used.append, length_set]
    exact inv.usedLength
  · rw [flatMap_replace Request.held hr (by simp [Request.held])]
    exact inv.conserved
  · intro t ht htlive
    rcases hset t ht with rfl | hold
    · exact inv.linked r hmem hlive
    · exact inv.linked t hold htlive
  · intro t ht
    rcases hset t ht with rfl | hold
    · exact inv.headed r hmem
    · exact inv.headed t hold
  · intro t ht w hw
    rcases hset t ht with rfl | hold
    · rw [hlive] at hw
      cases hw
    · exact inv.genuine t hold w hw
  · simpa using inv.sentCount
  · simpa using inv.sentBound
  · simp [countP_set, hi, hget, hnone, inv.doneCount, BitVec.ofNat_add]
  · intro e he
    cases he
    refine ⟨rfl, inv.examined_append _, i, _, getElem?_set_self hi, rfl, rfl, ?_⟩
    exact fun _ => hlive
  · intro he
    cases he

/-- The newest used element carries the head of an unfinished request and the
driver has not caught up: it is the element that the device appended for that very
request, unless it is stale. -/
theorem own_element (hr : s.requests[i]? = some r) (hlive : r.returned = none)
    (fresh : ¬ Stale s r) (news : s.queue.used.headIndex ≠ s.queue.usedHead)
    (he : s.queue.examined = some e) (hhead : e.tableIndex = r.future.firstDescriptor) :
    s.latest = some e ∧ r.completed = some e.written := by
  cases hlatest : s.latest with
  | none =>
    have hzero := (inv.quiet hlatest).1
    exact absurd ⟨hlatest, fun h => news (h.trans hzero.symm), e, he, hhead⟩ fresh
  | some e' =>
    obtain ⟨-, hex, j, t, ht, hfirst, hcompleted, hreturned⟩ := inv.newest e' hlatest
    obtain rfl : e' = e := by
      rw [he] at hex
      exact (some.inj hex).symm
    obtain rfl : j = i := inv.eq_of_head ht hr (hreturned news) hlive (hfirst.trans hhead)
    obtain rfl : r = t := by
      rw [hr] at ht
      exact some.inj ht
    exact ⟨rfl, hcompleted⟩

/-- Fewer than `2 ^ 16` requests do not bring the used index round to zero. -/
theorem head_ne_zero (he : s.latest = some e) (few : s.requests.length ≤ 65535) :
    s.queue.used.headIndex ≠ 0 := by
  intro hzero
  obtain ⟨hdevice, -, i, r, hr, -, hcompleted, -⟩ := inv.newest e he
  have hpos : 0 < s.requests.countP (·.completed.isSome) :=
    countP_pos_iff.mpr ⟨r, mem_of_getElem? hr, by simp [hcompleted]⟩
  have hle : s.requests.countP (·.completed.isSome) ≤ s.requests.length := countP_le_length
  have hcount := congrArg BitVec.toNat inv.doneCount
  rw [hdevice, hzero, toNat_ofNat_of_lt (by omega)] at hcount
  exact hpos.ne hcount

theorem poll_keeps {waker : Waker}
    (fresh : ∀ r, s.requests[i]? = some r → r.returned = none → ¬ Stale s r)
    (h : s.poll p i waker = some s') : Inv p size s' := by
  obtain ⟨r, hr, hlive, rfl | ⟨news, e, pushed, he, hhead, hwalk, rfl⟩⟩ := System.poll_cases h
  · exact { inv with }
  · have hmem := mem_of_getElem? hr
    obtain ⟨hi, hget⟩ := List.getElem?_eq_some_iff.mp hr
    obtain ⟨hlatest, hcompleted⟩ :=
      inv.own_element hr hlive (fresh r hr hlive) news he hhead
    obtain rfl : r.popped = pushed := by
      rw [inv.walk_eq hr hlive] at hwalk
      exact Except.ok.inj hwalk
    have hset : ∀ t ∈ s.requests.set i { r with returned := some e.written },
        t = { r with returned := some e.written } ∨ t ∈ s.requests :=
      fun t ht => (mem_or_eq_of_mem_set ht).symm
    constructor
    · exact inv.descriptorLength
    · exact inv.availableSize
    · exact inv.availableLength
    · exact inv.usedSize
    · exact inv.usedLength
    · have hrelease := flatMap_release Request.held
        (b := { r with returned := some e.written }) hr rfl
      rw [held_eq hlive] at hrelease
      refine .trans ?_ inv.conserved
      show (s.queue.descriptorStack ++ r.popped ++ (s.requests.set i _).flatMap Request.held).Perm _
      rw [append_assoc]
      exact hrelease.append_left _
    · intro t ht htlive
      rcases hset t ht with rfl | hold
      · cases htlive
      · exact inv.linked t hold htlive
    · intro t ht
      rcases hset t ht with rfl | hold
      · exact inv.headed r hmem
      · exact inv.headed t hold
    · intro t ht w hw
      rcases hset t ht with rfl | hold
      · cases hw
        exact hcompleted
      · exact inv.genuine t hold w hw
    · rw [length_set]
      exact inv.sentCount
    · simpa using inv.sentBound
    · have hcount := countP_replace (·.completed.isSome)
        (b := { r with returned := some e.written }) hr rfl
      exact inv.doneCount.trans (congrArg _ hcount.symm)
    · intro e' he'
      obtain ⟨hdevice, hex, -⟩ := inv.newest e' he'
      obtain rfl : e' = e := by
        rw [he] at hex
        exact (some.inj hex).symm
      refine ⟨hdevice, hex, i, _, getElem?_set_self hi, hhead.symm, hcompleted, ?_⟩
      exact fun hne => absurd rfl hne
    · intro hnone
      rw [hlatest] at hnone
      cases hnone

end

end Inv

/-! ### Runs without a device reset -/

/-- The invariant of the runs in which the device is never reset: the used ring has
its first index until the first completion. -/
structure Live (p : Profile) (size : QueueSize) (s : System) : Prop extends Inv p size s where
  untouched : s.latest = none → s.queue.used.headIndex = 0

namespace Live

variable {p : Profile} {size : QueueSize} {q : Queue} {s s' : System} {e : Event}

theorem start (fresh : q.Fresh size) : Live p size (System.start q) :=
  ⟨.start fresh, fun _ => fresh.usedRingHead⟩

section

variable (live : Live p size s)

include live

theorem not_stale (r : Request) : ¬ Stale s r :=
  fun ⟨hlatest, hne, _⟩ => hne (live.untouched hlatest)

/-- The device's index is the one in the ring. -/
theorem deviceUsed_eq : s.deviceUsed = s.queue.used.headIndex := by
  cases hlatest : s.latest with
  | some e => exact (live.newest e hlatest).1
  | none =>
    have hnone := (live.quiet hlatest).2
    have hcount : s.requests.countP (·.completed.isSome) = 0 :=
      countP_eq_zero.mpr fun r hr => by simp [hnone r hr]
    rw [live.doneCount, hcount, live.untouched hlatest]
    rfl

/-- News for the driver is the element that the device appended last. -/
theorem latest_of_news (news : s.queue.used.headIndex ≠ s.queue.usedHead) :
    ∃ e, s.latest = some e ∧ s.queue.examined = some e := by
  cases hlatest : s.latest with
  | some e => exact ⟨e, rfl, (live.newest e hlatest).2.1⟩
  | none =>
    have hzero := (live.quiet hlatest).1
    exact absurd ((live.untouched hlatest).trans hzero.symm) news

theorem keeps (h : step p s e = some s') : Live p size s' := by
  cases e with
  | send =>
    refine ⟨live.send_keeps h, ?_⟩
    obtain ⟨r, head, sent⟩ := live.sent h
    rw [sent.latest, sent.used]
    exact live.untouched
  | complete =>
    refine ⟨live.complete_keeps h, ?_⟩
    obtain ⟨r, -, -, rfl⟩ := System.complete_eq_some h
    intro hnone
    cases hnone
  | poll =>
    refine ⟨live.poll_keeps (fun r _ _ => live.not_stale r) h, ?_⟩
    obtain ⟨r, -, -, rfl | ⟨-, e, pushed, -, -, -, rfl⟩⟩ := System.poll_cases h
    all_goals exact live.untouched

end

/-- **Every state of every run** without a device reset is one of the invariant. -/
theorem of_run (hq : setup size.val = .ok q) {es : List Event}
    (h : run (step p) (System.start q) es = some s) : Live p size s :=
  invariant_of_run (start (.of_setup hq)) (fun _ _ _ live hstep => live.keeps hstep) h

end Live

end RedoxDrivers.Virtio
