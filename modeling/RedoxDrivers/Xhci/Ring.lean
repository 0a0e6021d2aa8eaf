import RedoxDrivers.Lib.Laps
import RedoxDrivers.Lib.Runs
import RedoxDrivers.Xhci.Trb

/-!
TRB rings (`xhcid/src/xhci/ring.rs`).

A link ring is filled by the driver and read by the controller. Its last slot holds a
Link TRB back to the first one, and each lap is written with the other cycle bit, by
which the reader tells new TRBs from those of the lap before. A ring without a link,
the event ring, is filled by the controller.

`refines_fifo` is the main result: a link ring of any length is an unbounded queue
for a reader that follows links and toggles its cycle state, as long as the reader
is no more than one lap behind.
-/

namespace RedoxDrivers.Xhci

open Lib List Option Nat

/-- `base` is the physical address of `trbs`. -/
structure Ring where
  link : Bool
  base : U64
  trbs : List Trb
  i : Nat
  cycle : Bool
deriving DecidableEq, Repr

namespace Ring

/-- The physical address of the slot `i` of a ring at `base`. -/
def slotAddr (base : U64) (i : Nat) : U64 := base + BitVec.ofNat 64 (16 * i)

def new (base : U64) (length : Nat) (link : Bool) : Ring :=
  { link, base, trbs := List.replicate length .zeroed, i := 0, cycle := link }

def register (self : Ring) : U64 := slotAddr self.base self.i ||| (if self.cycle then 1 else 0)

/-- The loop of `next_index`, for at most `fuel` rounds. -/
def nextIndexLoop : Nat → Ring → Except Fault (Nat × Ring)
  | 0, _ => .error .diverges
  | fuel + 1, self =>
    if self.trbs.length ≤ self.i + 1 then
      if self.link then do
        let trbs ← modifyAt self.trbs self.i fun _ => .link self.base true self.cycle
        nextIndexLoop fuel { self with trbs, i := 0, cycle := !self.cycle }
      else .ok (self.i, { self with i := 0 })
    else .ok (self.i, { self with i := self.i + 1 })

/-- A round that goes on has set the index to 0. So the second round ends, unless the
ring is a link ring of one TRB, for which no round does. -/
def nextIndex (self : Ring) : Except Fault (Nat × Ring) := nextIndexLoop 2 self

/-- `next`, and the caller's store into the TRB it returns. The result names the slot. -/
def enqueue (self : Ring) (write : Trb → Bool → Trb) : Except Fault (Nat × Ring) := do
  let (i, self) ← self.nextIndex
  let trbs ← modifyAt self.trbs i (write · self.cycle)
  return (i, { self with trbs })

section

variable (self : Ring) (ac64 : Bool)

/-- The ring's base, cut to the width of the controller's addresses. -/
def physBase : U64 := self.base &&& (if ac64 then 0xFFFFFFFFFFFFFFFF else 0xFFFFFFFF)

def physAddrToIndex (paddr : U64) : Except Fault (Option Nat) :=
  if paddr < self.physBase ac64 then .ok none
  else if (paddr - self.physBase ac64).toNat % 16 ≠ 0 then .error .assertFailed
  else if self.trbs.length < (paddr - self.physBase ac64).toNat / 16 then .ok none
  else .ok (some ((paddr - self.physBase ac64).toNat / 16))

def physAddrToEntry (paddr : U64) : Except Fault (Option Trb) := do
  match ← self.physAddrToIndex ac64 paddr with
  | none => return none
  | some i =>
    let trb ← index self.trbs i
    return some trb

/-- The address of the TRB at `index`, for callers that pass a reference to it. -/
def trbPhysPtr (index : Nat) : U64 := slotAddr (self.physBase ac64) index

end

/-- A ring without a link steps to the next slot modulo its length. -/
theorem nextIndex_plain {r : Ring} (plain : r.link = false) (hi : r.i < r.trbs.length) :
    r.nextIndex = .ok (r.i, { r with i := (r.i + 1) % r.trbs.length }) := by
  unfold nextIndex nextIndexLoop
  by_cases hlast : r.trbs.length ≤ r.i + 1
  · have hwrap : (r.i + 1) % r.trbs.length = 0 := by
      rw [le_antisymm hlast hi, mod_self]
    rw [if_pos hlast, if_neg (by simp [plain]), hwrap]
  · rw [if_neg hlast, mod_eq_of_lt (by omega)]

/-- Before the last slot a step is a plain one. -/
theorem nextIndex_inside {r : Ring} (hi : r.i + 1 < r.trbs.length) :
    r.nextIndex = .ok (r.i, { r with i := r.i + 1 }) := by
  unfold nextIndex nextIndexLoop
  rw [if_neg (by omega)]

/-- At the last slot of a link ring the link is written with the cycle bit of the lap
that ends, and the next lap starts. -/
theorem nextIndex_wrap {r : Ring} (isLink : r.link = true) (hi : r.i + 1 = r.trbs.length)
    (two : 2 ≤ r.trbs.length) : r.nextIndex = .ok (0, { r with
      trbs := r.trbs.modify r.i fun _ => .link r.base true r.cycle, i := 1, cycle := !r.cycle }) := by
  have hstore : modifyAt r.trbs r.i (fun _ => Trb.link r.base true r.cycle) = .ok _ :=
    modifyAt_eq_ok.mpr ⟨by omega, rfl⟩
  unfold nextIndex nextIndexLoop
  rw [if_pos hi.ge, if_pos isLink, hstore, ok_bind, nextIndexLoop, if_neg]
  simp only [length_modify]
  omega

/-! ### Addresses of slots -/

section Addresses

variable {r : Ring} {ac64 : Bool} {paddr : U64} {i : Nat}

theorem slotAddr_toNat {base : U64} {n : Nat} (fits : base.toNat + 16 * n ≤ 2 ^ 64) (hi : i < n) :
    (slotAddr base i).toNat = base.toNat + 16 * i := by
  unfold slotAddr
  rw [BitVec.toNat_add, toNat_ofNat_of_lt (by omega : 16 * i < 2 ^ 64), mod_eq_of_lt (by omega)]

theorem slotAddr_inj {base : U64} {n j : Nat} (fits : base.toNat + 16 * n ≤ 2 ^ 64) (hi : i < n)
    (hj : j < n) (h : slotAddr base i = slotAddr base j) : i = j := by
  have hnat := congrArg BitVec.toNat h
  rw [slotAddr_toNat fits hi, slotAddr_toNat fits hj] at hnat
  omega

/-- An address that can be looked up without a panic: one below the ring, or a whole number
of TRBs above its base, but not the one right behind the last slot. -/
def EntryOk (self : Ring) (ac64 : Bool) (paddr : U64) : Prop :=
  self.physBase ac64 ≤ paddr → (paddr - self.physBase ac64).toNat % 16 = 0 ∧
    (paddr - self.physBase ac64).toNat / 16 ≠ self.trbs.length

theorem physAddrToEntry_isOk :
    (∃ entry, r.physAddrToEntry ac64 paddr = .ok entry) ↔ r.EntryOk ac64 paddr := by
  unfold physAddrToEntry physAddrToIndex EntryOk
  by_cases hbelow : paddr < r.physBase ac64
  · rw [if_pos hbelow]
    exact ⟨fun _ hle => absurd hbelow (BitVec.not_lt.mpr hle), fun _ => ⟨none, rfl⟩⟩
  · have hle : r.physBase ac64 ≤ paddr := BitVec.not_lt.mp hbelow
    rw [if_neg hbelow]
    by_cases haligned : (paddr - r.physBase ac64).toNat % 16 = 0
    · rw [if_neg (not_not.mpr haligned)]
      by_cases hbehind : r.trbs.length < (paddr - r.physBase ac64).toNat / 16
      · rw [if_pos hbehind]
        exact ⟨fun _ _ => ⟨haligned, hbehind.ne'⟩, fun _ => ⟨none, rfl⟩⟩
      · rw [if_neg hbehind, ok_bind]
        constructor
        · rintro ⟨entry, hentry⟩ -
          obtain ⟨trb, htrb, -⟩ := bind_eq_ok.mp hentry
          obtain ⟨hlt, -⟩ := List.getElem?_eq_some_iff.mp (index_eq_ok.mp htrb)
          exact ⟨haligned, hlt.ne⟩
        · intro hok
          have hlt := lt_of_le_of_ne (not_lt.mp hbehind) (hok hle).2
          exact ⟨_, bind_eq_ok.mpr ⟨_, index_eq_ok.mpr (getElem?_eq_getElem hlt), rfl⟩⟩
    · rw [if_pos haligned]
      exact ⟨fun ⟨_, h⟩ => absurd h nofun, fun hok => absurd (hok hle).1 haligned⟩

/-- The address of a slot leads back to it. -/
theorem physAddrToIndex_slot (fits : (r.physBase ac64).toNat + 16 * r.trbs.length ≤ 2 ^ 64)
    (hi : i < r.trbs.length) : r.physAddrToIndex ac64 (r.trbPhysPtr ac64 i) = .ok (some i) := by
  have hoffset : (r.trbPhysPtr ac64 i - r.physBase ac64).toNat = 16 * i := by
    rw [trbPhysPtr, slotAddr, BitVec.add_comm, BitVec.add_sub_cancel, toNat_ofNat_of_lt (by omega)]
  have hle : ¬ r.trbPhysPtr ac64 i < r.physBase ac64 := by
    bv_omega
  unfold physAddrToIndex
  rw [if_neg hle, hoffset, if_neg (by simp), Nat.mul_div_cancel_left _ (by decide),
    if_neg (by omega)]

theorem physBase_eq (hbase : ac64 = false → r.base.toNat < 2 ^ 32) : r.physBase ac64 = r.base := by
  unfold physBase
  cases ac64 with
  | true => exact BitVec.and_allOnes
  | false =>
    have hmask : (0xFFFFFFFF : U64).toNat = 2 ^ 32 - 1 := rfl
    refine BitVec.eq_of_toNat_eq ?_
    rw [if_neg Bool.false_ne_true, BitVec.toNat_and, hmask, and_two_pow_sub_one_eq_mod,
      mod_eq_of_lt (hbase rfl)]

/-- The conversions of an address are inverse to each other. -/
structure Inverse (r : Ring) (ac64 : Bool) (paddr : U64) : Prop where
  index : ∀ i, r.physAddrToIndex ac64 paddr = .ok (some i) ↔
    i < r.trbs.length ∧ paddr.toNat = r.base.toNat + 16 * i ∧ r.trbPhysPtr ac64 i = paddr
  entry : ∃ entry, r.physAddrToEntry ac64 paddr = .ok entry
  outside : (∀ i < r.trbs.length, paddr.toNat ≠ r.base.toNat + 16 * i) →
    r.physAddrToIndex ac64 paddr = .ok none

/-- **Addresses of slots.** The conversions are inverse exactly if the address is below the ring, or
the ring is aligned and the address is not the one right behind its last slot. -/
theorem inverse_iff (r : Ring) (ac64 : Bool) (paddr : U64)
    (hbase : ac64 = false → r.base.toNat < 2 ^ 32) (haligned : paddr.toNat % 16 = 0) :
    r.Inverse ac64 paddr ↔ (r.base.toNat ≤ paddr.toNat →
      r.base.toNat % 16 = 0 ∧ paddr.toNat ≠ r.base.toNat + 16 * r.trbs.length) := by
  have hphys := physBase_eq hbase
  have hoffset : r.base.toNat ≤ paddr.toNat →
      (paddr - r.base).toNat = paddr.toNat - r.base.toNat := by
    intro h
    bv_omega
  constructor
  · intro inverse hle
    have hok := physAddrToEntry_isOk.mp inverse.entry
    rw [EntryOk, hphys, hoffset hle] at hok
    have := hok hle
    omega
  · intro hcond
    have hentry : r.EntryOk ac64 paddr := by
      rw [EntryOk, hphys]
      intro (hle : r.base.toNat ≤ paddr.toNat)
      have := hcond hle
      rw [hoffset hle]
      omega
    have hindex : (r.physAddrToIndex ac64 paddr = .ok none ∧
          ∀ i < r.trbs.length, paddr.toNat ≠ r.base.toNat + 16 * i) ∨
        ∃ i < r.trbs.length, paddr.toNat = r.base.toNat + 16 * i ∧
          r.physAddrToIndex ac64 paddr = .ok (some i) := by
      unfold physAddrToIndex
      rw [hphys]
      by_cases hbelow : paddr.toNat < r.base.toNat
      · exact .inl ⟨if_pos hbelow, by omega⟩
      · have := hcond (by omega)
        rw [hoffset (by omega), if_neg (show ¬ paddr < r.base from hbelow), if_neg (by omega)]
        by_cases hlt : (paddr.toNat - r.base.toNat) / 16 < r.trbs.length
        · exact .inr ⟨_, hlt, by omega, if_neg (by omega)⟩
        · exact .inl ⟨if_pos (by omega), by omega⟩
    rcases hindex with ⟨hnone, houtside⟩ | ⟨k, hk, haddr, hsome⟩
    · refine ⟨fun i => ?_, physAddrToEntry_isOk.mpr hentry, fun _ => hnone⟩
      rw [hnone]
      exact iff_of_false nofun fun h => houtside i h.1 h.2.1
    · refine ⟨fun i => ?_, physAddrToEntry_isOk.mpr hentry, fun h => absurd haddr (h k hk)⟩
      have hptr : r.trbPhysPtr ac64 k = paddr := by
        rw [trbPhysPtr, hphys, slotAddr]
        bv_omega
      rw [hsome, Except.ok.injEq, some.injEq]
      constructor
      · rintro rfl
        exact ⟨hk, haddr, hptr⟩
      · rintro ⟨-, hi, -⟩
        omega

/-- The fourth slot of a ring of sixteen. -/
theorem inverse_fourth : (new 0x1000 16 true).Inverse true 0x1030 :=
  (inverse_iff (new 0x1000 16 true) true 0x1030 (by decide) (by decide)).mpr (by decide)

/-- Right behind the last slot there is no TRB. -/
theorem not_inverse_end : ¬ (new 0 1 true).Inverse true 16 := by
  intro inverse
  obtain ⟨entry, hentry⟩ := inverse.entry
  cases hentry

end Addresses

end Ring

/-! ### The reader of a link ring -/

/-- The controller's side of a link ring: its dequeue pointer and cycle state. -/
structure Reader where
  dequeue : U64
  cycleState : Bool
deriving DecidableEq, Repr

namespace Reader

/-- The reader starts from the value of `register`: a pointer with the cycle state in
bit 0. -/
def ofRegister (register : U64) : Reader := ⟨register &&& ~~~0xF, register &&& 1 == 1⟩

/-- The TRB that a ring holds at a physical address. -/
def load (ring : Ring) (addr : U64) : Option Trb := ring.trbs[(addr - ring.base).toNat / 16]?

/-- A Link TRB leads to the address it holds, and may toggle the cycle state. -/
def follow (self : Reader) (trb : Trb) : Reader :=
  ⟨trb.readData &&& ~~~0xF, if trb.control &&& 2 = 2 then !self.cycleState else self.cycleState⟩

/-- The next TRB with the reader's cycle bit, if there is one. -/
def fetch (ring : Ring) (self : Reader) : Option (Trb × Reader) := do
  let trb ← load ring self.dequeue
  if trb.cycle = self.cycleState then
    if trb.trbType = TrbType.link.toU8 then
      let self := self.follow trb
      let trb ← load ring self.dequeue
      if trb.cycle = self.cycleState then
        some (trb, { self with dequeue := self.dequeue + 16 })
      else none
    else some (trb, { self with dequeue := self.dequeue + 16 })
  else none

end Reader

/-! ### The driver's side -/

/-- The cycle bit of a lap: set in the first one. -/
def lapCycle (lap : Nat) : Bool := lap % 2 == 0

theorem lapCycle_succ (lap : Nat) : lapCycle (lap + 1) = !lapCycle lap := by
  unfold lapCycle
  rcases mod_two_eq_zero_or_one lap with h | h
  all_goals simp [h, add_mod]

/-- Where a cursor that has passed `k` items of a ring with `m` of them stands: behind
the last one, which for a full lap is the link. -/
def cursor (m k : Nat) : Nat := if k = 0 then 0 else (k - 1) % m + 1

/-- A cursor is at the slot of the next item, or at the link before it. -/
theorem cursor_cases {m : Nat} (hm : 0 < m) (k : Nat) :
    (cursor m k < m ∧ cursor m k = k % m ∧ (k - 1) / m = k / m) ∨
      (0 < k ∧ cursor m k = m ∧ k % m = 0 ∧ k / m = (k - 1) / m + 1) := by
  cases k with
  | zero => exact .inl ⟨hm, by simp [cursor], rfl⟩
  | succ k =>
    have hcursor : cursor m (k + 1) = k % m + 1 := rfl
    rcases succ_lap hm k with ⟨hlt, hmod, hdiv⟩ | ⟨hlast, hmod, hdiv⟩
    · exact .inl ⟨hcursor ▸ hlt, hcursor.trans hmod.symm, hdiv.symm⟩
    · exact .inr ⟨succ_pos k, hcursor.trans hlast, hmod, hdiv⟩

theorem cursor_self {m : Nat} (hm : 0 < m) : cursor m m = m := by
  unfold cursor
  rw [if_neg (by omega), mod_eq_of_lt (by omega)]
  omega

/-- What a link ring of `m + 1` slots holds after the TRBs `ts` have been enqueued. -/
structure Filled (base : U64) (m : Nat) (ts : List Trb) (r : Ring) : Prop where
  isLink : r.link = true
  atBase : r.base = base
  length : r.trbs.length = m + 1
  index : r.i = cursor m ts.length
  cycle : r.cycle = lapCycle ((ts.length - 1) / m)
  recent : ∀ (j : Nat) t, ts[j]? = some t → ts.length ≤ j + m → r.trbs[j % m]? = some t
  fresh : ∀ j < m, ts.length ≤ j → r.trbs[j]? = some .zeroed
  unlinked : ts.length ≤ m → r.trbs[m]? = some .zeroed
  linked : m < ts.length →
    r.trbs[m]? = some (.link base true (lapCycle ((ts.length - 1) / m - 1)))
  marked : ∀ (j : Nat) t, ts[j]? = some t →
    t.cycle = lapCycle (j / m) ∧ t.trbType ≠ TrbType.link.toU8

namespace Filled

variable {base : U64} {m : Nat} {ts : List Trb} {r r' : Ring}

theorem new (base : U64) (m : Nat) : Filled base m [] (Ring.new base (m + 1) true) where
  isLink := rfl
  atBase := rfl
  length := length_replicate
  index := rfl
  cycle := by simp [Ring.new, lapCycle]
  recent := nofun
  fresh := fun j hj _ => by simp [Ring.new, lt_succ_of_lt hj]
  unlinked := fun _ => by simp [Ring.new]
  linked := nofun
  marked := nofun

section

variable (filled : Filled base m ts r) (hm : 0 < m)

include filled hm

/-- The next index: slot and cycle bit of the next TRB. At the end of a lap the link has
been written. -/
theorem nextIndex : ∃ r', r.nextIndex = .ok (ts.length % m, r') ∧ r'.link = true ∧ r'.base = base ∧
      r'.i = ts.length % m + 1 ∧ r'.cycle = lapCycle (ts.length / m) ∧
      r'.trbs.length = m + 1 ∧ (∀ j < m, r'.trbs[j]? = r.trbs[j]?) ∧
      (ts.length < m → r'.trbs[m]? = some .zeroed) ∧
      (m ≤ ts.length → r'.trbs[m]? = some (.link base true (lapCycle (ts.length / m - 1)))) := by
  rcases cursor_cases hm ts.length with ⟨hlt, hslot, hlap⟩ | ⟨hpos, hend, hslot, hlap⟩
  · have hi : r.i = ts.length % m := filled.index.trans hslot
    have hnext := Ring.nextIndex_inside (r := r) (by rw [filled.index, filled.length]; omega)
    refine ⟨{ r with i := r.i + 1 }, ?_, filled.isLink, filled.atBase, congrArg (· + 1) hi, ?_,
      filled.length, fun _ _ => rfl, fun h => filled.unlinked h.le, fun h => ?_⟩
    · rw [hnext, hi]
    · rw [← hlap]
      exact filled.cycle
    · have hne : ts.length ≠ m := by
        intro heq
        rw [heq, cursor_self hm] at hlt
        omega
      rw [← hlap]
      exact filled.linked (by omega)
  · have hi : r.i = m := filled.index.trans hend
    have hnext := Ring.nextIndex_wrap (r := r) filled.isLink (by rw [hi, filled.length])
      (by rw [filled.length]; omega)
    have hle : m ≤ ts.length := le_of_dvd hpos (dvd_of_mod_eq_zero hslot)
    refine ⟨{ r with
      trbs := r.trbs.modify r.i fun _ => .link r.base true r.cycle, i := 1, cycle := !r.cycle },
      ?_, filled.isLink, filled.atBase, ?_, ?_, ?_, ?_, ?_, ?_⟩
    · rw [hnext, hslot]
    · rw [hslot]
    · rw [hlap, lapCycle_succ, ← filled.cycle]
    · simpa using filled.length
    · intro j hj
      exact getElem?_modify_ne _ _ (by omega)
    · intro hlt
      omega
    · intro _
      have hm' : m < r.trbs.length := by
        rw [filled.length]
        exact lt_succ_self m
      simp only [hi, getElem?_modify_eq, getElem?_eq_getElem hm', filled.atBase,
        filled.cycle, hlap]
      rfl

/-- One enqueue: the TRB goes to slot `k % m` with the cycle bit of lap `k / m`. -/
theorem enqueue {write : Trb → Bool → Trb} (cycle_write : ∀ t c, (write t c).cycle = c)
    (not_link : ∀ t c, (write t c).trbType ≠ TrbType.link.toU8) :
    ∃ t r', r.enqueue write = .ok (ts.length % m, r') ∧ r'.trbs[ts.length % m]? = some t ∧
      t.cycle = lapCycle (ts.length / m) ∧ Filled base m (ts ++ [t]) r' := by
  obtain ⟨r₁, hnext, hlink, hbase, hi, hcycle, hlen, hsame, hfresh, hlinked⟩ := filled.nextIndex hm
  have hslot := mod_lt ts.length hm
  have hbound : ts.length % m < r₁.trbs.length := by omega
  let t := write (r₁.trbs[ts.length % m]) r₁.cycle
  have hread : (r₁.trbs.modify (ts.length % m) (write · r₁.cycle))[ts.length % m]? = some t := by
    rw [getElem?_modify_eq, getElem?_eq_getElem hbound]
    rfl
  have hkeep : ∀ j, ts.length % m ≠ j →
      (r₁.trbs.modify (ts.length % m) (write · r₁.cycle))[j]? = r₁.trbs[j]? := fun j hj =>
    getElem?_modify_ne _ _ hj
  have htcycle : t.cycle = lapCycle (ts.length / m) := (cycle_write _ _).trans hcycle
  refine ⟨t, { r₁ with trbs := r₁.trbs.modify (ts.length % m) (write · r₁.cycle) }, ?_, hread,
    htcycle, ?_⟩
  · exact bind_eq_ok.mpr ⟨_, hnext, bind_eq_ok.mpr ⟨_, modifyAt_eq_ok.mpr ⟨hbound, rfl⟩, rfl⟩⟩
  · constructor
    · exact hlink
    · exact hbase
    · simpa using hlen
    · rw [length_append, length_singleton]
      exact hi
    · rw [length_append, length_singleton]
      exact hcycle
    · intro j u hu hnear
      rw [length_append, length_singleton] at hnear
      rcases getElem?_push hu with ⟨hlt, hold⟩ | ⟨rfl, rfl⟩
      · rw [hkeep _ (slot_ne hlt (by omega)).symm, hsame _ (mod_lt j hm)]
        exact filled.recent j u hold (by omega)
      · exact hread
    · intro j hj hle
      rw [length_append, length_singleton] at hle
      have hmod : ts.length % m = ts.length := mod_eq_of_lt (by omega)
      rw [hkeep j (by omega), hsame j hj]
      exact filled.fresh j hj (by omega)
    · intro hle
      rw [length_append, length_singleton] at hle
      rw [hkeep m (by omega)]
      exact hfresh (by omega)
    · intro hlt
      rw [length_append, length_singleton] at hlt
      rw [hkeep m (by omega), length_append, length_singleton, Nat.add_sub_cancel]
      exact hlinked (by omega)
    · intro j u hu
      rcases getElem?_push hu with ⟨-, hold⟩ | ⟨rfl, rfl⟩
      · exact filled.marked j u hold
      · exact ⟨htcycle, not_link _ _⟩

/-- The slot of the next TRB holds the cycle bit of another lap. -/
theorem slot_stale : ∃ t,
    r.trbs[ts.length % m]? = some t ∧ t.cycle ≠ lapCycle (ts.length / m) := by
  by_cases hfirst : ts.length < m
  · refine ⟨.zeroed, ?_, ?_⟩
    · rw [mod_eq_of_lt hfirst]
      exact filled.fresh _ hfirst le_rfl
    · rw [div_eq_of_lt hfirst]
      decide
  · obtain ⟨j, hj⟩ : ∃ j, ts.length = j + m := ⟨ts.length - m, by omega⟩
    obtain ⟨t, ht⟩ : ∃ t, ts[j]? = some t := ⟨_, getElem?_eq_getElem (by omega)⟩
    refine ⟨t, ?_, ?_⟩
    · rw [hj, add_mod_right]
      exact filled.recent j t ht hj.le
    · rw [(filled.marked j t ht).1, hj, add_div_right _ hm, lapCycle_succ]
      simp

/-- After a full lap, the link holds the cycle bit of another lap. -/
theorem link_stale : ∃ t,
    r.trbs[m]? = some t ∧ t.cycle ≠ lapCycle ((ts.length - 1) / m) := by
  by_cases hfirst : ts.length ≤ m
  · refine ⟨.zeroed, filled.unlinked hfirst, ?_⟩
    rw [div_eq_of_lt (by omega)]
    decide
  · refine ⟨_, filled.linked (by omega), ?_⟩
    obtain ⟨lap, hlap⟩ : ∃ lap, (ts.length - 1) / m = lap + 1 :=
      exists_eq_add_one.mpr (div_pos (by omega) hm)
    rw [Trb.cycle_link, hlap, Nat.add_sub_cancel, lapCycle_succ]
    simp

end

end Filled

/-! ### The reader's side -/

/-- A ring of `n` slots lies in memory: `Dma` memory starts at a page. -/
structure Placed (base : U64) (n : Nat) : Prop where
  aligned : base &&& ~~~0xF = base
  fits : base.toNat + 16 * n ≤ 2 ^ 64

theorem slotAddr_zero (base : U64) : Ring.slotAddr base 0 = base := BitVec.add_zero base

theorem slotAddr_succ (base : U64) (i : Nat) :
    Ring.slotAddr base i + 16 = Ring.slotAddr base (i + 1) := by
  unfold Ring.slotAddr
  rw [BitVec.add_assoc, mul_add, BitVec.ofNat_add]
  rfl

namespace Reader

variable {base : U64} {m : Nat} {ts : List Trb} {r : Ring}

/-- The reader after `c` TRBs. -/
def after (base : U64) (m c : Nat) : Reader :=
  ⟨Ring.slotAddr base (cursor m c), lapCycle ((c - 1) / m)⟩

/-- The register of a fresh ring: the first slot, and the cycle bit of the first lap. -/
theorem ofRegister_new (n : Nat) (aligned : base &&& ~~~0xF = base) :
    ofRegister (Ring.new base n true).register = after base m 0 := by
  have hpointer : (base ||| 1) &&& ~~~0xF = base := by
    rw [BitVec.and_or_distrib_right, aligned]
    exact BitVec.or_zero
  have hbit : (base ||| 1) &&& 1 = 1 := by
    ext i hi
    grind
  unfold ofRegister Ring.register Ring.new
  simp only [slotAddr_zero, if_true, hpointer, hbit, after, cursor, Nat.zero_sub, Nat.zero_div]
  rfl

variable {self : Reader} {t : Trb}

/-- A reader at a slot with a TRB of another lap waits. -/
theorem fetch_stale (hload : load r self.dequeue = some t) (hcycle : t.cycle ≠ self.cycleState) :
    self.fetch r = none := by
  simp [fetch, hload, hcycle]

/-- A reader at a link of its lap reads the first slot in the next one. -/
theorem fetch_link (aligned : base &&& ~~~0xF = base)
    (hlink : load r self.dequeue = some (.link base true self.cycleState))
    (hload : load r base = some t) (hcycle : t.cycle = !self.cycleState) :
    self.fetch r = some (t, ⟨base + 16, !self.cycleState⟩) := by
  have hfollow : self.follow (.link base true self.cycleState) = ⟨base, !self.cycleState⟩ := by
    rw [follow, Trb.readData_link, aligned, if_pos (Trb.toggle_link _ _)]
  simp only [fetch, hlink, bind_eq_bind, bind_some, Trb.cycle_link,
    Trb.trbType_link, if_true, hfollow, hload, hcycle]

/-- **What the reader finds.** At most a lap behind, the reader reads the TRB whose turn
it is, and it waits when it has read them all. -/
theorem fetch_after (filled : Filled base m ts r) (hm : 0 < m) (placed : Placed base (m + 1))
    {c : Nat} (hle : c ≤ ts.length) (lag : ts.length ≤ c + m) :
    (after base m c).fetch r = ts[c]?.map fun t => (t, after base m (c + 1)) := by
  have hfits := placed.fits
  have hload : ∀ i ≤ m, load r (Ring.slotAddr base i) = r.trbs[i]? := by
    intro i hi
    have hoffset : (Ring.slotAddr base i - r.base).toNat = 16 * i := by
      rw [filled.atBase, Ring.slotAddr, BitVec.add_comm, BitVec.add_sub_cancel,
        toNat_ofNat_of_lt (by omega)]
    rw [load, hoffset, Nat.mul_div_cancel_left _ (by decide)]
  have hnext : after base m (c + 1) = ⟨Ring.slotAddr base (c % m) + 16, lapCycle (c / m)⟩ := by
    rw [slotAddr_succ]
    rfl
  rcases cursor_cases hm c with ⟨hlt, hslot, hlap⟩ | ⟨hpos, hend, hslot, hlap⟩
  · -- The reader is at the slot of the next TRB.
    have hself : after base m c = ⟨Ring.slotAddr base (c % m), lapCycle (c / m)⟩ := by
      rw [after, hslot, hlap]
    rw [hself, hnext]
    cases hc : ts[c]? with
    | some t =>
      obtain ⟨hcycle, hlink⟩ := filled.marked c t hc
      have hread := (hload _ (by omega)).trans (filled.recent c t hc lag)
      simp [fetch, hread, hcycle, hlink]
    | none =>
      have hall : ts.length = c := le_antisymm (by simpa using hc) hle
      obtain ⟨t, ht, hstale⟩ := filled.slot_stale hm
      rw [hall] at ht hstale
      exact fetch_stale ((hload _ (by omega)).trans ht) hstale
  · -- The reader is at the link.
    have hself : after base m c = ⟨Ring.slotAddr base m, lapCycle ((c - 1) / m)⟩ := by
      rw [after, hend]
    rw [hself, hnext]
    cases hc : ts[c]? with
    | some t =>
      have hlt : c < ts.length := (List.getElem?_eq_some_iff.mp hc).1
      have hc0 : m * (c / m) = c := Nat.mul_div_cancel' (Nat.dvd_of_mod_eq_zero hslot)
      have hmc : m ≤ c := le_of_dvd hpos (dvd_of_mod_eq_zero hslot)
      have hsame : (ts.length - 1) / m = c / m :=
        Nat.div_eq_of_lt_le (by rw [Nat.mul_comm]; omega)
          (by rw [mul_comm, mul_add_one]; omega)
      have hlink := filled.linked (by omega)
      rw [hsame, hlap, Nat.add_sub_cancel] at hlink
      have hfirst := filled.recent c t hc lag
      rw [hslot, ← hload 0 (zero_le m), slotAddr_zero] at hfirst
      have hcycle : t.cycle = !lapCycle ((c - 1) / m) := by
        rw [(filled.marked c t hc).1, hlap, lapCycle_succ]
      rw [hslot, slotAddr_zero, hlap, lapCycle_succ]
      exact fetch_link placed.aligned ((hload m le_rfl).trans hlink) hfirst hcycle
    | none =>
      have hall : ts.length = c := le_antisymm (by simpa using hc) hle
      obtain ⟨t, ht, hstale⟩ := filled.link_stale hm
      rw [hall] at hstale
      exact fetch_stale ((hload m le_rfl).trans ht) hstale

end Reader

/-! ### A link ring as a queue -/

/-- What a caller stores into the TRB that `next` returns: some TRB that is not a link,
with the cycle bit it was given. -/
structure Fill where
  write : Trb → Bool → Trb
  cycle_write : ∀ t c, (write t c).cycle = c
  not_link : ∀ t c, (write t c).trbType ≠ TrbType.link.toU8

/-- A link ring, its reader, and the TRBs that went in and came out. -/
structure Traffic where
  ring : Ring
  reader : Reader
  enqueued : List Trb
  fetched : List Trb

inductive TrafficEvent where
  | enqueue (fill : Fill)
  | fetch

namespace Traffic

/-- The reader starts at the register of the fresh ring. -/
def start (ring : Ring) : Traffic := ⟨ring, .ofRegister ring.register, [], []⟩

def step (s : Traffic) : TrafficEvent → Option Traffic
  | .enqueue fill => do
    let (i, ring) ← (s.ring.enqueue fill.write).toOption
    let trb ← ring.trbs[i]?
    return { s with ring, enqueued := s.enqueued ++ [trb] }
  | .fetch => do
    let (trb, reader) ← s.reader.fetch s.ring
    return { s with reader, fetched := s.fetched ++ [trb] }

/-- The reader is at most the ring's capacity of `n - 1` TRBs behind. -/
def Behind (n : Nat) (s : Traffic) : Prop := s.enqueued.length ≤ s.fetched.length + (n - 1)

variable {base : U64} {m : Nat} {s s' : Traffic} {e : TrafficEvent}

/-- Enqueuing always succeeds. -/
theorem step_enqueue (filled : Filled base m s.enqueued s.ring) (hm : 0 < m) (fill : Fill) :
    ∃ trb ring, s.step (.enqueue fill) =
        some { s with ring, enqueued := s.enqueued ++ [trb] } ∧
      ring.trbs[s.enqueued.length % m]? = some trb ∧
      trb.cycle = lapCycle (s.enqueued.length / m) ∧
      Filled base m (s.enqueued ++ [trb]) ring := by
  obtain ⟨trb, ring, henqueue, hslot, hcycle, filled'⟩ :=
    filled.enqueue hm fill.cycle_write fill.not_link
  refine ⟨trb, ring, ?_, hslot, hcycle, filled'⟩
  simp only [step, henqueue, Except.toOption, bind_eq_bind, bind_some, hslot]
  rfl

theorem step_filled (filled : Filled base m s.enqueued s.ring) (hm : 0 < m)
    (h : s.step e = some s') : Filled base m s'.enqueued s'.ring := by
  cases e with
  | enqueue fill =>
    obtain ⟨trb, ring, hstep, -, -, filled'⟩ := step_enqueue filled hm fill
    cases h.symm.trans hstep
    exact filled'
  | fetch =>
    obtain ⟨⟨trb, reader⟩, -, h⟩ := bind_eq_some_iff.mp h
    cases h
    exact filled

/-- Reader and ring agree: what came out is what went in first. -/
structure InStep (base : U64) (m : Nat) (s : Traffic) : Prop where
  filled : Filled base m s.enqueued s.ring
  reader : s.reader = .after base m s.fetched.length
  order : s.fetched <+: s.enqueued

/-- The reader finds the TRB whose turn it is. -/
theorem InStep.fetch_eq (inv : InStep base m s) (hm : 0 < m) (placed : Placed base (m + 1))
    (behind : Behind (m + 1) s) : s.reader.fetch s.ring =
      s.enqueued[s.fetched.length]?.map fun trb =>
        (trb, .after base m (s.fetched.length + 1)) := by
  rw [inv.reader]
  exact Reader.fetch_after inv.filled hm placed inv.order.length_le behind

theorem step_inStep (inv : InStep base m s) (hm : 0 < m) (placed : Placed base (m + 1))
    (behind : Behind (m + 1) s) (h : s.step e = some s') : InStep base m s' := by
  have filled' := step_filled inv.filled hm h
  cases e with
  | enqueue fill =>
    obtain ⟨trb, ring, hstep, -⟩ := step_enqueue inv.filled hm fill
    cases h.symm.trans hstep
    exact ⟨filled', inv.reader, inv.order.trans (prefix_append _ _)⟩
  | fetch =>
    obtain ⟨⟨trb, reader⟩, hfetch, h⟩ := bind_eq_some_iff.mp h
    cases h
    rw [inv.fetch_eq hm placed behind] at hfetch
    obtain ⟨t, ht, heq⟩ := map_eq_some_iff.mp hfetch
    cases heq
    exact ⟨filled', by simp, snoc_prefix inv.order ht⟩

end Traffic

open Traffic

/-- **A link ring is an unbounded queue.** For a ring of any length `n ≥ 2` and any run
of enqueues and fetches: the `k`-th enqueue takes slot `k % (n - 1)` with the cycle bit
set in every other lap `k / (n - 1)`, the first included; once the last slot has been
passed it holds a link to the ring's base that toggles the cycle state and carries
the cycle bit of the lap it ended; and as long as the reader is never more than
`n - 1` TRBs behind, it has read the TRBs enqueued first, in order, and finds the next
one if there is one. -/
theorem refines_fifo (n : Nat) (hn : 2 ≤ n) (base : U64) (placed : Placed base n)
    (es : List TrafficEvent) (s : Traffic)
    (h : run step (.start (.new base n true)) es = some s) :
    (∃ ring, s.ring.nextIndex = .ok (s.enqueued.length % (n - 1), ring) ∧
      ring.cycle = lapCycle (s.enqueued.length / (n - 1))) ∧
    (∀ fill, ∃ trb s', s.step (.enqueue fill) = some s' ∧ s'.enqueued = s.enqueued ++ [trb] ∧
      s'.ring.trbs[s.enqueued.length % (n - 1)]? = some trb ∧
      trb.cycle = lapCycle (s.enqueued.length / (n - 1))) ∧
    (n - 1 < s.enqueued.length → s.ring.trbs[n - 1]? =
      some (.link base true (lapCycle ((s.enqueued.length - 1) / (n - 1) - 1)))) ∧
    (Throughout step (.start (.new base n true)) (Behind n) es →
      s.fetched <+: s.enqueued ∧
      (s.reader.fetch s.ring).map Prod.fst = s.enqueued[s.fetched.length]?) := by
  obtain ⟨m, rfl⟩ : ∃ m, n = m + 1 := ⟨n - 1, by omega⟩
  have hm : 0 < m := by omega
  have filled : Filled base m s.enqueued s.ring :=
    run_induction (motive := fun _ s => Filled base m s.enqueued s.ring) (Filled.new base m)
      (fun _ _ _ _ _ filled hstep => step_filled filled hm hstep) h
  refine ⟨?_, fun fill => ?_, filled.linked, fun behind => ?_⟩
  · obtain ⟨ring, hnext, -, -, -, hcycle, -⟩ := filled.nextIndex hm
    exact ⟨ring, hnext, hcycle⟩
  · obtain ⟨trb, ring, hstep, hslot, hcycle, -⟩ := step_enqueue filled hm fill
    exact ⟨trb, _, hstep, rfl, hslot, hcycle⟩
  · have start : InStep base m (.start (.new base (m + 1) true)) :=
      ⟨Filled.new base m, Reader.ofRegister_new _ placed.aligned, nil_prefix⟩
    have inv : InStep base m s := invariant_of_along start
      (fun _ _ _ inv behind hstep => step_inStep inv hm placed behind hstep) h
      (along_of_throughout behind)
    refine ⟨inv.order, ?_⟩
    rw [inv.fetch_eq hm placed (behind es prefix_rfl s h), Option.map_map]
    exact map_id'

/-- Storing a No Op command. -/
def Fill.noOpCmd : Fill where
  write _ cycle := .noOpCmd cycle
  cycle_write := fun _ => by decide
  not_link := fun _ => by decide

theorem refines_fifo_three_slots : Placed 0x1000 3 ∧ ∃ s,
    run step (.start (.new 0x1000 3 true))
      [.enqueue .noOpCmd, .fetch, .enqueue .noOpCmd, .enqueue .noOpCmd] = some s ∧
    ∃ ring, s.ring.nextIndex = .ok (s.enqueued.length % 2, ring) ∧
      ring.cycle = lapCycle (s.enqueued.length / 2) :=
  ⟨⟨by decide, by decide⟩, _, rfl,
    (refines_fifo 3 (by decide) 0x1000 ⟨by decide, by decide⟩
      [.enqueue .noOpCmd, .fetch, .enqueue .noOpCmd, .enqueue .noOpCmd] _ rfl).1⟩

end RedoxDrivers.Xhci
