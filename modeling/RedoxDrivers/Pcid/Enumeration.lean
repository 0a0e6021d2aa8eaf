import Mathlib.Data.List.FinRange
import Mathlib.Data.List.Nodup
import RedoxDrivers.Lib.Rust
import RedoxDrivers.Lib.Worklist

/-!
How `pcid` finds the functions on the PCI buses (`pcid/src/main.rs`, `main_inner`).

The buses to look at are in a list that starts with bus 0. Each bus is scanned function by function:
an endpoint is handled at once, and of a bridge the number of the bus behind it is put at the end of
the list. The list does not say which buses were looked at, and nobody looks at the bit that says
whether a device has more than one function.

So a bus is scanned once for each way that leads to it through the bridges, and `enumerates_iff` says
for which topologies that is as it should be.
-/

namespace RedoxDrivers.Pcid

open Lib List

structure Address where
  bus : U8
  device : Fin 32
  function : Fin 8
deriving DecidableEq, Repr

structure FullDeviceId where
  vendorId : U16
  deviceId : U16
  classCode : U8
  subclass : U8
  interface : U8
  revision : U8
deriving DecidableEq, Repr

inductive HeaderType where
  | endpoint
  | pciPciBridge
  | other (ty : U8)
deriving DecidableEq, Repr

/-- What a function says in its configuration space. -/
structure PciFunction where
  id : FullDeviceId
  headerByte : U8
  secondaryBusNumber : U8
  id_ne : ¬ (id.vendorId = 0xffff ∧ id.deviceId = 0xffff)
deriving DecidableEq

namespace PciFunction

variable (fn : PciFunction)

def headerType : HeaderType :=
  let ty := fn.headerByte &&& 0x7f
  if ty = 0 then .endpoint else if ty = 1 then .pciPciBridge else .other ty

/-- The multi-function bit. -/
def multiFunction : Bool := fn.headerByte &&& 0x80 == 0x80

end PciFunction

/-- Function 0 of the same device. -/
def Address.first (a : Address) : Address := { a with function := 0 }

/-- Who answers at which address. A device that answers at all has a function 0. If that one says that
it is alone, then there is nothing at the other numbers, or it answers there too. -/
structure Topology where
  read : Address → Option PciFunction
  first : ∀ a, read a ≠ none → read a.first ≠ none
  single : ∀ a fn, read a.first = some fn → fn.multiFunction = false → read a = none ∨ read a = some fn

/-- What a scan comes across. -/
inductive Found where
  | endpoint (addr : Address) (id : FullDeviceId)
  | bus (number : U8)
deriving DecidableEq, Repr

def Found.endpoint? : Found → Option (Address × FullDeviceId)
  | .endpoint addr id => some (addr, id)
  | .bus _ => none

def Found.bus? : Found → Option U8
  | .endpoint _ _ => none
  | .bus number => some number

/-- What is done about a function, by its header type. -/
def PciFunction.found (fn : PciFunction) (a : Address) : List Found :=
  match fn.headerType with
  | .endpoint => [.endpoint a fn.id]
  | .pciPciBridge => [.bus fn.secondaryBusNumber]
  | .other _ => []

/-- `bus_nums`, `bus_i`, and the calls of `handle_parsed_header`. -/
structure State where
  busNums : List U8
  busI : Nat
  handled : List (Address × FullDeviceId)
deriving DecidableEq, Repr

/-- The buses that were looked at, and those that are still to be. -/
def State.view (s : State) : List U8 × List U8 := (s.busNums.take s.busI, s.busNums.drop s.busI)

namespace Topology

variable (top : Topology)

/-- A read that nobody answers gives all ones. -/
def id (a : Address) : U16 × U16 :=
  match top.read a with
  | some fn => (fn.id.vendorId, fn.id.deviceId)
  | none => (0xffff, 0xffff)

def scanFunction (a : Address) : List Found :=
  if top.id a = (0xffff, 0xffff) then []
  else
    match top.read a with
    | none => []
    | some fn => fn.found a

/-- Without a function 0 the other functions are not looked at. -/
def scanDevice (bus : U8) (device : Fin 32) : List Found :=
  if top.id ⟨bus, device, 0⟩ = (0xffff, 0xffff) then []
  else (List.finRange 8).flatMap fun function => top.scanFunction ⟨bus, device, function⟩

def scanBus (bus : U8) : List Found := (List.finRange 32).flatMap (top.scanDevice bus)

def turn (s : State) (bus : U8) : State where
  busNums := s.busNums ++ (top.scanBus bus).filterMap Found.bus?
  busI := s.busI + 1
  handled := s.handled ++ (top.scanBus bus).filterMap Found.endpoint?

/-- The loop, if it ends within `n` turns and its calls return. -/
def mainLoop : Nat → State → Option State
  | 0, s =>
    match s.busNums[s.busI]? with
    | some _ => none
    | none => some s
  | n + 1, s =>
    match s.busNums[s.busI]? with
    | some bus => mainLoop n (top.turn s bus)
    | none => some s

def start : State := ⟨[0], 0, []⟩

/-! ### What is claimed -/

/-- There is a function of its own at this address. -/
def Implemented (a : Address) : Prop :=
  top.read a ≠ none ∧ (a.function = 0 ∨ ∃ fn, top.read a.first = some fn ∧ fn.multiFunction = true)

/-- Something that says it is an endpoint answers at this address. -/
def AnswersAsEndpoint (a : Address) : Prop := ∃ fn, top.read a = some fn ∧ fn.headerType = .endpoint

/-- A bridge on bus `b` leads to bus `b'`. -/
def Bridged (b b' : U8) : Prop :=
  ∃ a fn, a.bus = b ∧ top.Implemented a ∧ top.read a = some fn ∧ fn.headerType = .pciPciBridge ∧
    fn.secondaryBusNumber = b'

def Reachable (b : U8) : Prop := Relation.ReflTransGen top.Bridged 0 b

/-- The endpoint functions that are to be handled. -/
def Due (a : Address) : Prop := top.Reachable a.bus ∧ top.Implemented a ∧ top.AnswersAsEndpoint a

/-- The loop ends, and handles each endpoint function once and nothing else. A call of
`handle_parsed_header` for the endpoint at an address returns if `returns` holds of the address. -/
def Enumerates (returns : Address → Prop) : Prop :=
  ∃ n s, top.mainLoop n start = some s ∧ (∀ call ∈ s.handled, returns call.1) ∧
    (∀ a, top.Due a → (s.handled.map Prod.fst).count a = 1) ∧
    ∀ a, ¬ top.Due a → (s.handled.map Prod.fst).count a = 0

/-- The buses that are pushed when a bus is scanned. -/
def nextBuses (bus : U8) : List U8 := (top.scanBus bus).filterMap Found.bus?

/-- The buses behind fewer than `k` bridges, once for each way there. -/
def ways (k : Nat) : List U8 := upTo top.nextBuses [0] k

/-- No bus that is reached is behind itself, there is one way only to each bus with an endpoint, and no
endpoint answers at more than its own address. -/
structure Orderly : Prop where
  acyclic : ∀ b, top.Reachable b → ¬ Relation.TransGen top.Bridged b b
  once : ∀ a, top.AnswersAsEndpoint a → ∀ k, (top.ways k).count a.bus ≤ 1
  alone : ∀ a, top.Reachable a.bus → top.AnswersAsEndpoint a → top.Implemented a

/-! ### Scans -/

section Scan

variable {top} {a : Address} {b b' : U8}

theorem id_eq_ones_iff : top.id a = (0xffff, 0xffff) ↔ top.read a = none := by
  unfold id
  cases top.read a with
  | none => simp
  | some fn => simpa using fn.id_ne

theorem scanFunction_none (h : top.read a = none) : top.scanFunction a = [] :=
  if_pos (id_eq_ones_iff.mpr h)

variable {fn : PciFunction}

theorem scanFunction_some (h : top.read a = some fn) : top.scanFunction a = fn.found a := by
  have hid : top.id a ≠ (0xffff, 0xffff) := by
    rw [Ne, id_eq_ones_iff, h]
    exact nofun
  rw [scanFunction, if_neg hid, h]

theorem mem_scanBus {found : Found} : found ∈ top.scanBus b ↔
    ∃ a fn, a.bus = b ∧ top.read a = some fn ∧ found ∈ fn.found a := by
  simp only [scanBus, mem_flatMap, mem_finRange, true_and]
  constructor
  · rintro ⟨device, h⟩
    unfold scanDevice at h
    split at h
    · cases h
    · obtain ⟨function, -, hmem⟩ := mem_flatMap.mp h
      cases hread : top.read ⟨b, device, function⟩ with
      | none =>
        rw [scanFunction_none hread] at hmem
        cases hmem
      | some fn =>
        rw [scanFunction_some hread] at hmem
        exact ⟨_, fn, rfl, hread, hmem⟩
  · rintro ⟨⟨bus, device, function⟩, fn, rfl, hread, hmem⟩
    have hfirst : top.read ⟨bus, device, 0⟩ ≠ none := top.first ⟨bus, device, function⟩ (by simp [hread])
    refine ⟨device, ?_⟩
    rw [scanDevice, if_neg (mt id_eq_ones_iff.mp hfirst)]
    refine mem_flatMap.mpr ⟨function, mem_finRange _, ?_⟩
    rwa [scanFunction_some hread]

theorem bus_mem_found : Found.bus b ∈ fn.found a ↔
    fn.headerType = .pciPciBridge ∧ fn.secondaryBusNumber = b := by
  unfold PciFunction.found
  cases fn.headerType <;> simp [eq_comm]

theorem endpoint_mem_found {addr : Address} {id : FullDeviceId} :
    Found.endpoint addr id ∈ fn.found a ↔ fn.headerType = .endpoint ∧ addr = a ∧ fn.id = id := by
  unfold PciFunction.found
  cases fn.headerType <;> simp [eq_comm]

/-- Who answers at an address is a function of its own, there or at number 0. -/
theorem exists_implemented (h : top.read a = some fn) :
    ∃ a', a'.bus = a.bus ∧ top.Implemented a' ∧ top.read a' = some fn := by
  have hfirst : top.read a.first ≠ none := top.first a (by simp [h])
  obtain ⟨fn₀, hfn₀⟩ := Option.ne_none_iff_exists'.mp hfirst
  cases hmulti : fn₀.multiFunction with
  | true => exact ⟨a, rfl, ⟨by simp [h], Or.inr ⟨fn₀, hfn₀, hmulti⟩⟩, h⟩
  | false =>
    rcases top.single a fn₀ hfn₀ hmulti with hnone | hsame
    · cases hnone.symm.trans h
    · cases hsame.symm.trans h
      exact ⟨a.first, rfl, ⟨hfirst, Or.inl rfl⟩, hfn₀⟩

theorem mem_nextBuses : b' ∈ top.nextBuses b ↔ Found.bus b' ∈ top.scanBus b := by
  rw [nextBuses, mem_filterMap]
  constructor
  · rintro ⟨found, hmem, hbus⟩
    cases found with
    | endpoint => cases hbus
    | bus =>
      cases hbus
      exact hmem
  · intro hmem
    exact ⟨_, hmem, rfl⟩

/-- The edges of the worklist are the bridges. -/
theorem edge_iff_bridged : Edge top.nextBuses b b' ↔ top.Bridged b b' := by
  rw [Edge, mem_nextBuses, mem_scanBus]
  constructor
  · rintro ⟨a, fn, rfl, hread, hmem⟩
    obtain ⟨htype, hsecondary⟩ := bus_mem_found.mp hmem
    obtain ⟨a', hbus, himplemented, hread'⟩ := exists_implemented hread
    exact ⟨a', fn, hbus, himplemented, hread', htype, hsecondary⟩
  · rintro ⟨a, fn, rfl, -, hread, htype, hsecondary⟩
    exact ⟨a, fn, rfl, hread, bus_mem_found.mpr ⟨htype, hsecondary⟩⟩

theorem edge_eq_bridged (top : Topology) : Edge top.nextBuses = top.Bridged := by
  funext b b'
  exact propext edge_iff_bridged

/-- The endpoints that are handled when a bus is scanned. -/
def endpoints (top : Topology) (bus : U8) : List (Address × FullDeviceId) :=
  (top.scanBus bus).filterMap Found.endpoint?

theorem mem_endpoints : a ∈ (top.endpoints b).map Prod.fst ↔ a.bus = b ∧ top.AnswersAsEndpoint a := by
  simp only [endpoints, mem_map, mem_filterMap, mem_scanBus]
  constructor
  · rintro ⟨⟨addr, id⟩, ⟨found, ⟨a', fn, rfl, hread, hmem⟩, hendpoint⟩, rfl⟩
    cases found with
    | bus => cases hendpoint
    | endpoint =>
      cases hendpoint
      obtain ⟨htype, rfl, -⟩ := endpoint_mem_found.mp hmem
      exact ⟨rfl, fn, hread, htype⟩
  · rintro ⟨rfl, fn, hread, htype⟩
    exact ⟨(a, fn.id), ⟨_, ⟨a, fn, rfl, hread, endpoint_mem_found.mpr ⟨htype, rfl, rfl⟩⟩, rfl⟩, rfl⟩

/-- The endpoints that a scan of one address gives. -/
def endpointsAt (top : Topology) (a : Address) : List Address :=
  ((top.scanFunction a).filterMap Found.endpoint?).map Prod.fst

theorem endpointsAt_cases (top : Topology) (a : Address) :
    top.endpointsAt a = [] ∨ top.endpointsAt a = [a] := by
  unfold endpointsAt
  cases hread : top.read a with
  | none =>
    rw [scanFunction_none hread]
    exact Or.inl rfl
  | some fn =>
    rw [scanFunction_some hread, PciFunction.found]
    cases fn.headerType with
    | endpoint => exact Or.inr rfl
    | _ => exact Or.inl rfl

theorem eq_of_mem_endpointsAt {x : Address} (h : x ∈ top.endpointsAt a) : x = a := by
  rcases top.endpointsAt_cases a with hcase | hcase
  · rw [hcase] at h
    cases h
  · rw [hcase] at h
    exact mem_singleton.mp h

theorem map_fst_endpoints (top : Topology) (b : U8) :
    (top.endpoints b).map Prod.fst = (finRange 32).flatMap fun device =>
      if top.id ⟨b, device, 0⟩ = (0xffff, 0xffff) then []
      else (finRange 8).flatMap fun function => top.endpointsAt ⟨b, device, function⟩ := by
  rw [endpoints, scanBus, filterMap_flatMap, map_flatMap]
  refine flatMap_congr fun device _ => ?_
  unfold scanDevice
  split
  · rfl
  · rw [filterMap_flatMap, map_flatMap]
    rfl

/-- A scan comes to each address once. -/
theorem nodup_endpoints (top : Topology) (b : U8) : ((top.endpoints b).map Prod.fst).Nodup := by
  rw [map_fst_endpoints, nodup_flatMap]
  constructor
  · intro device _
    split
    · exact nodup_nil
    · rw [nodup_flatMap]
      constructor
      · intro function _
        rcases top.endpointsAt_cases ⟨b, device, function⟩ with hcase | hcase
        · rw [hcase]
          exact nodup_nil
        · rw [hcase]
          exact nodup_singleton _
      · refine (nodup_finRange 8).pairwise_of_forall_ne fun f _ f' _ hne x hx hx' => hne ?_
        have heq := (eq_of_mem_endpointsAt hx).symm.trans (eq_of_mem_endpointsAt hx')
        exact congrArg Address.function heq
  · refine (nodup_finRange 32).pairwise_of_forall_ne fun d _ d' _ hne x hx hx' => hne ?_
    have hdevice : ∀ d, (x ∈ if top.id ⟨b, d, 0⟩ = (0xffff, 0xffff) then []
        else (finRange 8).flatMap fun function => top.endpointsAt ⟨b, d, function⟩) → x.device = d := by
      intro d hmem
      split at hmem
      · cases hmem
      · obtain ⟨function, -, hmem⟩ := mem_flatMap.mp hmem
        rw [eq_of_mem_endpointsAt hmem]
    exact (hdevice d hx).symm.trans (hdevice d' hx')

end Scan

/-! ### The loop -/

section Loop

variable {top} {s s' : State} {n : Nat}

/-- What was handled comes from the buses that were looked at. -/
def Handles (top : Topology) (s : State) : Prop := s.handled = s.view.1.flatMap top.endpoints

theorem handles_start (top : Topology) : top.Handles start := rfl

theorem view_of_none (h : s.busNums[s.busI]? = none) : s.view.2 = [] :=
  drop_eq_nil_of_le (getElem?_eq_none_iff.mp h)

theorem view_of_some {bus : U8} (h : s.busNums[s.busI]? = some bus) :
    s.view.2 = bus :: s.busNums.drop (s.busI + 1) := by
  obtain ⟨hlt, hbus⟩ := List.getElem?_eq_some_iff.mp h
  rw [State.view, drop_eq_getElem_cons hlt, hbus]

/-- A turn of the loop is one of the worklist. -/
theorem turn_view {bus : U8} (h : s.busNums[s.busI]? = some bus) :
    (top.turn s bus).view = worklist top.nextBuses s.view := by
  obtain ⟨hlt, hbus⟩ := List.getElem?_eq_some_iff.mp h
  have hview : s.view = (s.busNums.take s.busI, bus :: s.busNums.drop (s.busI + 1)) :=
    Prod.ext rfl (view_of_some h)
  have htake : (s.busNums ++ top.nextBuses bus).take (s.busI + 1) = s.busNums.take s.busI ++ [bus] := by
    rw [take_append_of_le_length hlt, take_add_one, h]
    rfl
  have hdrop : (s.busNums ++ top.nextBuses bus).drop (s.busI + 1) =
      s.busNums.drop (s.busI + 1) ++ top.nextBuses bus := drop_append_of_le_length hlt
  rw [hview]
  exact Prod.ext htake hdrop

theorem turn_handles {bus : U8} (h : s.busNums[s.busI]? = some bus) (hs : top.Handles s) :
    top.Handles (top.turn s bus) := by
  have hview : s.view = (s.busNums.take s.busI, bus :: s.busNums.drop (s.busI + 1)) :=
    Prod.ext rfl (view_of_some h)
  rw [Handles, turn_view h, hview]
  simp only [worklist, flatMap_append, flatMap_singleton]
  exact congrArg (· ++ top.endpoints bus) hs

/-- When the loop ends, the worklist is empty. -/
theorem worklist_of_mainLoop (hs : top.Handles s) (h : top.mainLoop n s = some s') :
    top.Handles s' ∧ ∃ m, (worklist top.nextBuses)^[m] s.view = (s'.view.1, []) := by
  induction n generalizing s with
  | zero =>
    cases hbus : s.busNums[s.busI]? with
    | some => simp [mainLoop, hbus] at h
    | none =>
      simp only [mainLoop, hbus, Option.some_inj] at h
      subst h
      exact ⟨hs, 0, Prod.ext rfl (view_of_none hbus)⟩
  | succ n ih =>
    cases hbus : s.busNums[s.busI]? with
    | some =>
      simp only [mainLoop, hbus] at h
      obtain ⟨hs', m, hm⟩ := ih (turn_handles hbus hs) h
      refine ⟨hs', m + 1, ?_⟩
      rw [Function.iterate_succ_apply, ← turn_view hbus]
      exact hm
    | none =>
      simp only [mainLoop, hbus, Option.some_inj] at h
      subst h
      exact ⟨hs, 0, Prod.ext rfl (view_of_none hbus)⟩

/-- The loop ends when the worklist does. -/
theorem mainLoop_of_worklist {done : List U8} (h : (worklist top.nextBuses)^[n] s.view = (done, [])) :
    ∃ s', top.mainLoop n s = some s' := by
  induction n generalizing s with
  | zero =>
    cases hbus : s.busNums[s.busI]? with
    | none => exact ⟨s, by simp [mainLoop, hbus]⟩
    | some =>
      have hnil : s.view.2 = [] := congrArg Prod.snd h
      rw [view_of_some hbus] at hnil
      cases hnil
  | succ n ih =>
    cases hbus : s.busNums[s.busI]? with
    | none => exact ⟨s, by simp [mainLoop, hbus]⟩
    | some =>
      rw [Function.iterate_succ_apply, ← turn_view hbus] at h
      obtain ⟨s', hs'⟩ := ih h
      exact ⟨s', by simpa [mainLoop, hbus] using hs'⟩

/-- The loop ends exactly if the ways through the bridges do, and then it has handled what is on the
buses along them. -/
theorem mainLoop_ends_iff : (∃ n s, top.mainLoop n start = some s) ↔
    ∃ k, level top.nextBuses [0] k = [] := by
  rw [← worklist_ends_iff]
  constructor
  · rintro ⟨n, s, h⟩
    obtain ⟨-, m, hm⟩ := worklist_of_mainLoop (handles_start top) h
    exact ⟨m, _, hm⟩
  · rintro ⟨n, done, h⟩
    obtain ⟨s, hs⟩ := mainLoop_of_worklist (s := start) h
    exact ⟨n, s, hs⟩

theorem handled_of_mainLoop (h : top.mainLoop n start = some s) :
    ∃ k, level top.nextBuses [0] k = [] ∧ s.handled = (top.ways k).flatMap top.endpoints := by
  obtain ⟨hhandles, m, hm⟩ := worklist_of_mainLoop (handles_start top) h
  obtain ⟨k, hk, hdone⟩ := upTo_of_iterate_worklist hm
  refine ⟨k, hk, ?_⟩
  rw [hhandles, hdone]
  rfl

end Loop

/-! ### Counting -/

section Count

variable {top} {a : Address}

/-- An endpoint is handled as often as its bus is scanned. -/
theorem count_handled (buses : List U8) (h : top.AnswersAsEndpoint a) :
    ((buses.flatMap top.endpoints).map Prod.fst).count a = buses.count a.bus := by
  induction buses with
  | nil => rfl
  | cons b buses ih =>
    rw [flatMap_cons, map_append, count_append, ih, count_cons, Nat.add_comm]
    congr 1
    by_cases hbus : b = a.bus
    · subst hbus
      rw [count_eq_one_of_mem (top.nodup_endpoints _) (mem_endpoints.mpr ⟨rfl, h⟩)]
      simp
    · have hnot : a ∉ (top.endpoints b).map Prod.fst := fun hmem => hbus (mem_endpoints.mp hmem).1.symm
      rw [count_eq_zero_of_not_mem hnot]
      simp [hbus]

theorem reachable_iff {k : Nat} (hk : level top.nextBuses [0] k = []) {b : U8} :
    top.Reachable b ↔ b ∈ top.ways k := by
  rw [Reachable, ← edge_eq_bridged]
  exact reach_iff_mem_upTo hk

/-- No bus is on fewer ways when more bridges are allowed. -/
theorem count_ways_le {j k : Nat} (hk : level top.nextBuses [0] k = []) (b : U8) :
    (top.ways j).count b ≤ (top.ways k).count b := by
  rcases Nat.le_total k j with hle | hle
  · exact Nat.le_of_eq (congrArg (count b) (upTo_eq_of_nil hk hle))
  · exact (upTo_initial hle).sublist.count_le b

instance : Finite U8 := Finite.of_injective BitVec.toFin fun _ _ h => BitVec.eq_of_toFin_eq h

theorem acyclic_iff (top : Topology) : (∃ k, level top.nextBuses [0] k = []) ↔
    ∀ b, top.Reachable b → ¬ Relation.TransGen top.Bridged b b := by
  rw [exists_level_nil_iff, edge_eq_bridged]
  rfl

end Count

theorem acyclic_of_enumerates {top : Topology} {returns : Address → Prop} (h : top.Enumerates returns) :
    ∀ b, top.Reachable b → ¬ Relation.TransGen top.Bridged b b := by
  obtain ⟨n, s, hs, -⟩ := h
  exact top.acyclic_iff.mp (mainLoop_ends_iff.mp ⟨n, s, hs⟩)

/-- The buses are enumerated as they should be exactly in an orderly topology, if the calls for its
endpoints return. -/
theorem enumerates_iff (top : Topology) (returns : Address → Prop) :
    top.Enumerates returns ↔ top.Orderly ∧ ∀ a, top.Due a → returns a := by
  constructor
  · intro h
    refine ⟨⟨acyclic_of_enumerates h, ?_, ?_⟩, ?_⟩
    · obtain ⟨n, s, hs, -, hdue, hother⟩ := h
      obtain ⟨k, hk, hhandled⟩ := handled_of_mainLoop hs
      intro a ha j
      refine Nat.le_trans (count_ways_le hk a.bus) ?_
      rw [← count_handled (top.ways k) ha, ← hhandled]
      by_cases hd : top.Due a
      · exact Nat.le_of_eq (hdue a hd)
      · exact (hother a hd).trans_le (Nat.zero_le 1)
    · obtain ⟨n, s, hs, -, -, hother⟩ := h
      obtain ⟨k, hk, hhandled⟩ := handled_of_mainLoop hs
      intro a hreach ha
      by_contra himplemented
      have hzero := hother a fun hd => himplemented hd.2.1
      rw [hhandled, count_handled (top.ways k) ha, count_eq_zero] at hzero
      exact hzero ((reachable_iff hk).mp hreach)
    · obtain ⟨n, s, hs, hreturns, hdue, -⟩ := h
      intro a hd
      have hmem : a ∈ s.handled.map Prod.fst := by
        rw [← count_pos_iff, hdue a hd]
        exact Nat.one_pos
      obtain ⟨call, hcall, rfl⟩ := mem_map.mp hmem
      exact hreturns call hcall
  · rintro ⟨h, hreturns⟩
    obtain ⟨n, s, hs⟩ := mainLoop_ends_iff.mpr (top.acyclic_iff.mpr h.acyclic)
    obtain ⟨k, hk, hhandled⟩ := handled_of_mainLoop hs
    have hcalls : ∀ a ∈ s.handled.map Prod.fst, top.Due a := by
      intro a hmem
      rw [hhandled, map_flatMap] at hmem
      obtain ⟨b, hb, hend⟩ := mem_flatMap.mp hmem
      obtain ⟨rfl, ha⟩ := mem_endpoints.mp hend
      have hreach := (reachable_iff hk).mpr hb
      exact ⟨hreach, h.alone a hreach ha, ha⟩
    refine ⟨n, s, hs, fun call hcall => hreturns _ (hcalls _ (mem_map_of_mem hcall)), ?_, fun a hnot =>
      count_eq_zero_of_not_mem fun hmem => hnot (hcalls a hmem)⟩
    rintro a ⟨hreach, himplemented, ha⟩
    rw [hhandled, count_handled (top.ways k) ha]
    exact Nat.le_antisymm (h.once a ha k) (count_pos_iff.mpr ((reachable_iff hk).mp hreach))

/-- A bridge on bus 0 that nobody has configured. -/
def unconfiguredBridge : PciFunction := ⟨⟨0x8086, 0x244e, 6, 4, 0, 0⟩, 1, 0, by decide⟩

def oneBridge : Topology where
  read a := if a = ⟨0, 0, 0⟩ then some unconfiguredBridge else none
  first a h := by
    have ha : a = ⟨0, 0, 0⟩ := by
      by_contra hne
      exact h (if_neg hne)
    rw [ha]
    exact nofun
  single a fn h _ := by
    by_cases ha : a = ⟨0, 0, 0⟩
    · rw [ha] at h ⊢
      exact Or.inr h
    · exact Or.inl (if_neg ha)

/-- Bus 0 is behind itself, and the loop never ends. -/
theorem oneBridge_not_enumerates : ¬ oneBridge.Enumerates fun _ => True := by
  intro h
  have hbridged : oneBridge.Bridged 0 0 :=
    ⟨⟨0, 0, 0⟩, unconfiguredBridge, rfl, ⟨nofun, Or.inl rfl⟩, rfl, by decide, rfl⟩
  exact acyclic_of_enumerates h 0 Relation.ReflTransGen.refl (Relation.TransGen.single hbridged)

end Topology

end RedoxDrivers.Pcid
