import RedoxDrivers.Xhci.Configured

/-!
The drivers of USB classes and how xhcid understands them (`storage/usbscsid/src/main.rs` and
`protocol/bot.rs`, `input/usbhidd/src/main.rs`).

A driver looks through the descriptors of the device for an interface it can use. It asks xhcid for the
configuration with that interface, and opens endpoints of the interface by their number. xhcid takes
the configuration in a request for an index, and counts endpoints through all interfaces of the
configuration.

usbhidd sends the index, and counts the endpoints it passes over, in other configurations as well.
usbscsid sends the value of the configuration, and counts in the interface. `understood_iff` says for
which descriptors xhcid understands them right.
-/

namespace RedoxDrivers.Xhci

open Lib Scheme List Option Nat

/-- An endpoint that a driver opens: its place in the interface, and the number it is opened by. -/
structure Opened where
  position : Nat
  number : U8
deriving DecidableEq, Repr

/-- What a driver has chosen: where in the descriptors it found the configuration and the interface, the
request it sends, and the endpoints it opens. The places are not all known to the drivers. -/
structure Choice where
  confIdx : Nat
  conf : ConfDesc
  ifIdx : Nat
  ifDesc : IfDesc
  req : ConfigureEndpointsReq
  opened : List Opened
deriving DecidableEq, Repr

/-- The endpoints of a configuration that come before those of an interface. -/
def ConfDesc.before (conf : ConfDesc) (ifIdx : Nat) : List EndpDesc :=
  (conf.interfaceDescs.take ifIdx).flatMap IfDesc.endpoints

/-! ### usbscsid -/

namespace Usbscsid

def isSuitable (ifDesc : IfDesc) : Bool :=
  ifDesc.class_ == 8 && ifDesc.subClass == 6 && ifDesc.protocol == 0x50

/-- The first suitable interface of a configuration, from the place `i` on. -/
def findInterface : Nat → List IfDesc → Option (Nat × IfDesc)
  | _, [] => none
  | i, ifDesc :: rest => if isSuitable ifDesc then some (i, ifDesc) else findInterface (i + 1) rest

/-- The first configuration with a suitable interface, from the place `i` on. -/
def findConfig : Nat → List ConfDesc → Option (Nat × ConfDesc × Nat × IfDesc)
  | _, [] => none
  | i, conf :: rest =>
    match findInterface 0 conf.interfaceDescs with
    | some (ifIdx, ifDesc) => some (i, conf, ifIdx, ifDesc)
    | none => findConfig (i + 1) rest

/-- The first endpoint of a direction, with its number. -/
def endpNum (ifDesc : IfDesc) (direction : EndpDirection) : Except Fault Opened := do
  let position ← unwrap (ifDesc.endpoints.findIdx? fun endp => endp.direction == direction)
  return ⟨position, BitVec.ofNat 8 (position + 1)⟩

/-- `BulkOnlyTransport::init`: both numbers are found before an endpoint is opened. -/
def init (ifDesc : IfDesc) : Except Fault (List Opened) := do
  let bulkIn ← endpNum ifDesc .in_
  let bulkOut ← endpNum ifDesc .out
  return [bulkIn, bulkOut]

/-- The request is sent before `init`, which may panic. -/
def choose (dev : DevDesc) : Except Fault Choice := do
  let (confIdx, conf, ifIdx, ifDesc) ← unwrap (findConfig 0 dev.configDescs)
  return {
    confIdx, conf, ifIdx, ifDesc
    req := ⟨conf.configurationValue, some ifDesc.number, some ifDesc.alternateSetting⟩
    opened := (init ifDesc).toOption.getD [] }

/-- The value of the configuration is its index, and no interface before the chosen one has
endpoints. -/
def Fits (c : Choice) : Prop :=
  c.conf.configurationValue.toNat = c.confIdx ∧
    ∀ endp ∈ c.opened,
      (∀ ifDesc ∈ c.conf.interfaceDescs.take c.ifIdx, ifDesc.endpoints = []) ∧ endp.position < 255

instance (c : Choice) : Decidable (Fits c) := inferInstanceAs (Decidable (_ ∧ _))

end Usbscsid

/-! ### usbhidd -/

namespace Usbhidd

def isInterruptIn (endp : EndpDesc) : Bool := endp.ty == .interrupt && endp.direction == .in_

/-- The first interrupt input of an interface, with its place and the value of `endp_count` there, and
the value of `endp_count` after the search. -/
def findEndpoint : Nat → Nat → List EndpDesc → Option (Nat × Nat) × Nat
  | _, endpCount, [] => (none, endpCount)
  | i, endpCount, endp :: rest =>
    if isInterruptIn endp then (some (i, endpCount + 1), endpCount + 1)
    else findEndpoint (i + 1) (endpCount + 1) rest

/-- An interface with its place, and the endpoint that is used if there is one. -/
structure Found where
  ifIdx : Nat
  ifDesc : IfDesc
  endp : Option (Nat × Nat)
deriving DecidableEq, Repr

variable (dev : DevDesc) (interfaceNum : U8)

/-- The first interface with the number and a HID descriptor. An interface with the number and without
a HID descriptor is searched for an endpoint all the same. -/
def findInterface : Nat → Nat → List IfDesc → Option Found × Nat
  | _, endpCount, [] => (none, endpCount)
  | i, endpCount, ifDesc :: rest =>
    if ifDesc.number = interfaceNum then
      let (endp, endpCount) := findEndpoint 0 endpCount ifDesc.endpoints
      match ifDesc.hidDescs.head? with
      | some _ => (some ⟨i, ifDesc, endp⟩, endpCount)
      | none => findInterface (i + 1) endpCount rest
    else findInterface (i + 1) (endpCount + ifDesc.endpoints.length) rest

/-- The first configuration with such an interface. `endp_count` is not reset. -/
def findConfig : Nat → Nat → List ConfDesc → Option (Nat × ConfDesc × Found)
  | _, _, [] => none
  | i, endpCount, conf :: rest =>
    match findInterface interfaceNum 0 endpCount conf.interfaceDescs with
    | (some found, _) => some (i, conf, found)
    | (none, endpCount) => findConfig (i + 1) endpCount rest

def choose : Except Fault Choice := do
  let (confNum, conf, found) ← unwrap (findConfig interfaceNum 0 0 dev.configDescs)
  return {
    confIdx := confNum
    conf
    ifIdx := found.ifIdx
    ifDesc := found.ifDesc
    req := ⟨BitVec.ofNat 8 confNum, some interfaceNum, some found.ifDesc.alternateSetting⟩
    opened := (found.endp.map fun endp => ⟨endp.1, BitVec.ofNat 8 endp.2⟩).toList }

/-- The endpoints of an interface that are counted when it is passed over. -/
def passed (ifDesc : IfDesc) : Nat :=
  if ifDesc.number = interfaceNum then
    ((ifDesc.endpoints.findIdx? isInterruptIn).map (· + 1)).getD ifDesc.endpoints.length
  else ifDesc.endpoints.length

def passedIn : List IfDesc → Nat
  | [] => 0
  | ifDesc :: rest => passed interfaceNum ifDesc + passedIn rest

def passedAll : List ConfDesc → Nat
  | [] => 0
  | conf :: rest => passedIn interfaceNum conf.interfaceDescs + passedAll rest

/-- The index of the configuration and the number of the endpoint are bytes, and of the endpoints
before the chosen interface as many were counted as the configuration has there, up to the wrap. -/
def Fits (c : Choice) : Prop :=
  c.confIdx < 256 ∧
    ∀ endp ∈ c.opened,
      (c.conf.before c.ifIdx).length + endp.position < 255 ∧
        (passedAll interfaceNum (dev.configDescs.take c.confIdx) +
          passedIn interfaceNum (c.conf.interfaceDescs.take c.ifIdx)) % 256 =
          (c.conf.before c.ifIdx).length % 256

instance (c : Choice) : Decidable (Fits dev interfaceNum c) :=
  inferInstanceAs (Decidable (_ ∧ _))

end Usbhidd

/-! ### What xhcid understands -/

/-- xhcid configures what the driver has chosen, and takes the numbers of its endpoints for them. -/
structure Understood (dev : DevDesc) (c : Choice) : Prop where
  index : c.req.configDesc.toNat = c.confIdx
  configures : ∀ p out (s : Scheme.PortState) prepared, s.devDesc = some dev →
    prepare p out s c.req = .ok prepared →
    prepared.configurationValue = c.conf.configurationValue ∧
      countAll p c.conf.endpoints = .ok (prepared.count, prepared.entries)
  endpoints : ∀ p out (s : Scheme.PortState), s.devDesc = some dev →
    (configureEndpointsOnce p out s c.req).2.endpoints = c.conf.endpoints
  number : ∀ endp ∈ c.opened,
    endp.number.toNat = (c.conf.before c.ifIdx).length + endp.position + 1
  denotes : ∀ p out (s : Scheme.PortState), s.devDesc = some dev → ∀ endp ∈ c.opened,
    ∃ desc, c.ifDesc.endpoints[endp.position]? = some desc ∧
      (configureEndpointsOnce p out s c.req).2.transferEndp p endp.number = .ok desc

/-- The choice is among the descriptors of the device. -/
structure Present (dev : DevDesc) (c : Choice) : Prop where
  conf : dev.configDescs[c.confIdx]? = some c.conf
  interface : c.conf.interfaceDescs[c.ifIdx]? = some c.ifDesc
  opened : ∀ endp ∈ c.opened, endp.position < c.ifDesc.endpoints.length

section Understood

variable {dev : DevDesc} {c : Choice} {p : Profile} {out : Outcomes} {s : Scheme.PortState}
  {conf : ConfDesc}

/-- The configuration that a request is for. -/
theorem prepare_eq_ok {prepared : Prepared} (hdev : s.devDesc = some dev)
    (hconf : dev.configDescs[c.req.configDesc.toNat]? = some conf)
    (h : prepare p out s c.req = .ok prepared) :
    prepared.configurationValue = conf.configurationValue ∧
      countAll p conf.endpoints = .ok (prepared.count, prepared.entries) := by
  unfold prepare at h
  rw [hdev, unwrap, checked_ok, ok_bind, hconf, okOr, ok_bind] at h
  obtain ⟨⟨count, entries⟩, hcount, h⟩ := bind_eq_ok.mp h
  dsimp only at h
  split at h
  · cases h
  · obtain ⟨speed, -, h⟩ := bind_eq_ok.mp h
    cases h
    exact ⟨rfl, checked_eq_ok.mp hcount⟩

theorem endpoints_configured (hdev : s.devDesc = some dev)
    (hconf : dev.configDescs[c.req.configDesc.toNat]? = some conf) :
    (configureEndpointsOnce p out s c.req).2.endpoints = conf.endpoints := by
  have hkeeps : (configureEndpointsOnce p out s c.req).2.devDesc = s.devDesc ∧
      (configureEndpointsOnce p out s c.req).2.cfgIdx = some c.req.configDesc :=
    configureEndpointsOnce_keeps
  unfold Scheme.PortState.endpoints
  rw [hkeeps.1, hkeeps.2, hdev]
  simp [hconf]

/-- The endpoints of an interface in those of the configuration. -/
theorem getElem?_endpoints {ifDesc : IfDesc} {ifIdx pos : Nat}
    (hif : conf.interfaceDescs[ifIdx]? = some ifDesc) (hpos : pos < ifDesc.endpoints.length) :
    conf.endpoints[(conf.before ifIdx).length + pos]? = ifDesc.endpoints[pos]? := by
  obtain ⟨hlt, hget⟩ := List.getElem?_eq_some_iff.mp hif
  have hsplit : conf.endpoints = conf.before ifIdx ++
      (ifDesc.endpoints ++ (conf.interfaceDescs.drop (ifIdx + 1)).flatMap IfDesc.endpoints) := by
    rw [ConfDesc.endpoints, ConfDesc.before, ← flatMap_cons, ← flatMap_append, ← hget,
      cons_getElem_drop_succ, take_append_drop]
  rw [hsplit, getElem?_append_right (Nat.le_add_right ..), Nat.add_sub_cancel_left,
    getElem?_append_left hpos]

/-- The index and the numbers decide. -/
theorem understood_iff_numbers (h : Present dev c) : Understood dev c ↔
    c.req.configDesc.toNat = c.confIdx ∧ ∀ endp ∈ c.opened,
      endp.number.toNat = (c.conf.before c.ifIdx).length + endp.position + 1 := by
  refine ⟨fun hu => ⟨hu.index, hu.number⟩, fun ⟨hindex, hnumber⟩ => ?_⟩
  have hconf : dev.configDescs[c.req.configDesc.toNat]? = some c.conf := by rw [hindex, h.conf]
  refine ⟨hindex, fun p out s prepared hdev => prepare_eq_ok hdev hconf,
    fun p out s hdev => endpoints_configured hdev hconf, hnumber, fun p out s hdev endp hmem => ?_⟩
  have hpos := h.opened endp hmem
  have hnum := hnumber endp hmem
  have hne : endp.number ≠ 0 := by
    intro hzero
    simp [hzero] at hnum
  refine ⟨c.ifDesc.endpoints[endp.position], getElem?_eq_getElem hpos, ?_⟩
  rw [Scheme.PortState.transferEndp_eq hne, endpoints_configured hdev hconf, hnum, Nat.add_sub_cancel,
    getElem?_endpoints h.interface hpos, getElem?_eq_getElem hpos]
  rfl

end Understood

/-! ### The choices of usbscsid -/

namespace Usbscsid

variable {dev : DevDesc} {c : Choice} {ifDesc : IfDesc} {endp : Opened}

theorem findInterface_eq_some {ifDescs : List IfDesc} {i ifIdx : Nat}
    (h : findInterface i ifDescs = some (ifIdx, ifDesc)) :
    ∃ k, ifIdx = i + k ∧ ifDescs[k]? = some ifDesc := by
  induction ifDescs generalizing i with
  | nil => cases h
  | cons first rest ih =>
    unfold findInterface at h
    split at h
    · cases h
      exact ⟨0, rfl, rfl⟩
    · obtain ⟨k, rfl, hk⟩ := ih h
      exact ⟨k + 1, by omega, hk⟩

theorem findConfig_eq_some {confs : List ConfDesc} {i confIdx ifIdx : Nat} {conf : ConfDesc}
    (h : findConfig i confs = some (confIdx, conf, ifIdx, ifDesc)) :
    ∃ k, confIdx = i + k ∧ confs[k]? = some conf ∧
      findInterface 0 conf.interfaceDescs = some (ifIdx, ifDesc) := by
  induction confs generalizing i with
  | nil => cases h
  | cons first rest ih =>
    unfold findConfig at h
    cases hfirst : findInterface 0 first.interfaceDescs with
    | some =>
      rw [hfirst] at h
      cases h
      exact ⟨0, rfl, rfl, hfirst⟩
    | none =>
      rw [hfirst] at h
      obtain ⟨k, rfl, hk⟩ := ih h
      exact ⟨k + 1, by omega, hk⟩

theorem endpNum_eq_ok {direction : EndpDirection} (h : endpNum ifDesc direction = .ok endp) :
    endp.position < ifDesc.endpoints.length ∧ endp.number = BitVec.ofNat 8 (endp.position + 1) := by
  obtain ⟨position, hposition, h⟩ := bind_eq_ok.mp h
  cases h
  exact ⟨(findIdx?_eq_some_iff_getElem.mp (unwrap_eq_ok.mp hposition)).1, rfl⟩

theorem mem_opened (h : endp ∈ (init ifDesc).toOption.getD []) :
    endp.position < ifDesc.endpoints.length ∧ endp.number = BitVec.ofNat 8 (endp.position + 1) := by
  cases hinit : init ifDesc with
  | error =>
    rw [hinit] at h
    cases h
  | ok =>
    rw [hinit] at h
    obtain ⟨bulkIn, hin, hinit⟩ := bind_eq_ok.mp hinit
    obtain ⟨bulkOut, hout, hinit⟩ := bind_eq_ok.mp hinit
    cases hinit
    rcases mem_pair.mp h with rfl | rfl
    · exact endpNum_eq_ok hin
    · exact endpNum_eq_ok hout

theorem choose_spec (h : choose dev = .ok c) : Present dev c ∧
    c.req.configDesc = c.conf.configurationValue ∧
      ∀ endp ∈ c.opened, endp.number = BitVec.ofNat 8 (endp.position + 1) := by
  obtain ⟨⟨confIdx, conf, ifIdx, ifDesc⟩, hfind, h⟩ := bind_eq_ok.mp h
  cases h
  obtain ⟨k, rfl, hconf, hif⟩ := findConfig_eq_some (unwrap_eq_ok.mp hfind)
  obtain ⟨j, rfl, hj⟩ := findInterface_eq_some hif
  refine ⟨⟨?_, ?_, fun _ hmem => (mem_opened hmem).1⟩, rfl, fun _ hmem => (mem_opened hmem).2⟩
  · rw [zero_add, hconf]
  · show conf.interfaceDescs[0 + j]? = some ifDesc
    rw [zero_add, hj]

theorem understood_iff (h : choose dev = .ok c) : Understood dev c ↔ Fits c := by
  obtain ⟨hpresent, hreq, hnum⟩ := choose_spec h
  rw [understood_iff_numbers hpresent, Fits, hreq]
  refine and_congr_right fun _ => forall₂_congr fun endp hmem => ?_
  have hnone : (∀ ifDesc ∈ c.conf.interfaceDescs.take c.ifIdx, ifDesc.endpoints = []) ↔
      (c.conf.before c.ifIdx).length = 0 := by
    rw [ConfDesc.before, length_eq_zero_iff, flatMap_eq_nil_iff]
  rw [hnone, hnum endp hmem, BitVec.toNat_ofNat]
  omega

end Usbscsid

/-! ### The choices of usbhidd -/

namespace Usbhidd

variable {dev : DevDesc} {c : Choice} {interfaceNum : U8} {i endpCount : Nat} {found : Found}

/-- The endpoints that are counted in an interface that is searched. -/
theorem findEndpoint_eq (i endpCount : Nat) (endps : List EndpDesc) : findEndpoint i endpCount endps =
    ((endps.findIdx? isInterruptIn).map fun k => (i + k, endpCount + k + 1),
      endpCount + ((endps.findIdx? isInterruptIn).map (· + 1)).getD endps.length) := by
  induction endps generalizing i endpCount with
  | nil => rfl
  | cons endp rest ih =>
    rw [findEndpoint, findIdx?_cons]
    cases isInterruptIn endp with
    | true => rfl
    | false =>
      rw [if_neg (by decide), if_neg (by decide), ih]
      cases rest.findIdx? isInterruptIn with
      | none | some =>
        simp
        omega

/-- An interface is found, or passed over. -/
theorem findInterface_cons (interfaceNum : U8) (i endpCount : Nat) (ifDesc : IfDesc)
    (rest : List IfDesc) : (∃ endp count, findInterface interfaceNum i endpCount (ifDesc :: rest) =
        (some ⟨i, ifDesc, endp⟩, count) ∧
      endp = (ifDesc.endpoints.findIdx? isInterruptIn).map fun pos => (pos, endpCount + pos + 1)) ∨
    findInterface interfaceNum i endpCount (ifDesc :: rest) =
      findInterface interfaceNum (i + 1) (endpCount + passed interfaceNum ifDesc) rest := by
  rw [findInterface, passed]
  by_cases hnumber : ifDesc.number = interfaceNum
  · rw [if_pos hnumber, if_pos hnumber, findEndpoint_eq]
    cases ifDesc.hidDescs.head? with
    | some => exact .inl ⟨_, _, rfl, by simp⟩
    | none => exact .inr rfl
  · rw [if_neg hnumber, if_neg hnumber]
    exact .inr rfl

theorem findInterface_none {ifDescs : List IfDesc}
    (h : (findInterface interfaceNum i endpCount ifDescs).1 = none) :
    (findInterface interfaceNum i endpCount ifDescs).2 = endpCount + passedIn interfaceNum ifDescs := by
  induction ifDescs generalizing i endpCount with
  | nil => rfl
  | cons ifDesc rest ih =>
    rcases findInterface_cons interfaceNum i endpCount ifDesc rest with ⟨_, _, heq, -⟩ | heq
    · rw [heq] at h
      cases h
    · rw [heq] at h ⊢
      rw [ih h, passedIn, add_assoc]

theorem findInterface_some {ifDescs : List IfDesc}
    (h : (findInterface interfaceNum i endpCount ifDescs).1 = some found) :
    ∃ k, found.ifIdx = i + k ∧ ifDescs[k]? = some found.ifDesc ∧
      found.endp = (found.ifDesc.endpoints.findIdx? isInterruptIn).map fun pos =>
        (pos, endpCount + passedIn interfaceNum (ifDescs.take k) + pos + 1) := by
  induction ifDescs generalizing i endpCount with
  | nil => cases h
  | cons ifDesc rest ih =>
    rcases findInterface_cons interfaceNum i endpCount ifDesc rest with ⟨_, _, heq, hendp⟩ | heq
    · rw [heq] at h
      cases h
      exact ⟨0, rfl, rfl, hendp⟩
    · rw [heq] at h
      obtain ⟨k, hidx, hget, hendp⟩ := ih h
      refine ⟨k + 1, by omega, hget, ?_⟩
      rw [hendp, take_succ_cons, passedIn]
      simp only [add_assoc]

theorem findConfig_eq_some {confs : List ConfDesc} {confNum : Nat} {conf : ConfDesc}
    (h : findConfig interfaceNum i endpCount confs = some (confNum, conf, found)) :
    ∃ k, confNum = i + k ∧ confs[k]? = some conf ∧
      (findInterface interfaceNum 0 (endpCount + passedAll interfaceNum (confs.take k))
        conf.interfaceDescs).1 = some found := by
  induction confs generalizing i endpCount with
  | nil => cases h
  | cons first rest ih =>
    unfold findConfig at h
    rcases hfirst : findInterface interfaceNum 0 endpCount first.interfaceDescs with ⟨_ | found', count⟩
    · have hnone : (findInterface interfaceNum 0 endpCount first.interfaceDescs).1 = none := by
        rw [hfirst]
      have hcount := findInterface_none hnone
      rw [hfirst] at h hcount
      obtain ⟨k, rfl, hget, hfound⟩ := ih h
      refine ⟨k + 1, by omega, hget, ?_⟩
      rw [take_succ_cons, passedAll, ← add_assoc, ← hcount]
      exact hfound
    · rw [hfirst] at h
      cases h
      refine ⟨0, rfl, rfl, ?_⟩
      rw [take_zero, passedAll, add_zero, hfirst]

theorem choose_spec (h : choose dev interfaceNum = .ok c) : Present dev c ∧
    c.req.configDesc = BitVec.ofNat 8 c.confIdx ∧
      ∀ endp ∈ c.opened, endp.number = BitVec.ofNat 8
        (passedAll interfaceNum (dev.configDescs.take c.confIdx) +
          passedIn interfaceNum (c.conf.interfaceDescs.take c.ifIdx) + endp.position + 1) := by
  obtain ⟨⟨confNum, conf, found⟩, hfind, h⟩ := bind_eq_ok.mp h
  cases h
  obtain ⟨k, hk, hconf, hfound⟩ := findConfig_eq_some (unwrap_eq_ok.mp hfind)
  obtain ⟨j, hj, hif, hendp⟩ := findInterface_some hfound
  rw [zero_add] at hk hj
  subst hk
  -- The endpoint that is opened, if there is one.
  have hopened : ∀ endp : Opened, endp ∈
      (found.endp.map fun endp => (⟨endp.1, BitVec.ofNat 8 endp.2⟩ : Opened)).toList →
      endp.position < found.ifDesc.endpoints.length ∧ endp.number = BitVec.ofNat 8
        (passedAll interfaceNum (dev.configDescs.take confNum) +
          passedIn interfaceNum (conf.interfaceDescs.take found.ifIdx) + endp.position + 1) := by
    intro endp hmem
    rw [hendp] at hmem
    rw [hj]
    cases hidx : found.ifDesc.endpoints.findIdx? isInterruptIn with
    | none => simp [hidx] at hmem
    | some =>
      simp only [hidx, map_some, toList_some, mem_singleton] at hmem
      subst hmem
      exact ⟨(findIdx?_eq_some_iff_getElem.mp hidx).1, by rw [zero_add]⟩
  refine ⟨⟨hconf, ?_, fun endp hmem => (hopened endp hmem).1⟩, rfl,
    fun endp hmem => (hopened endp hmem).2⟩
  rw [hj, hif]

theorem understood_iff (h : choose dev interfaceNum = .ok c) :
    Understood dev c ↔ Fits dev interfaceNum c := by
  obtain ⟨hpresent, hreq, hnum⟩ := choose_spec h
  rw [understood_iff_numbers hpresent, Fits, hreq, BitVec.toNat_ofNat]
  refine and_congr (by omega) (forall₂_congr fun endp hmem => ?_)
  rw [hnum endp hmem, BitVec.toNat_ofNat]
  omega

end Usbhidd

/-- **How xhcid understands the class drivers.** For every device, xhcid configures the configuration that
usbscsid or usbhidd has chosen and takes the numbers of the endpoints for those that the driver means
exactly in these cases. usbscsid: the value of the configuration is its index, and no interface before
the chosen one has endpoints. usbhidd: as many endpoints were counted before the chosen interface as
the configuration has there. -/
theorem class_drivers_understood_iff (dev : DevDesc) :
    (∀ c, Usbscsid.choose dev = .ok c → (Understood dev c ↔ Usbscsid.Fits c)) ∧
      ∀ interfaceNum c, Usbhidd.choose dev interfaceNum = .ok c →
        (Understood dev c ↔ Usbhidd.Fits dev interfaceNum c) :=
  ⟨fun _ h => Usbscsid.understood_iff h, fun _ _ h => Usbhidd.understood_iff h⟩

/-! ### Devices -/

section Devices

/-- A device with these values and interfaces of its configurations. -/
def deviceWith (confs : List (U8 × List IfDesc)) : DevDesc :=
  ⟨1, 0x0200, 0, 0, 0, 64, 0, 0, 0, none, none, none,
    confs.map fun conf => ⟨2, conf.1, none, 0x80, 50, conf.2⟩⟩

def storage (number : U8) : IfDesc := ⟨4, number, 0, 8, 6, 0x50, none, [bulkIn, bulkOut], []⟩

def keyboardIf (number : U8) : IfDesc :=
  ⟨4, number, 0, 3, 1, 1, none, [interruptIn], [⟨0x21, 0x0110, 0, 1, 0x22, 63, 0, 0⟩]⟩

/-- A keyboard, and a storage device whose second configuration has the value 1. -/
theorem keyboard_and_storage_understood :
    (∃ c, Usbhidd.choose (deviceWith [(1, [keyboardIf 0])]) 0 = .ok c ∧
      Understood (deviceWith [(1, [keyboardIf 0])]) c) ∧
    ∃ c, Usbscsid.choose (deviceWith [(2, []), (1, [storage 0])]) = .ok c ∧
      Understood (deviceWith [(2, []), (1, [storage 0])]) c :=
  ⟨⟨_, rfl, ((class_drivers_understood_iff _).2 0 _ rfl).mpr (by decide)⟩,
    ⟨_, rfl, ((class_drivers_understood_iff _).1 _ rfl).mpr (by decide)⟩⟩

/-- The usual storage device has one configuration, with the value 1, for which xhcid finds none.
Behind another interface, or in a second configuration, the numbers are those of other endpoints. -/
theorem storage_not_understood : (∃ c, Usbscsid.choose (deviceWith [(1, [storage 0])]) = .ok c ∧
      ¬ Understood (deviceWith [(1, [storage 0])]) c) ∧
    (∃ c, Usbscsid.choose (deviceWith [(0, [keyboardIf 0, storage 1])]) = .ok c ∧
      ¬ Understood (deviceWith [(0, [keyboardIf 0, storage 1])]) c) ∧
    ∃ c, Usbhidd.choose (deviceWith [(1, [storage 1]), (2, [keyboardIf 0])]) 0 = .ok c ∧
      ¬ Understood (deviceWith [(1, [storage 1]), (2, [keyboardIf 0])]) c :=
  ⟨⟨_, rfl, fun h => absurd h.index (by decide)⟩, ⟨_, rfl, fun h => absurd h.number (by decide)⟩,
    ⟨_, rfl, fun h => absurd h.number (by decide)⟩⟩

end Devices

end RedoxDrivers.Xhci
