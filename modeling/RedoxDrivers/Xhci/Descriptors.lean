import RedoxDrivers.Lib.Plain
import RedoxDrivers.Lib.Records

/-!
USB descriptors (`xhcid/src/usb`, `AnyDescriptor` and `get_desc` in
`xhcid/src/xhci/scheme.rs`) and the descriptions that xhcid makes of them
(`xhcid/src/driver_interface.rs`).

A configuration descriptor is fetched into a buffer of 4096 bytes: a header of 9 bytes
that says how long the whole is, and descriptors of several kinds behind it, each of
which says its own length. All of these lengths come from the device.
`splits_iff_wellFormed` says for which bytes the split into descriptors ends without a
panic and reads no byte twice.
-/

namespace RedoxDrivers.Xhci

open Lib Option Nat BitVec

/-! ### Descriptors as they are on the wire -/

structure DeviceDescriptor where
  length : U8
  kind : U8
  usb : U16
  class_ : U8
  subClass : U8
  protocol : U8
  packetSize : U8
  vendor : U16
  product : U16
  release : U16
  manufacturerStr : U8
  productStr : U8
  serialStr : U8
  configurations : U8
deriving DecidableEq, Repr

structure ConfigDescriptor where
  length : U8
  kind : U8
  totalLength : U16
  interfaces : U8
  configurationValue : U8
  configurationStr : U8
  attributes : U8
  maxPower : U8
deriving DecidableEq, Repr

structure InterfaceDescriptor where
  length : U8
  kind : U8
  number : U8
  alternateSetting : U8
  endpoints : U8
  class_ : U8
  subClass : U8
  protocol : U8
  interfaceStr : U8
deriving DecidableEq, Repr

structure EndpointDescriptor where
  length : U8
  kind : U8
  address : U8
  attributes : U8
  maxPacketSize : U16
  interval : U8
deriving DecidableEq, Repr

structure HidDescriptor where
  length : U8
  kind : U8
  hidSpecRelease : U16
  countryCode : U8
  numDescriptors : U8
  reportDescTy : U8
  reportDescLen : U16
  optionalDescTy : U8
  optionalDescLen : U16
deriving DecidableEq, Repr

structure SuperSpeedCompanionDescriptor where
  length : U8
  kind : U8
  maxBurst : U8
  attributes : U8
  bytesPerInterval : U16
deriving DecidableEq, Repr

structure SuperSpeedPlusIsochCmpDescriptor where
  length : U8
  kind : U8
  reserved : U16
  bytesPerInterval : U32
deriving DecidableEq, Repr

/-- The byte at an offset. The structures are read only from slices that have all their
bytes. -/
def byteAt (bytes : List U8) (i : Nat) : U8 := bytes.getD i 0

/-- The structures are packed and little-endian. -/
def u16At (bytes : List U8) (i : Nat) : U16 := byteAt bytes (i + 1) ++ byteAt bytes i

def u32At (bytes : List U8) (i : Nat) : U32 := u16At bytes (i + 2) ++ u16At bytes i

section

variable (b : List U8)

def DeviceDescriptor.ofBytes : DeviceDescriptor where
  length := byteAt b 0
  kind := byteAt b 1
  usb := u16At b 2
  class_ := byteAt b 4
  subClass := byteAt b 5
  protocol := byteAt b 6
  packetSize := byteAt b 7
  vendor := u16At b 8
  product := u16At b 10
  release := u16At b 12
  manufacturerStr := byteAt b 14
  productStr := byteAt b 15
  serialStr := byteAt b 16
  configurations := byteAt b 17

def ConfigDescriptor.ofBytes : ConfigDescriptor where
  length := byteAt b 0
  kind := byteAt b 1
  totalLength := u16At b 2
  interfaces := byteAt b 4
  configurationValue := byteAt b 5
  configurationStr := byteAt b 6
  attributes := byteAt b 7
  maxPower := byteAt b 8

def InterfaceDescriptor.ofBytes : InterfaceDescriptor where
  length := byteAt b 0
  kind := byteAt b 1
  number := byteAt b 2
  alternateSetting := byteAt b 3
  endpoints := byteAt b 4
  class_ := byteAt b 5
  subClass := byteAt b 6
  protocol := byteAt b 7
  interfaceStr := byteAt b 8

def EndpointDescriptor.ofBytes : EndpointDescriptor where
  length := byteAt b 0
  kind := byteAt b 1
  address := byteAt b 2
  attributes := byteAt b 3
  maxPacketSize := u16At b 4
  interval := byteAt b 6

def HidDescriptor.ofBytes : HidDescriptor where
  length := byteAt b 0
  kind := byteAt b 1
  hidSpecRelease := u16At b 2
  countryCode := byteAt b 4
  numDescriptors := byteAt b 5
  reportDescTy := byteAt b 6
  reportDescLen := u16At b 7
  optionalDescTy := byteAt b 9
  optionalDescLen := u16At b 10

def SuperSpeedCompanionDescriptor.ofBytes : SuperSpeedCompanionDescriptor where
  length := byteAt b 0
  kind := byteAt b 1
  maxBurst := byteAt b 2
  attributes := byteAt b 3
  bytesPerInterval := u16At b 4

def SuperSpeedPlusIsochCmpDescriptor.ofBytes : SuperSpeedPlusIsochCmpDescriptor where
  length := byteAt b 0
  kind := byteAt b 1
  reserved := u16At b 2
  bytesPerInterval := u32At b 4

end

inductive AnyDescriptor where
  | device (d : DeviceDescriptor)
  | config (d : ConfigDescriptor)
  | interface (d : InterfaceDescriptor)
  | endpoint (d : EndpointDescriptor)
  | hid (d : HidDescriptor)
  | superSpeedCompanion (d : SuperSpeedCompanionDescriptor)
  | superSpeedPlusCompanion (d : SuperSpeedPlusIsochCmpDescriptor)
deriving DecidableEq, Repr

/-- `plain::from_bytes` for a structure of `size` bytes without alignment. -/
def fromBytes {α : Type} (size : Nat) (ofBytes : List U8 → α) (bytes : List U8) : Option α :=
  (Plain.fromBytes size bytes).map ofBytes

namespace AnyDescriptor

/-- `size_of` the structure. -/
def size : AnyDescriptor → Nat
  | device _ => 18
  | config _ => 9
  | interface _ => 9
  | endpoint _ => 7
  | hid _ => 12
  | superSpeedCompanion _ => 6
  | superSpeedPlusCompanion _ => 8

/-- The structure that a kind stands for. -/
def ofKind (kind : U8) (bytes : List U8) : Option AnyDescriptor :=
  if kind = 1 then (fromBytes 18 DeviceDescriptor.ofBytes bytes).map .device
  else if kind = 2 then (fromBytes 9 ConfigDescriptor.ofBytes bytes).map .config
  else if kind = 4 then (fromBytes 9 InterfaceDescriptor.ofBytes bytes).map .interface
  else if kind = 5 then (fromBytes 7 EndpointDescriptor.ofBytes bytes).map .endpoint
  else if kind = 33 then (fromBytes 12 HidDescriptor.ofBytes bytes).map .hid
  else if kind = 48 then
    (fromBytes 6 SuperSpeedCompanionDescriptor.ofBytes bytes).map .superSpeedCompanion
  else if kind = 49 then
    (fromBytes 8 SuperSpeedPlusIsochCmpDescriptor.ofBytes bytes).map .superSpeedPlusCompanion
  else none

def parse (bytes : List U8) : Option (AnyDescriptor × Nat) :=
  match bytes with
  | len :: kind :: _ =>
    if bytes.length < len.toNat then none else (ofKind kind bytes).map (·, len.toNat)
  | _ => none

theorem size_pos (d : AnyDescriptor) : 0 < d.size := by
  cases d <;> simp [size]

end AnyDescriptor

open AnyDescriptor

/-! ### Splitting a configuration -/

/-- What `get_desc` does with a fetched configuration descriptor to get the descriptors in
it: `desc` is the header and `data` the rest of the buffer. -/
def splitConfig (p : Profile) (fuel : Nat) (desc : ConfigDescriptor) (data : Vector U8 4087) :
    Except Fault (List (Located AnyDescriptor)) := do
  let extraLength ← p.sub (desc.totalLength.setWidth 64 : U64) 9
  if data.toList.length < extraLength.toNat then .error .outOfBounds
  else walk parse (data.toList.take extraLength.toNat) fuel 0

/-- The split ends, and the descriptors it yields do not overlap. -/
def Splits (p : Profile) (desc : ConfigDescriptor) (data : Vector U8 4087) : Prop :=
  ∃ fuel ds, splitConfig p fuel desc data = .ok ds ∧ Apart AnyDescriptor.size ds

/-- The lengths are those of a descriptor in the buffer: the total one covers the header
and is no longer than the buffer, and each descriptor in it that is followed by another
one covers its structure. -/
structure WellFormed (desc : ConfigDescriptor) (data : Vector U8 4087) : Prop where
  header_le : 9 ≤ desc.totalLength.toNat
  le_buffer : desc.totalLength.toNat ≤ 4096
  strides : Strides parse size
    (data.toList.take (desc.totalLength.toNat - 9)) 0

section Split

variable {p : Profile} {desc : ConfigDescriptor} {data : Vector U8 4087} {fuel : Nat}
  {ds : List (Located AnyDescriptor)}

/-- A length below that of the header is an overflow in a debug build, and makes a slice
far behind the buffer in a release build. -/
theorem splitConfig_short (h : desc.totalLength.toNat < 9) : splitConfig p fuel desc data =
      .error (match p with | .debug => .overflow | .release => .outOfBounds) := by
  have hnine : (9 : U64).toNat = 9 := rfl
  have hwide : (desc.totalLength.setWidth 64 : U64).toNat = desc.totalLength.toNat := by
    rw [toNat_setWidth]
    omega
  cases p with
  | debug =>
    have hsub : Profile.debug.sub (desc.totalLength.setWidth 64 : U64) 9 = .error .overflow :=
      Profile.sub_eq_overflow.mpr ⟨rfl, by rw [hwide, hnine]; exact h⟩
    rw [splitConfig, hsub]
    rfl
  | release =>
    have hsub : Profile.release.sub (desc.totalLength.setWidth 64 : U64) 9 = .ok _ :=
      Profile.sub_eq_ok.mpr ⟨nofun, rfl⟩
    rw [splitConfig, hsub, ok_bind, if_pos]
    rw [toNat_sub, hwide, hnine, Vector.length_toList]
    omega

theorem splitConfig_eq (h : 9 ≤ desc.totalLength.toNat) : splitConfig p fuel desc data =
      if 4096 < desc.totalLength.toNat then .error .outOfBounds
      else walk parse (data.toList.take (desc.totalLength.toNat - 9)) fuel 0 := by
  have hnine : (9 : U64).toNat = 9 := rfl
  have hwide : (desc.totalLength.setWidth 64 : U64).toNat = desc.totalLength.toNat := by
    rw [toNat_setWidth]
    omega
  have hextra : p.sub (desc.totalLength.setWidth 64 : U64) 9 =
      .ok ((desc.totalLength.setWidth 64 : U64) - 9) := by
    refine Profile.sub_eq_ok.mpr ⟨?_, rfl⟩
    rintro ⟨-, hlt⟩
    omega
  have hdiff : ((desc.totalLength.setWidth 64 : U64) - 9).toNat = desc.totalLength.toNat - 9 := by
    rw [toNat_sub_of_le (by rw [le_def]; omega), hwide, hnine]
  rw [splitConfig, hextra, ok_bind, hdiff, Vector.length_toList]
  by_cases hlong : 4096 < desc.totalLength.toNat
  · rw [if_pos (by omega), if_pos hlong]
  · rw [if_neg (by omega), if_neg hlong]

end Split

/-- **Splitting a configuration descriptor.** For every header and every rest of the buffer,
in either build profile: the split ends without a panic and reads no byte twice exactly if
the lengths are those of a descriptor in the buffer. -/
theorem splits_iff_wellFormed (p : Profile) (desc : ConfigDescriptor) (data : Vector U8 4087) :
    Splits p desc data ↔ WellFormed desc data := by
  rcases Nat.lt_or_ge desc.totalLength.toNat 9 with hshort | hheader
  · refine iff_of_false ?_ fun h => ?_
    · rintro ⟨fuel, ds, hsplit, -⟩
      rw [splitConfig_short hshort] at hsplit
      cases hsplit
    · exact absurd h.header_le (Nat.not_le.mpr hshort)
  · rcases Nat.lt_or_ge 4096 desc.totalLength.toNat with hlong | hfits
    · refine iff_of_false ?_ fun h => ?_
      · rintro ⟨fuel, ds, hsplit, -⟩
        rw [splitConfig_eq hheader, if_pos hlong] at hsplit
        cases hsplit
      · exact absurd h.le_buffer (Nat.not_le.mpr hlong)
    · simp only [Splits, splitConfig_eq hheader, if_neg (Nat.not_lt.mpr hfits)]
      refine (walk_ok_iff_strides (fun bytes d len h => ?_) size_pos).trans
        ⟨fun h => ⟨hheader, hfits, h⟩, WellFormed.strides⟩
      -- The length that a descriptor says is in the slice. Its structure is in the slice as
      -- well, but the two are not compared.
      unfold parse at h
      split at h
      · obtain ⟨hlen, hmap⟩ := ite_none_left_eq_some.mp h
        obtain ⟨d', hd', heq⟩ := map_eq_some_iff.mp hmap
        cases heq
        exact Nat.not_lt.mp hlen
      · cases h

/-- A header that says a total length. -/
def headerOf (totalLength : U16) : ConfigDescriptor := ⟨9, 2, totalLength, 1, 1, 0, 0x80, 50⟩

/-- The buffer starts with these bytes and is zero behind them. -/
def bufferOf (bytes : List U8) (h : bytes.length ≤ 4087) : Vector U8 4087 :=
  ⟨(bytes ++ List.replicate (4087 - bytes.length) 0).toArray, by simp; omega⟩

/-- Four devices that the split does not survive: a total length below that of the header,
one above that of the buffer, an interface descriptor of length 0, and one of length 2,
whose third byte on is read again as a descriptor. -/
theorem hostile_lengths :
    splitConfig .debug 1 (headerOf 8) (bufferOf [] (by decide)) = .error .overflow ∧
      splitConfig .release 1 (headerOf 8) (bufferOf [] (by decide)) = .error .outOfBounds ∧
      splitConfig .release 1 (headerOf 4097) (bufferOf [] (by decide)) = .error .outOfBounds ∧
      (∀ fuel, splitConfig .release fuel (headerOf 18) (bufferOf [0, 4] (by decide)) =
        .error .diverges) ∧
      splitConfig .release 3 (headerOf 20) (bufferOf [2, 4, 9, 4] (by decide)) = .ok
        [⟨0, .interface ⟨2, 4, 9, 4, 0, 0, 0, 0, 0⟩⟩,
          ⟨2, .interface ⟨9, 4, 0, 0, 0, 0, 0, 0, 0⟩⟩] := by
  refine ⟨splitConfig_short (by decide), splitConfig_short (by decide), ?_, fun fuel => ?_, ?_⟩
  · rw [splitConfig_eq (by decide), if_pos (by decide)]
  · rw [splitConfig_eq (by decide), if_neg (by decide)]
    exact walk_stuck (zero_le _) rfl fuel
  · rw [splitConfig_eq (by decide), if_neg (by decide)]
    rfl

/-! ### Descriptions -/

structure SuperSpeedCmp where
  kind : U8
  maxBurst : U8
  attributes : U8
  bytesPerInterval : U16
deriving DecidableEq, Repr

structure SuperSpeedPlusIsochCmp where
  kind : U8
  bytesPerInterval : U32
deriving DecidableEq, Repr

structure EndpDesc where
  kind : U8
  address : U8
  attributes : U8
  maxPacketSize : U16
  interval : U8
  ssc : Option SuperSpeedCmp
  sspc : Option SuperSpeedPlusIsochCmp
deriving DecidableEq, Repr

structure HidDesc where
  kind : U8
  hidSpecRelease : U16
  country : U8
  descCount : U8
  descTy : U8
  descLen : U16
  optionalDescTy : U8
  optionalDescLen : U16
deriving DecidableEq, Repr

structure IfDesc where
  kind : U8
  number : U8
  alternateSetting : U8
  class_ : U8
  subClass : U8
  protocol : U8
  interfaceStr : Option String
  endpoints : List EndpDesc
  hidDescs : List HidDesc
deriving DecidableEq, Repr

structure ConfDesc where
  kind : U8
  configurationValue : U8
  configuration : Option String
  attributes : U8
  maxPower : U8
  interfaceDescs : List IfDesc
deriving DecidableEq, Repr

structure DevDesc where
  kind : U8
  usb : U16
  class_ : U8
  subClass : U8
  protocol : U8
  packetSize : U8
  vendor : U16
  product : U16
  release : U16
  manufacturerStr : Option String
  productStr : Option String
  serialStr : Option String
  configDescs : List ConfDesc
deriving DecidableEq, Repr

def EndpDesc.ofDescriptor (d : EndpointDescriptor) : EndpDesc where
  kind := d.kind
  address := d.address
  attributes := d.attributes
  interval := d.interval
  maxPacketSize := d.maxPacketSize
  ssc := none
  sspc := none

def HidDesc.ofDescriptor (d : HidDescriptor) : HidDesc where
  kind := d.kind
  hidSpecRelease := d.hidSpecRelease
  country := d.countryCode
  descCount := d.numDescriptors
  descTy := d.reportDescTy
  descLen := d.reportDescLen
  optionalDescTy := d.optionalDescTy
  optionalDescLen := d.optionalDescLen

/-- The endpoints have no companion descriptors. -/
def NoCompanions (endpoints : List EndpDesc) : Prop :=
  ∀ endp ∈ endpoints, endp.ssc = none ∧ endp.sspc = none

/-- What the port and the device answer while a device is described. `connected` is the
connect status of the port, if there is one of that number. -/
structure Answers where
  connected : Option Bool
  device : Except Errno DeviceDescriptor
  config : U8 → Except Errno (ConfigDescriptor × Vector U8 4087)
  string : U8 → Except Errno String

namespace Answers

variable (answers : Answers)

/-- A string is fetched if its index is not 0. -/
def optString (index : U8) : Except Errno (Option String) :=
  if 0 < index.toNat then do return some (← answers.string index) else return none

def newIfDesc (desc : InterfaceDescriptor) (endps : List EndpDesc) (hidDescs : List HidDesc) :
    Except Errno IfDesc := do
  let interfaceStr ← answers.optString desc.interfaceStr
  return {
    alternateSetting := desc.alternateSetting
    class_ := desc.class_
    interfaceStr
    kind := desc.kind
    number := desc.number
    protocol := desc.protocol
    subClass := desc.subClass
    endpoints := endps
    hidDescs }

/-- The loop of `get_desc` that collects the endpoints of an interface. It returns what it
leaves of the descriptors; the one that ends the loop early is gone. Super speed is not
supported there, so companions are not read. -/
def collectEndpoints (idesc : InterfaceDescriptor) :
    List AnyDescriptor → List EndpDesc → List HidDesc →
      List EndpDesc × List HidDesc × List AnyDescriptor
  | iter, endpoints, hidDescs =>
    if endpoints.length < idesc.endpoints.toNat then
      match iter with
      | [] => (endpoints, hidDescs, [])
      | .endpoint n :: iter =>
        collectEndpoints idesc iter (endpoints ++ [.ofDescriptor n]) hidDescs
      | .hid h :: iter =>
        if idesc.class_ = 3 then
          collectEndpoints idesc iter endpoints (hidDescs ++ [.ofDescriptor h])
        else (endpoints, hidDescs, iter)
      | _ :: iter => (endpoints, hidDescs, iter)
    else (endpoints, hidDescs, iter)

/-- The loop of `get_desc` that groups descriptors by interface. Each round takes one at
least, so as many rounds as there are descriptors are enough. -/
def groupInterfaces : Nat → List AnyDescriptor → Except Errno (List IfDesc)
  | fuel + 1, .interface idesc :: iter => do
    let (endpoints, hidDescs, iter) := collectEndpoints idesc iter [] []
    let first ← answers.newIfDesc idesc endpoints hidDescs
    let rest ← groupInterfaces fuel iter
    return first :: rest
  | _, _ => return []

/-- One round of the loop of `get_desc` over the configurations. -/
def describeConfig (p : Profile) (fuel : Nat) (index : Nat) : Except Stop ConfDesc := do
  let (desc, data) ← propagate (answers.config (BitVec.ofNat 8 index))
  let descriptors ← checked (splitConfig p fuel desc data)
  let interfaceDescs ←
    propagate (answers.groupInterfaces descriptors.length (descriptors.map Located.value))
  let configuration ← propagate (answers.optString desc.configurationStr)
  return {
    kind := desc.kind
    configuration
    configurationValue := desc.configurationValue
    attributes := desc.attributes
    maxPower := desc.maxPower
    interfaceDescs }

/-- The rounds of the loop over the configurations from `index` on. -/
def describeConfigs (p : Profile) (fuel : Nat) (index : Nat) : Nat → Except Stop (List ConfDesc)
  | 0 => return []
  | count + 1 => do
    let first ← answers.describeConfig p fuel index
    let rest ← describeConfigs p fuel (index + 1) count
    return first :: rest

/-- `get_desc`; `fuel` bounds the rounds of each split. -/
def getDesc (p : Profile) (fuel : Nat) : Except Stop DevDesc := do
  let connected ← okOr answers.connected .enoent
  if !connected then .error (.errno .enoent)
  else
    let rawDd ← propagate answers.device
    let manufacturerStr ← propagate (answers.optString rawDd.manufacturerStr)
    let productStr ← propagate (answers.optString rawDd.productStr)
    let serialStr ← propagate (answers.optString rawDd.serialStr)
    let configDescs ← answers.describeConfigs p fuel 0 rawDd.configurations.toNat
    return {
      kind := rawDd.kind
      usb := rawDd.usb
      class_ := rawDd.class_
      subClass := rawDd.subClass
      protocol := rawDd.protocol
      packetSize := rawDd.packetSize
      vendor := rawDd.vendor
      product := rawDd.product
      release := rawDd.release
      manufacturerStr
      productStr
      serialStr
      configDescs }

section Companions

variable {answers} {p : Profile} {fuel : Nat}

theorem collectEndpoints_noCompanions {idesc : InterfaceDescriptor} {iter : List AnyDescriptor}
    {endpoints : List EndpDesc} {hidDescs : List HidDesc} (h : NoCompanions endpoints) :
    NoCompanions (collectEndpoints idesc iter endpoints hidDescs).1 := by
  fun_induction collectEndpoints idesc iter endpoints hidDescs with
  | case2 endpoints hidDescs _ n iter ih =>
    refine ih fun endp hendp => ?_
    rcases List.mem_append.mp hendp with hold | hnew
    · exact h endp hold
    · obtain rfl := List.mem_singleton.mp hnew
      exact ⟨rfl, rfl⟩
  | case3 endpoints hidDescs _ d iter _ ih => exact ih h
  | case1 | case4 | case5 | case6 => exact h

theorem groupInterfaces_noCompanions {iter : List AnyDescriptor} {ifDescs : List IfDesc}
    (h : answers.groupInterfaces fuel iter = .ok ifDescs) :
    ∀ ifDesc ∈ ifDescs, NoCompanions ifDesc.endpoints := by
  fun_induction groupInterfaces answers fuel iter generalizing ifDescs with
  | case1 fuel idesc iter endpoints hidDescs iter' hcollect ih =>
    obtain ⟨first, hfirst, h⟩ := bind_eq_ok.mp h
    obtain ⟨rest, hrest, h⟩ := bind_eq_ok.mp h
    obtain ⟨interfaceStr, -, hnew⟩ := bind_eq_ok.mp hfirst
    cases h
    refine List.forall_mem_cons.mpr ⟨?_, ih hrest⟩
    cases hnew
    have hnone : NoCompanions (collectEndpoints idesc iter [] []).1 :=
      collectEndpoints_noCompanions (List.forall_mem_nil _)
    rwa [hcollect] at hnone
  | case2 =>
    cases h
    exact List.forall_mem_nil _

theorem describeConfigs_noCompanions {index count : Nat} {configDescs : List ConfDesc}
    (h : answers.describeConfigs p fuel index count = .ok configDescs) :
    ∀ config ∈ configDescs, ∀ ifDesc ∈ config.interfaceDescs, NoCompanions ifDesc.endpoints := by
  induction count generalizing index configDescs with
  | zero =>
    cases h
    exact List.forall_mem_nil _
  | succ count ih =>
    obtain ⟨first, hfirst, h⟩ := bind_eq_ok.mp h
    obtain ⟨rest, hrest, h⟩ := bind_eq_ok.mp h
    cases h
    refine List.forall_mem_cons.mpr ⟨?_, ih hrest⟩
    obtain ⟨⟨desc, data⟩, -, hfirst⟩ := bind_eq_ok.mp hfirst
    obtain ⟨descriptors, -, hfirst⟩ := bind_eq_ok.mp hfirst
    obtain ⟨interfaceDescs, hgroup, hfirst⟩ := bind_eq_ok.mp hfirst
    obtain ⟨configuration, -, hfirst⟩ := bind_eq_ok.mp hfirst
    cases hfirst
    exact groupInterfaces_noCompanions (propagate_eq_ok.mp hgroup)

/-- No description has companions. -/
theorem getDesc_noCompanions {dev : DevDesc} (h : answers.getDesc p fuel = .ok dev) :
    ∀ config ∈ dev.configDescs, ∀ ifDesc ∈ config.interfaceDescs,
      NoCompanions ifDesc.endpoints := by
  obtain ⟨connected, -, h⟩ := bind_eq_ok.mp h
  split at h
  · cases h
  · obtain ⟨rawDd, -, h⟩ := bind_eq_ok.mp h
    obtain ⟨manufacturerStr, -, h⟩ := bind_eq_ok.mp h
    obtain ⟨productStr, -, h⟩ := bind_eq_ok.mp h
    obtain ⟨serialStr, -, h⟩ := bind_eq_ok.mp h
    obtain ⟨configDescs, hconfigs, h⟩ := bind_eq_ok.mp h
    cases h
    exact describeConfigs_noCompanions hconfigs

end Companions

end Answers

end RedoxDrivers.Xhci
