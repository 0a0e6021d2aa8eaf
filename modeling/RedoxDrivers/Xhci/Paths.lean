import RedoxDrivers.Lib.Pattern
import RedoxDrivers.Lib.Text
import RedoxDrivers.Xhci.PortReq

/-!
The paths of the `xhcid` scheme (`xhcid/src/xhci/scheme.rs`).

The head of the source file lists the paths; `Documented` is that list, with the top level. A path is taken
apart by eight regular expressions that are tried one after the other (`fromScheme`), `open` makes a handle
of it, and `toScheme` writes the path of a handle.

Which path belongs to which expression can be told from its last component, so the order does not matter.
But there is no expression for `port<n>`, and the one for `port<n>/endpoints/<n>/ctl` and `data` is not
anchored, so that anything can stand in front of it. `path_grammar_iff` says that nothing else is wrong:
apart from these paths exactly the documented ones are accepted, and the path of a handle that was opened is
always read back as it was.
-/

namespace RedoxDrivers.Xhci.Paths

open Lib Text Engine List Nat BitVec

/-- The crate `regex`: which characters `\d` stands for, of the ASCII ones the ten digits, and an engine. -/
structure RegexCrate where
  isDigit : Char → Bool
  ascii : ∀ c : Char, c.val < 128 → isDigit c = c.isDigit
  engine : Engine isDigit

/-- What `\d{1,3}` stands for. -/
abbrev RegexCrate.Digits (d : RegexCrate) (ds : List Char) : Prop := Run d.isDigit 1 3 ds

/-! ### Reading a path -/

inductive SchemeParameters where
  | topLevel
  | port (portNum : Nat)
  | portDesc (portNum : Nat)
  | portState (portNum : Nat)
  | portReq (portNum : Nat)
  | endpoints (portNum : Nat)
  | endpoint (portNum : Nat) (endpointNum : U8) (handleType : List Char)
  | configureEndpoints (portNum : Nat)
deriving DecidableEq, Repr

/-- `^port(\d{1,3})/…$`. -/
def portRegex (component : List Char) : Regex :=
  ⟨true, [.text "port".toList, .digits 1 3, .text ('/' :: component)]⟩

def regexPortConfigure : Regex := portRegex "configure".toList

def regexPortDescriptors : Regex := portRegex "descriptors".toList

def regexPortState : Regex := portRegex "state".toList

def regexPortRequest : Regex := portRegex "request".toList

def regexPortEndpoints : Regex := portRegex "endpoints".toList

def regexPortSpecificEndpoint : Regex :=
  ⟨true, [.text "port".toList, .digits 1 3, .text "/endpoints/".toList, .digits 1 3]⟩

/-- This one does not begin with `^`. -/
def regexPortSubEndpoint : Regex :=
  ⟨false, [.text "port".toList, .digits 1 3, .text "/endpoints/".toList, .digits 1 3, .text ['/'],
    .oneOf ["ctl".toList, "data".toList]]⟩

def regexTopLevel : Regex := ⟨true, []⟩

section Reading

variable (d : RegexCrate)

def getStringFromRegex (rgx : Regex) (scheme : List Char) (captureIdx : Nat) : Except Stop (List Char) :=
  match d.engine.captures rgx scheme with
  | none => .error (.errno .enoent)
  | some captureList => okOr captureList[captureIdx]? .enoent

/-- A capture that is read as a number below `bound`. -/
def getNumberFromRegex (bound : Nat) (rgx : Regex) (scheme : List Char) (captureIdx : Nat) :
    Except Stop Nat := do
  let value ← getStringFromRegex d rgx scheme captureIdx
  okOr (parse bound value) .enoent

def getUsizeFromRegex : Regex → List Char → Nat → Except Stop Nat := getNumberFromRegex d (2 ^ 64)

def getU8FromRegex (rgx : Regex) (scheme : List Char) (captureIdx : Nat) : Except Stop U8 := do
  let n ← getNumberFromRegex d 256 rgx scheme captureIdx
  return BitVec.ofNat 8 n

def fromScheme (scheme : List Char) : Except Stop SchemeParameters :=
  if d.engine.isMatch regexPortConfigure scheme then do
    let portNum ← getUsizeFromRegex d regexPortConfigure scheme 0
    return .configureEndpoints portNum
  else if d.engine.isMatch regexPortDescriptors scheme then do
    let portNum ← getUsizeFromRegex d regexPortDescriptors scheme 0
    return .portDesc portNum
  else if d.engine.isMatch regexPortState scheme then do
    let portNum ← getUsizeFromRegex d regexPortState scheme 0
    return .portState portNum
  else if d.engine.isMatch regexPortRequest scheme then do
    let portNum ← getUsizeFromRegex d regexPortRequest scheme 0
    return .portReq portNum
  else if d.engine.isMatch regexPortEndpoints scheme then do
    let portNum ← getUsizeFromRegex d regexPortEndpoints scheme 0
    return .endpoints portNum
  else if d.engine.isMatch regexPortSpecificEndpoint scheme then do
    let portNum ← getUsizeFromRegex d regexPortSpecificEndpoint scheme 0
    let endpointNum ← getU8FromRegex d regexPortSpecificEndpoint scheme 1
    return .endpoint portNum endpointNum "root".toList
  else if d.engine.isMatch regexPortSubEndpoint scheme then do
    let portNum ← getUsizeFromRegex d regexPortSubEndpoint scheme 0
    let endpointNum ← getU8FromRegex d regexPortSubEndpoint scheme 1
    let handleType ← getStringFromRegex d regexPortSubEndpoint scheme 2
    return .endpoint portNum endpointNum handleType
  else if d.engine.isMatch regexTopLevel scheme then
    return .topLevel
  else
    .error (.errno .enoent)

end Reading

/-! ### Handles -/

inductive EndpointHandleTy where
  | data
  | ctl
  | root (offset : Nat) (contents : List Char)

inductive Handle where
  | topLevel (offset : Nat) (contents : List Char)
  | port (portNum offset : Nat) (contents : List Char)
  | portDesc (portNum offset : Nat) (contents : List U8)
  | portState (portNum offset : Nat)
  | portReq (portNum : Nat) (state : PortReqState)
  | endpoints (portNum offset : Nat) (contents : List Char)
  | endpoint (portNum : Nat) (endpointNum : U8) (handleType : EndpointHandleTy)
  | configureEndpoints (portNum : Nat)

def portPath (portNum : Nat) (rest : List Char) : List Char :=
  "port".toList ++ (decimal portNum ++ rest)

def endpointPath (portNum : Nat) (endpointNum : U8) (rest : List Char) : List Char :=
  portPath portNum ("/endpoints/".toList ++ (decimal endpointNum.toNat ++ rest))

def Handle.toScheme : Handle → List Char
  | topLevel _ _ => []
  | port portNum _ _ => portPath portNum []
  | portDesc portNum _ _ => portPath portNum ('/' :: "descriptors".toList)
  | portState portNum _ => portPath portNum ('/' :: "state".toList)
  | portReq portNum _ => portPath portNum ('/' :: "request".toList)
  | endpoints portNum _ _ => portPath portNum ('/' :: "endpoints".toList)
  | endpoint portNum endpointNum .data => endpointPath portNum endpointNum ('/' :: "data".toList)
  | endpoint portNum endpointNum .ctl => endpointPath portNum endpointNum ('/' :: "ctl".toList)
  | endpoint portNum endpointNum (.root _ _) => endpointPath portNum endpointNum []
  | configureEndpoints portNum => portPath portNum ('/' :: "configure".toList)

def O_WRONLY : U64 := 0x20000

def O_RDWR : U64 := 0x30000

def O_DIRECTORY : U64 := 0x10000000

def O_STAT : U64 := 0x20000000

/-- What `open` looks at. -/
structure Controller where
  /-- `PORT_CCS` of each port. -/
  connected : List Bool
  /-- The keys of `endpoint_states`, for the ports in `port_states`. -/
  endpointStates : Nat → Option (List U8)
  /-- The slot of the port is in the state `Configured`. -/
  configured : Nat → Bool
  portDescJson : Nat → Except Errno (List U8)

namespace Controller

variable (hci : Controller) (flags : U64)

/-- The directory flags are missing. -/
def notDirectory : Prop := flags &&& O_DIRECTORY = 0 ∧ flags &&& O_STAT = 0

/-- A directory is asked for. -/
def directoryOnly : Prop := flags &&& O_DIRECTORY ≠ 0 ∧ flags &&& O_STAT = 0

instance : Decidable (notDirectory flags) := inferInstanceAs (Decidable (_ ∧ _))

instance : Decidable (directoryOnly flags) := inferInstanceAs (Decidable (_ ∧ _))

def portLines : List Char :=
  (hci.connected.zipIdx.filter (·.1)).flatMap fun (_, index) => "port".toList ++ decimal index ++ ['\n']

def openHandleTopLevel : Except Stop Handle :=
  if notDirectory flags then .error (.errno .eisdir) else .ok (.topLevel 0 hci.portLines)

section

variable (portNum : Nat)

def openHandlePort : Except Stop Handle :=
  if notDirectory flags then .error (.errno .eisdir)
  else
    match hci.endpointStates portNum with
    | none => .error (.errno .enoent)
    | some _ => .ok (.port portNum 0 ("descriptors\nendpoints\n".toList ++
        if hci.configured portNum then [] else "configure\n".toList))

def openHandlePortDescriptors : Except Stop Handle :=
  if directoryOnly flags then .error (.errno .enotdir)
  else do
    let contents ← propagate (hci.portDescJson portNum)
    return .portDesc portNum 0 contents

def openHandlePortState : Except Stop Handle :=
  if directoryOnly flags then .error (.errno .enotdir) else .ok (.portState portNum 0)

def openHandlePortEndpoints : Except Stop Handle :=
  if notDirectory flags then .error (.errno .eisdir)
  else
    match hci.endpointStates portNum with
    | none => .error (.errno .enoent)
    | some keys => .ok (.endpoints portNum 0 (keys.flatMap fun key => decimal key.toNat ++ ['\n']))

/-- The port is known and has the endpoint. -/
def hasEndpoint (endpointNum : U8) : Bool :=
  match hci.endpointStates portNum with
  | none => false
  | some keys => keys.contains endpointNum

def openHandleEndpointRoot (endpointNum : U8) : Except Stop Handle :=
  if notDirectory flags then .error (.errno .eisdir)
  else if hci.hasEndpoint portNum endpointNum then
    .ok (.endpoint portNum endpointNum (.root 0 "ctl\ndata\n".toList))
  else .error (.errno .enoent)

def openHandleSingleEndpoint (endpointNum : U8) (handleType : List Char) : Except Stop Handle :=
  if handleType = "root".toList then hci.openHandleEndpointRoot flags portNum endpointNum
  else if handleType = "ctl".toList ∨ handleType = "data".toList then
    if directoryOnly flags then .error (.errno .eisdir)
    else if hci.hasEndpoint portNum endpointNum then
      .ok (.endpoint portNum endpointNum (if handleType = "ctl".toList then .ctl else .data))
    else .error (.errno .enoent)
  else .error (.panic .unreachable)

def openHandleConfigureEndpoints : Except Stop Handle :=
  if directoryOnly flags then .error (.errno .enotdir)
  else if flags &&& O_RDWR ≠ O_WRONLY ∧ flags &&& O_STAT = 0 then .error (.errno .eacces)
  else .ok (.configureEndpoints portNum)

def openHandlePortRequest : Except Stop Handle :=
  if directoryOnly flags then .error (.errno .enotdir) else .ok (.portReq portNum .init)

end

def openParameters : SchemeParameters → Except Stop Handle
  | .topLevel => hci.openHandleTopLevel flags
  | .port portNum => hci.openHandlePort flags portNum
  | .portDesc portNum => hci.openHandlePortDescriptors flags portNum
  | .portState portNum => openHandlePortState flags portNum
  | .portReq portNum => openHandlePortRequest flags portNum
  | .endpoints portNum => hci.openHandlePortEndpoints flags portNum
  | .endpoint portNum endpointNum handleType =>
    hci.openHandleSingleEndpoint flags portNum endpointNum handleType
  | .configureEndpoints portNum => openHandleConfigureEndpoints flags portNum

/-- `open`, up to the number under which the handle is kept. -/
def openPath (d : RegexCrate) (path : List Char) (uid : U32) : Except Stop Handle :=
  if uid ≠ 0 then .error (.errno .eacces)
  else do
    let schemeParameters ← fromScheme d path
    hci.openParameters flags schemeParameters

end Controller

/-! ### What is wanted -/

/-- One to three decimal digits, and the number. -/
structure Numeral (ds : List Char) (n : Nat) : Prop where
  isNumeral : Text.IsNumeral ds
  length_le : ds.length ≤ 3
  value_eq : value ds = n

/-- The files of an endpoint. -/
def subNames : List (List Char) := ["ctl".toList, "data".toList]

/-- The paths of the scheme and what they stand for. -/
inductive Documented : List Char → SchemeParameters → Prop where
  | topLevel : Documented [] .topLevel
  | port {ds n} (h : Numeral ds n) : Documented ("port".toList ++ ds) (.port n)
  | configure {ds n} (h : Numeral ds n) :
      Documented ("port".toList ++ (ds ++ '/' :: "configure".toList)) (.configureEndpoints n)
  | request {ds n} (h : Numeral ds n) :
      Documented ("port".toList ++ (ds ++ '/' :: "request".toList)) (.portReq n)
  | endpoints {ds n} (h : Numeral ds n) :
      Documented ("port".toList ++ (ds ++ '/' :: "endpoints".toList)) (.endpoints n)
  | descriptors {ds n} (h : Numeral ds n) :
      Documented ("port".toList ++ (ds ++ '/' :: "descriptors".toList)) (.portDesc n)
  | state {ds n} (h : Numeral ds n) :
      Documented ("port".toList ++ (ds ++ '/' :: "state".toList)) (.portState n)
  | endpoint {ds n es} {e : U8} (h : Numeral ds n) (he : Numeral es e.toNat) :
      Documented ("port".toList ++ (ds ++ ("/endpoints/".toList ++ es))) (.endpoint n e "root".toList)
  | subEndpoint {ds n es} {e : U8} {w} (h : Numeral ds n) (he : Numeral es e.toNat)
      (hw : w ∈ subNames) :
      Documented ("port".toList ++ (ds ++ ("/endpoints/".toList ++ (es ++ '/' :: w)))) (.endpoint n e w)

/-- The kind of a handle, with its numbers. -/
def Handle.parameters : Handle → SchemeParameters
  | topLevel _ _ => .topLevel
  | port portNum _ _ => .port portNum
  | portDesc portNum _ _ => .portDesc portNum
  | portState portNum _ => .portState portNum
  | portReq portNum _ => .portReq portNum
  | endpoints portNum _ _ => .endpoints portNum
  | endpoint portNum endpointNum .data => .endpoint portNum endpointNum "data".toList
  | endpoint portNum endpointNum .ctl => .endpoint portNum endpointNum "ctl".toList
  | endpoint portNum endpointNum (.root _ _) => .endpoint portNum endpointNum "root".toList
  | configureEndpoints portNum => .configureEndpoints portNum

structure PathSound (d : RegexCrate) (path : List Char) : Prop where
  /-- The path is accepted exactly if it is documented, and for what it is documented. -/
  exact : ∀ params, fromScheme d path = .ok params ↔ Documented path params
  /-- The path of a handle that was opened is read back as it was. -/
  roundTrip : ∀ (hci : Controller) (flags : U64) (uid : U32) (handle : Handle),
    hci.openPath flags d path uid = .ok handle → fromScheme d handle.toScheme = .ok handle.parameters

/-- The directory of a port. -/
def IsPort (path : List Char) : Prop := ∃ ds n, Numeral ds n ∧ path = "port".toList ++ ds

/-- The path of `ctl` or `data` with something in front. -/
def Misplaced (path : List Char) (params : SchemeParameters) : Prop :=
  ∃ pre t n e w, pre ≠ [] ∧ path = pre ++ t ∧ w ∈ subNames ∧ params = .endpoint n e w ∧
    Documented t params

/-! ### Numerals -/

section Numerals

variable {d : RegexCrate} {ds : List Char} {c : Char} {n bound : Nat}

theorem RegexCrate.of_isDigit (h : c.isDigit = true) : d.isDigit c = true := by
  have hlt : c.val < 128 := by
    rw [Char.isDigit, Bool.and_eq_true, decide_eq_true_eq, decide_eq_true_eq] at h
    exact UInt32.lt_of_le_of_lt h.2 (by decide)
  rw [d.ascii c hlt, h]

/-- No other ASCII character is a digit. -/
theorem RegexCrate.of_not_isDigit (hlt : c.val < 128) (h : c.isDigit = false) : d.isDigit c = false := by
  rw [d.ascii c hlt, h]

theorem Numeral.run (h : Numeral ds n) : d.Digits ds where
  lo_le := length_pos_iff.mpr h.isNumeral.1
  le_hi := h.length_le
  digits := fun c hc => RegexCrate.of_isDigit (h.isNumeral.2 c hc)

theorem Numeral.lt (h : Numeral ds n) : n < 1000 := by
  have hlt := h.isNumeral.value_lt
  have hpow : 10 ^ ds.length ≤ 10 ^ 3 := Nat.pow_le_pow_right (by decide) h.length_le
  rw [h.value_eq] at hlt
  omega

/-- Of the runs of digits, the numerals can be parsed. -/
theorem parse_run (hbound : 0 < bound) (h : d.Digits ds) :
    parse bound ds = some n ↔ Numeral ds n ∧ n < bound := by
  rw [parse_eq_some hbound]
  constructor
  · rintro ⟨ds', rfl | rfl, hnumeral, hvalue, hlt⟩
    · exact ⟨⟨hnumeral, h.le_hi, hvalue⟩, hlt⟩
    · have hplus := h.digits '+' (by simp)
      rw [RegexCrate.of_not_isDigit (by decide) (by decide)] at hplus
      cases hplus
  · rintro ⟨hnumeral, hlt⟩
    exact ⟨ds, .inl rfl, hnumeral.isNumeral, hnumeral.value_eq, hlt⟩

theorem numeral_decimal (h : n < 1000) : Numeral (decimal n) n where
  isNumeral := isNumeral_decimal n
  length_le := (length_toDigits_le_iff (by decide) (by decide)).mpr h
  value_eq := value_decimal n

end Numerals

/-! ### What the expressions find -/

@[simp] abbrev portText (ds w : List Char) : List Char := "port".toList ++ (ds ++ '/' :: w)

@[simp] abbrev endpointText (ds es : List Char) : List Char :=
  "port".toList ++ (ds ++ ("/endpoints/".toList ++ es))

@[simp] abbrev subText (ds es w : List Char) : List Char :=
  "port".toList ++ (ds ++ ("/endpoints/".toList ++ (es ++ '/' :: w)))

section Finds

variable {d : RegexCrate} {s w : List Char} {caps : List (List Char)}

theorem finds_port : (portRegex w).Finds d.isDigit s caps ↔
    ∃ ds, d.Digits ds ∧ s = portText ds w ∧ caps = [ds] := by
  simp only [Regex.Finds, portRegex, Reads]
  constructor
  · rintro ⟨pre, t, rfl, hpre, rest, rfl, ds, rest', caps', hrun, rfl, rfl, rest'', rfl, rfl, rfl⟩
    exact ⟨ds, hrun, by simp [hpre], rfl⟩
  · rintro ⟨ds, hrun, rfl, rfl⟩
    exact ⟨[], _, rfl, fun _ => rfl, _, rfl, ds, _, _, hrun, rfl, rfl, _, by simp, rfl, rfl⟩

theorem finds_specificEndpoint : regexPortSpecificEndpoint.Finds d.isDigit s caps ↔
    ∃ ds es, d.Digits ds ∧ d.Digits es ∧
      s = endpointText ds es ∧ caps = [ds, es] := by
  simp only [Regex.Finds, regexPortSpecificEndpoint, Reads]
  constructor
  · rintro ⟨pre, t, rfl, hpre, _, rfl, ds, _, _, hds, rfl, rfl, _, rfl, es, _, _, hes, rfl, rfl, rfl, rfl⟩
    exact ⟨ds, es, hds, hes, by simp [hpre], rfl⟩
  · rintro ⟨ds, es, hds, hes, rfl, rfl⟩
    exact ⟨[], _, rfl, fun _ => rfl, _, rfl, ds, _, _, hds, rfl, rfl, _, rfl, es, _, _, hes, by simp, rfl, rfl,
      rfl⟩

theorem finds_subEndpoint : regexPortSubEndpoint.Finds d.isDigit s caps ↔
    ∃ pre ds es w, d.Digits ds ∧ d.Digits es ∧ w ∈ subNames ∧
      s = pre ++ subText ds es w ∧
      caps = [ds, es, w] := by
  constructor
  · rintro ⟨pre, t, rfl, -, _, rfl, ds, _, _, hds, rfl, rfl, _, rfl, es, _, _, hes, rfl, rfl, _, rfl, w, _, _,
      hw, rfl, rfl, rfl, rfl⟩
    exact ⟨pre, ds, es, w, hds, hes, hw, by simp, rfl⟩
  · rintro ⟨pre, ds, es, w, hds, hes, hw, rfl, rfl⟩
    exact ⟨pre, _, rfl, nofun, _, rfl, ds, _, _, hds, rfl, rfl, _, rfl, es, _, _, hes, rfl, rfl, _, rfl,
      w, _, _, hw, by simp, rfl, rfl, rfl⟩

theorem finds_topLevel : regexTopLevel.Finds d.isDigit s caps ↔ s = [] ∧ caps = [] := by
  simp only [Regex.Finds, regexTopLevel, Reads]
  constructor
  · rintro ⟨pre, t, rfl, hpre, rfl, rfl⟩
    exact ⟨by simp [hpre], rfl⟩
  · rintro ⟨rfl, rfl⟩
    exact ⟨[], [], rfl, fun _ => rfl, rfl, rfl⟩

end Finds

/-! ### There is one way to read a path -/

section Unique

variable {d : RegexCrate} {s v v' w w' x x' pre pre' ds ds' es es' : List Char}

/-- The part behind the last slash. -/
def Component (s v : List Char) : Prop := ∃ x, s = x ++ '/' :: v ∧ '/' ∉ v

theorem slash_inj (hv : '/' ∉ v) (hv' : '/' ∉ v') (h : x ++ '/' :: v = x' ++ '/' :: v') :
    x = x' ∧ v = v' := by
  have inside : ∀ {u : List Char}, '/' ∉ u → ∀ c ∈ u, (c != '/') = true := by
    intro u hu c hc
    rw [bne_iff_ne]
    rintro rfl
    exact hu hc
  have heq : (x ++ ['/']) ++ v = (x' ++ ['/']) ++ v' := by simpa using h
  obtain ⟨hfront, hlast⟩ := append_run_inj (a := '/') (b := '/') (by simp) (by simp) (by simp)
    (by simp) (inside hv) (inside hv') heq
  exact ⟨append_cancel_right hfront, hlast⟩

theorem Component.unique (h : Component s v) (h' : Component s v') : v = v' := by
  obtain ⟨x, rfl, hv⟩ := h
  obtain ⟨x', heq, hv'⟩ := h'
  exact (slash_inj hv hv' heq).2

/-- The files and directories of a port. -/
def portNames : List (List Char) :=
  ["configure".toList, "descriptors".toList, "state".toList, "request".toList, "endpoints".toList]

theorem slash_not_mem_name (h : w ∈ portNames ++ subNames) : '/' ∉ w := by
  have hall : ∀ w ∈ portNames ++ subNames, '/' ∉ w := by decide
  exact hall w h

theorem not_mem_run {c : Char} (h : d.Digits es) (hlt : c.val < 128)
    (hc : c.isDigit = false) : c ∉ es := by
  intro hmem
  have hdigit := h.digits c hmem
  rw [RegexCrate.of_not_isDigit hlt hc] at hdigit
  cases hdigit

theorem slash_not_mem_run (h : d.Digits es) : '/' ∉ es :=
  not_mem_run h (by decide) (by decide)

/-- The names have a `t` or an `r` each. -/
theorem not_name_of_run (h : d.Digits es) : es ∉ portNames ++ subNames := by
  intro hes
  have hall : ∀ w ∈ portNames ++ subNames, 't' ∈ w ∨ 'r' ∈ w := by decide
  rcases hall es hes with ht | hr
  · exact not_mem_run h (by decide) (by decide) ht
  · exact not_mem_run h (by decide) (by decide) hr

/-- The numbers of an endpoint's path are what its digits say, and so is what stands in front. -/
theorem subEndpoint_inj (hds : d.Digits ds) (hes : d.Digits es)
    (hw : w ∈ subNames) (hds' : d.Digits ds') (hes' : d.Digits es')
    (hw' : w' ∈ subNames) (h : pre ++ subText ds es w = pre' ++ subText ds' es' w') :
    pre = pre' ∧ ds = ds' ∧ es = es' ∧ w = w' := by
  have ht : d.isDigit 't' = false := RegexCrate.of_not_isDigit (by decide) (by decide)
  have hname : (pre ++ endpointText ds es) ++ '/' :: w =
      (pre' ++ endpointText ds' es') ++ '/' :: w' := by simpa using h
  obtain ⟨hfront, rfl⟩ := slash_inj (slash_not_mem_name (mem_append_right _ hw))
    (slash_not_mem_name (mem_append_right _ hw')) hname
  have hnumber : (pre ++ "port".toList ++ ds ++ "/endpoints".toList) ++ '/' :: es =
      (pre' ++ "port".toList ++ ds' ++ "/endpoints".toList) ++ '/' :: es' := by simpa using hfront
  obtain ⟨hport, rfl⟩ := slash_inj (slash_not_mem_run hes) (slash_not_mem_run hes') hnumber
  obtain ⟨hpre, rfl⟩ := append_run_inj (a := 't') (b := 't') (by simp) ht (by simp) ht hds.digits
    hds'.digits (append_cancel_right hport)
  exact ⟨append_cancel_right hpre, rfl, rfl, rfl⟩

theorem captures_port (h : d.Digits ds) :
    d.engine.captures (portRegex w) (portText ds w) = some [ds] := by
  apply captures_eq_some (finds_port.mpr ⟨ds, h, rfl, rfl⟩)
  intro caps' hfinds
  obtain ⟨ds', -, heq, rfl⟩ := finds_port.mp hfinds
  rw [append_cancel_right (append_cancel_left heq)]

theorem captures_specificEndpoint (hds : d.Digits ds) (hes : d.Digits es) :
    d.engine.captures regexPortSpecificEndpoint (endpointText ds es) = some [ds, es] := by
  apply captures_eq_some (finds_specificEndpoint.mpr ⟨ds, es, hds, hes, rfl, rfl⟩)
  intro caps' hfinds
  obtain ⟨ds', es', hds', hes', heq, rfl⟩ := finds_specificEndpoint.mp hfinds
  have hnumber : ("port".toList ++ ds ++ "/endpoints".toList) ++ '/' :: es =
      ("port".toList ++ ds' ++ "/endpoints".toList) ++ '/' :: es' := by simpa using heq
  obtain ⟨hport, rfl⟩ := slash_inj (slash_not_mem_run hes) (slash_not_mem_run hes') hnumber
  rw [append_cancel_left (append_cancel_right hport)]

def regexes : List Regex :=
  portNames.map portRegex ++ [regexPortSpecificEndpoint, regexPortSubEndpoint, regexTopLevel]

/-- The expression for the paths that end in a component. -/
def regexOf (v : List Char) : Regex :=
  if v ∈ portNames then portRegex v
  else if v ∈ subNames then regexPortSubEndpoint
  else regexPortSpecificEndpoint

variable {r r' : Regex} {caps : List (List Char)}

theorem finds_regexOf (hr : r ∈ regexes) (h : r.Finds d.isDigit s caps) :
    (s = [] ∧ r = regexTopLevel) ∨ ∃ v, Component s v ∧ r = regexOf v := by
  simp only [regexes, mem_append, mem_map, mem_cons, not_mem_nil, or_false] at hr
  rcases hr with ⟨w, hw, rfl⟩ | rfl | rfl | rfl
  · obtain ⟨ds, -, rfl, -⟩ := finds_port.mp h
    have hslash := slash_not_mem_name (mem_append_left _ hw)
    exact .inr ⟨w, ⟨"port".toList ++ ds, by simp, hslash⟩, (if_pos hw).symm⟩
  · obtain ⟨ds, es, -, hes, rfl, -⟩ := finds_specificEndpoint.mp h
    obtain ⟨hport, hsub⟩ := not_or.mp (mt mem_append.mpr (not_name_of_run hes))
    refine .inr ⟨es, ⟨"port".toList ++ (ds ++ "/endpoints".toList), by simp, slash_not_mem_run hes⟩, ?_⟩
    rw [regexOf, if_neg hport, if_neg hsub]
  · obtain ⟨pre, ds, es, w, -, -, hw, rfl, -⟩ := finds_subEndpoint.mp h
    have hslash := slash_not_mem_name (mem_append_right _ hw)
    have hall : ∀ w ∈ subNames, regexPortSubEndpoint = regexOf w := by decide
    exact .inr ⟨w, ⟨pre ++ endpointText ds es, by simp, hslash⟩, hall w hw⟩
  · exact .inl ⟨(finds_topLevel.mp h).1, rfl⟩

theorem regex_unique (hr : r ∈ regexes) (hr' : r' ∈ regexes) (h : d.engine.isMatch r s = true)
    (h' : d.engine.isMatch r' s = true) : r = r' := by
  obtain ⟨caps, h⟩ := isMatch_eq_true_iff.mp h
  obtain ⟨caps', h'⟩ := isMatch_eq_true_iff.mp h'
  rcases finds_regexOf hr h with ⟨rfl, rfl⟩ | ⟨v, hv, rfl⟩
  · rcases finds_regexOf hr' h' with ⟨-, rfl⟩ | ⟨v, ⟨x, hnil, -⟩, -⟩
    · rfl
    · simp at hnil
  · rcases finds_regexOf hr' h' with ⟨rfl, -⟩ | ⟨v', hv', rfl⟩
    · obtain ⟨x, hnil, -⟩ := hv
      simp at hnil
    · rw [hv.unique hv']

/-- The expressions before the one that matches do not get in its way. -/
theorem not_isMatch (hr : r ∈ regexes) (h : d.engine.isMatch r s = true) :
    ∀ r' ∈ regexes, r' ≠ r → d.engine.isMatch r' s = false :=
  fun _ hr' hne => Bool.eq_false_iff.mpr fun h' => hne (regex_unique hr' hr h' h)

end Unique

/-! ### The captures as numbers -/

section Captures

variable {d : RegexCrate} {rgx : Regex} {s ds : List Char} {n bound i : Nat} {e : U8}
  {caps : List (List Char)}

theorem getNumberFromRegex_of_captures (hcaps : d.engine.captures rgx s = some caps)
    (hds : caps[i]? = some ds) :
    getNumberFromRegex d bound rgx s i = okOr (parse bound ds) .enoent := by
  simp only [getNumberFromRegex, getStringFromRegex, hcaps, hds]
  rfl

/-- The captured runs that are read as numbers are numerals. -/
theorem usize_of_captures (hcaps : d.engine.captures rgx s = some caps)
    (hds : caps[i]? = some ds) (hrun : d.Digits ds) :
    getUsizeFromRegex d rgx s i = .ok n ↔ Numeral ds n := by
  rw [getUsizeFromRegex, getNumberFromRegex_of_captures hcaps hds, okOr_eq_ok,
    parse_run (by decide) hrun]
  constructor
  · exact And.left
  · intro h
    exact ⟨h, lt_trans h.lt (by decide)⟩

theorem u8_of_captures (hcaps : d.engine.captures rgx s = some caps) (hds : caps[i]? = some ds)
    (hrun : d.Digits ds) : getU8FromRegex d rgx s i = .ok e ↔ Numeral ds e.toNat := by
  simp only [getU8FromRegex, bind_eq_ok, getNumberFromRegex_of_captures hcaps hds, okOr_eq_ok,
    parse_run (show 0 < 256 by decide) hrun]
  constructor
  · rintro ⟨n, ⟨hn, hlt⟩, he⟩
    cases he
    rwa [toNat_ofNat_of_lt hlt]
  · intro h
    refine ⟨e.toNat, ⟨h, e.isLt⟩, ?_⟩
    rw [ofNat_toNat, setWidth_eq]
    rfl

end Captures

/-! ### The branches of `fromScheme` -/

section Branches

variable {d : RegexCrate} {s w : List Char} {n : Nat} {e : U8} {params : SchemeParameters}
  {es ds : List Char} {f : Nat → SchemeParameters}

/-- What the files and directories of a port stand for. -/
def portParameters : List (List Char × (Nat → SchemeParameters)) :=
  [("configure".toList, .configureEndpoints), ("descriptors".toList, .portDesc),
    ("state".toList, .portState), ("request".toList, .portReq), ("endpoints".toList, .endpoints)]

theorem documented_port (hf : (w, f) ∈ portParameters) (h : Numeral ds n) :
    Documented (portText ds w) (f n) ∧ ∀ m, f n ≠ .port m := by
  simp only [portParameters, mem_cons, Prod.mk.injEq, not_mem_nil, or_false] at hf
  rcases hf with ⟨rfl, rfl⟩ | ⟨rfl, rfl⟩ | ⟨rfl, rfl⟩ | ⟨rfl, rfl⟩ | ⟨rfl, rfl⟩
  · exact ⟨.configure h, nofun⟩
  · exact ⟨.descriptors h, nofun⟩
  · exact ⟨.state h, nofun⟩
  · exact ⟨.request h, nofun⟩
  · exact ⟨.endpoints h, nofun⟩

theorem fromScheme_port (hf : (w, f) ∈ portParameters) (h : d.Digits ds) :
    fromScheme d (portText ds w) = .ok params ↔ ∃ n, Numeral ds n ∧ f n = params := by
  have hcaps : d.engine.captures (portRegex w) (portText ds w) = some [ds] := captures_port h
  have hmatch : d.engine.isMatch (portRegex w) (portText ds w) = true :=
    isMatch_of_captures hcaps
  have heq : fromScheme d (portText ds w) =
      (do let n ← getUsizeFromRegex d (portRegex w) (portText ds w) 0; return f n) := by
    simp only [portParameters, mem_cons, Prod.mk.injEq, not_mem_nil, or_false] at hf
    rcases hf with ⟨rfl, rfl⟩ | ⟨rfl, rfl⟩ | ⟨rfl, rfl⟩ | ⟨rfl, rfl⟩ | ⟨rfl, rfl⟩
    all_goals
      have hother := not_isMatch (by decide) hmatch
      simp (disch := decide) only [fromScheme, regexPortConfigure, regexPortDescriptors,
        regexPortState, regexPortRequest, regexPortEndpoints, hother, hmatch, Bool.false_eq_true,
        if_false, if_true]
  simp only [heq, bind_eq_ok, usize_of_captures (i := 0) hcaps rfl h, pure_eq_ok, Except.ok.injEq]

theorem fromScheme_endpoint (hds : d.Digits ds) (hes : d.Digits es) :
    fromScheme d (endpointText ds es) = .ok params ↔
      ∃ n, Numeral ds n ∧ ∃ e : U8, Numeral es e.toNat ∧ .endpoint n e "root".toList = params := by
  have hcaps := captures_specificEndpoint hds hes
  have hmatch := isMatch_of_captures hcaps
  have hother := not_isMatch (by decide) hmatch
  simp (disch := decide) only [fromScheme, hother, hmatch, Bool.false_eq_true, if_false, if_true,
    bind_eq_ok, usize_of_captures (i := 0) hcaps rfl hds, u8_of_captures (i := 1) hcaps rfl hes,
    pure_eq_ok, Except.ok.injEq]

theorem fromScheme_subEndpoint (pre : List Char) (hds : d.Digits ds)
    (hes : d.Digits es) (hw : w ∈ subNames) :
    fromScheme d (pre ++ subText ds es w) = .ok params ↔
      ∃ n, Numeral ds n ∧ ∃ e : U8, Numeral es e.toNat ∧ .endpoint n e w = params := by
  have hcaps : d.engine.captures regexPortSubEndpoint (pre ++ subText ds es w) = some [ds, es, w] := by
    apply captures_eq_some (finds_subEndpoint.mpr ⟨pre, ds, es, w, hds, hes, hw, rfl, rfl⟩)
    intro caps' hfinds
    obtain ⟨pre', ds', es', w', hds', hes', hw', heq, rfl⟩ := finds_subEndpoint.mp hfinds
    obtain ⟨-, rfl, rfl, rfl⟩ := subEndpoint_inj hds hes hw hds' hes' hw' heq
    rfl
  have hmatch := isMatch_of_captures hcaps
  have hother := not_isMatch (by decide) hmatch
  have hname : getStringFromRegex d regexPortSubEndpoint (pre ++ subText ds es w) 2 = .ok w := by
    rw [getStringFromRegex, hcaps]
    rfl
  simp (disch := decide) only [fromScheme, hother, hmatch, Bool.false_eq_true, if_false, if_true,
    bind_eq_ok, usize_of_captures (i := 0) hcaps rfl hds, u8_of_captures (i := 1) hcaps rfl hes,
    hname, pure_eq_ok, Except.ok.injEq, exists_eq_left']

theorem fromScheme_topLevel : fromScheme d [] = .ok .topLevel := by
  have hmatch : d.engine.isMatch regexTopLevel [] = true := d.engine.complete (finds_topLevel.mpr ⟨rfl, rfl⟩)
  have hother := not_isMatch (by decide) hmatch
  simp (disch := decide) only [fromScheme, hother, hmatch, Bool.false_eq_true, if_false, if_true,
    pure_eq_ok]

/-- What is accepted is documented, or something stands in front of it. -/
theorem documented_of_fromScheme (h : fromScheme d s = .ok params) :
    (Documented s params ∧ ∀ n, params ≠ .port n) ∨ Misplaced s params := by
  obtain ⟨r, hr, caps, hfinds⟩ : ∃ r ∈ regexes, ∃ caps, r.Finds d.isDigit s caps := by
    by_contra hnone
    have hnot : ∀ r ∈ regexes, d.engine.isMatch r s = false := fun r hr =>
      Bool.eq_false_iff.mpr fun hmatch => hnone ⟨r, hr, isMatch_eq_true_iff.mp hmatch⟩
    simp (disch := decide) only [fromScheme, hnot, Bool.false_eq_true, if_false] at h
    cases h
  simp only [regexes, mem_append, mem_map, mem_cons, not_mem_nil, or_false] at hr
  rcases hr with ⟨w, hw, rfl⟩ | rfl | rfl | rfl
  · obtain ⟨⟨_, f⟩, hf, rfl⟩ := mem_map.mp (show w ∈ portParameters.map Prod.fst from hw)
    obtain ⟨ds, hrun, rfl, -⟩ := finds_port.mp hfinds
    obtain ⟨n, hds, rfl⟩ := (fromScheme_port hf hrun).mp h
    exact .inl (documented_port hf hds)
  · obtain ⟨ds, es, hrun, hrun', rfl, -⟩ := finds_specificEndpoint.mp hfinds
    obtain ⟨n, hds, e, hes, rfl⟩ := (fromScheme_endpoint hrun hrun').mp h
    exact .inl ⟨.endpoint hds hes, nofun⟩
  · obtain ⟨pre, ds, es, w, hrun, hrun', hw, rfl, -⟩ := finds_subEndpoint.mp hfinds
    obtain ⟨n, hds, e, hes, rfl⟩ := (fromScheme_subEndpoint pre hrun hrun' hw).mp h
    cases pre with
    | nil => exact .inl ⟨.subEndpoint hds hes hw, nofun⟩
    | cons c pre => exact .inr ⟨c :: pre, _, n, e, w, nofun, rfl, hw, rfl, .subEndpoint hds hes hw⟩
  · obtain ⟨rfl, -⟩ := finds_topLevel.mp hfinds
    cases fromScheme_topLevel.symm.trans h
    exact .inl ⟨.topLevel, nofun⟩

theorem fromScheme_numeral (hf : (w, f) ∈ portParameters) (h : Numeral ds n) :
    fromScheme d (portText ds w) = .ok (f n) :=
  (fromScheme_port hf h.run).mpr ⟨n, h, rfl⟩

theorem fromScheme_of_documented (h : Documented s params) (hport : ∀ n, params ≠ .port n) :
    fromScheme d s = .ok params := by
  cases h with
  | topLevel => exact fromScheme_topLevel
  | port => exact absurd rfl (hport _)
  | configure h => exact fromScheme_numeral (by simp [portParameters]) h
  | descriptors h => exact fromScheme_numeral (by simp [portParameters]) h
  | state h => exact fromScheme_numeral (by simp [portParameters]) h
  | request h => exact fromScheme_numeral (by simp [portParameters]) h
  | endpoints h => exact fromScheme_numeral (by simp [portParameters]) h
  | endpoint h he => exact (fromScheme_endpoint h.run he.run).mpr ⟨_, h, _, he, rfl⟩
  | subEndpoint h he hw => exact (fromScheme_subEndpoint [] h.run he.run hw).mpr ⟨_, h, _, he, rfl⟩

/-- The documented paths of the files of an endpoint. -/
theorem documented_subEndpoint (hw : w ∈ subNames) (h : Documented s (.endpoint n e w)) :
    ∃ ds es, Numeral ds n ∧ Numeral es e.toNat ∧
      s = subText ds es w := by
  cases h with
  | endpoint => exact absurd hw (by decide)
  | subEndpoint h he => exact ⟨_, _, h, he, rfl⟩

theorem fromScheme_of_misplaced (h : Misplaced s params) : fromScheme d s = .ok params := by
  obtain ⟨pre, t, n, e, w, -, rfl, hw, rfl, hdocumented⟩ := h
  obtain ⟨ds, es, hds, hes, rfl⟩ := documented_subEndpoint hw hdocumented
  exact (fromScheme_subEndpoint pre hds.run hes.run hw).mpr ⟨n, hds, e, hes, rfl⟩

theorem not_documented_of_misplaced (d : RegexCrate) (h : Misplaced s params) :
    ¬ Documented s params := by
  intro hs
  obtain ⟨pre, t, n, e, w, hpre, rfl, hw, rfl, ht⟩ := h
  obtain ⟨ds, es, hds, hes, rfl⟩ := documented_subEndpoint hw ht
  obtain ⟨ds', es', hds', hes', heq⟩ := documented_subEndpoint hw hs
  have heq' : _ = [] ++ (subText ds' es' w) := heq
  exact hpre (subEndpoint_inj (d := d) hds.run hes.run hw hds'.run hes'.run hw heq').1

end Branches

/-! ### Handles and their paths -/

section Handles

variable {d : RegexCrate} {hci : Controller} {flags : U64} {params : SchemeParameters} {handle : Handle}
  {s : List Char}

/-- The path, with the numbers as they are written. -/
def SchemeParameters.path : SchemeParameters → List Char
  | topLevel => []
  | port portNum => portPath portNum []
  | portDesc portNum => portPath portNum ('/' :: "descriptors".toList)
  | portState portNum => portPath portNum ('/' :: "state".toList)
  | portReq portNum => portPath portNum ('/' :: "request".toList)
  | endpoints portNum => portPath portNum ('/' :: "endpoints".toList)
  | endpoint portNum endpointNum handleType =>
    endpointPath portNum endpointNum (if handleType = "root".toList then [] else '/' :: handleType)
  | configureEndpoints portNum => portPath portNum ('/' :: "configure".toList)

theorem toScheme_eq (handle : Handle) : handle.toScheme = handle.parameters.path := by
  cases handle with
  | endpoint portNum endpointNum handleType =>
    cases handleType with
    | data | ctl | root => rfl
  | _ => rfl

theorem parameters_of_openHandleSingleEndpoint {portNum : Nat} {endpointNum : U8} {handleType : List Char}
    (h : hci.openHandleSingleEndpoint flags portNum endpointNum handleType = .ok handle) :
    handle.parameters = .endpoint portNum endpointNum handleType := by
  simp only [Controller.openHandleSingleEndpoint, Controller.openHandleEndpointRoot] at h
  split at h
  · rename_i hroot
    obtain ⟨-, h⟩ := ite_error_eq_ok.mp h
    split at h
    · cases h
      rw [hroot]
      rfl
    · cases h
  · split at h
    · rename_i hsub
      obtain ⟨-, h⟩ := ite_error_eq_ok.mp h
      split at h
      · cases h
        rcases hsub with rfl | rfl
        all_goals rfl
      · cases h
    · cases h

theorem parameters_of_openParameters (h : hci.openParameters flags params = .ok handle) :
    handle.parameters = params := by
  cases params with
  | endpoint => exact parameters_of_openHandleSingleEndpoint h
  | topLevel | portState | portReq =>
    obtain ⟨-, h⟩ := ite_error_eq_ok.mp h
    cases h
    rfl
  | port | endpoints =>
    obtain ⟨-, h⟩ := ite_error_eq_ok.mp h
    split at h
    · cases h
    · cases h
      rfl
  | portDesc =>
    obtain ⟨-, h⟩ := ite_error_eq_ok.mp h
    obtain ⟨contents, -, hhandle⟩ := bind_eq_ok.mp h
    cases hhandle
    rfl
  | configureEndpoints =>
    obtain ⟨-, h⟩ := ite_error_eq_ok.mp h
    obtain ⟨-, h⟩ := ite_error_eq_ok.mp h
    cases h
    rfl

/-- What is documented for some numeral is documented for the usual one. -/
theorem Documented.path (h : Documented s params) : Documented params.path params := by
  cases h with
  | topLevel => exact .topLevel
  | port h =>
    rw [SchemeParameters.path, portPath, append_nil]
    exact .port (numeral_decimal h.lt)
  | configure h => exact .configure (numeral_decimal h.lt)
  | descriptors h => exact .descriptors (numeral_decimal h.lt)
  | state h => exact .state (numeral_decimal h.lt)
  | request h => exact .request (numeral_decimal h.lt)
  | endpoints h => exact .endpoints (numeral_decimal h.lt)
  | endpoint h he =>
    rw [SchemeParameters.path, if_pos rfl, endpointPath, portPath, append_nil]
    exact .endpoint (numeral_decimal h.lt) (numeral_decimal he.lt)
  | subEndpoint h he hw =>
    rename_i w
    have hroot : w ≠ "root".toList := by
      rintro rfl
      exact absurd hw (by decide)
    rw [SchemeParameters.path, if_neg hroot]
    exact .subEndpoint (numeral_decimal h.lt) (numeral_decimal he.lt) hw

/-- A handle that was opened has a path that is read as the path it was opened with. -/
theorem roundTrip_of_openPath {uid : U32} (h : hci.openPath flags d s uid = .ok handle) :
    fromScheme d handle.toScheme = .ok handle.parameters := by
  unfold Controller.openPath at h
  split at h
  · cases h
  · obtain ⟨params, hparams, hopen⟩ := bind_eq_ok.mp h
    obtain rfl := parameters_of_openParameters hopen
    rw [toScheme_eq]
    rcases documented_of_fromScheme hparams with ⟨hdocumented, hport⟩ | hmisplaced
    · exact fromScheme_of_documented hdocumented.path hport
    · obtain ⟨pre, t, n, e, w, -, -, -, hendpoint, hdocumented⟩ := hmisplaced
      apply fromScheme_of_documented hdocumented.path
      rw [hendpoint]
      exact nofun

end Handles

section Grammar

variable {d : RegexCrate} {path : List Char}

/-- The directory of a port is documented, but not accepted. -/
theorem PathSound.not_isPort (sound : PathSound d path) : ¬ IsPort path := by
  rintro ⟨ds, n, hds, rfl⟩
  have haccepted := (sound.exact _).mpr (Documented.port hds)
  rcases documented_of_fromScheme haccepted with ⟨-, hport⟩ | hmisplaced
  · exact hport n rfl
  · obtain ⟨_, _, _, _, _, -, -, -, hendpoint, -⟩ := hmisplaced
    cases hendpoint

/-- A file of an endpoint with something in front is accepted, but not documented. -/
theorem PathSound.not_misplaced (sound : PathSound d path) (params : SchemeParameters) :
    ¬ Misplaced path params := by
  intro hmisplaced
  have hdocumented := (sound.exact params).mp (fromScheme_of_misplaced hmisplaced)
  exact not_documented_of_misplaced d hmisplaced hdocumented

end Grammar

/-- For every path: it is accepted exactly if it is documented, and the handles that are opened with it have
paths that are read back, exactly if it is neither the directory of a port nor the path of a file of an
endpoint with something in front. -/
theorem path_grammar_iff (d : RegexCrate) (path : List Char) :
    PathSound d path ↔ ¬ IsPort path ∧ ∀ params, ¬ Misplaced path params := by
  constructor
  · intro sound
    exact ⟨sound.not_isPort, sound.not_misplaced⟩
  · rintro ⟨hport, hmisplaced⟩
    refine ⟨fun params => ⟨fun h => ?_, fun h => ?_⟩, fun hci flags uid handle => roundTrip_of_openPath⟩
    · rcases documented_of_fromScheme h with ⟨hdocumented, -⟩ | hm
      · exact hdocumented
      · exact absurd hm (hmisplaced params)
    · apply fromScheme_of_documented h
      rintro n rfl
      cases h with
      | port hds => exact hport ⟨_, n, hds, rfl⟩

/-- The directory of port 1 is not accepted, and a path that is not documented is. -/
theorem port1_not_sound : ¬ ∃ d : RegexCrate,
    PathSound d "port1".toList ∨ PathSound d "xport1/endpoints/1/ctl".toList := by
  rintro ⟨d, sound⟩
  have hone : Numeral ['1'] 1 := ⟨⟨nofun, by simp⟩, by decide, by decide⟩
  rcases sound with sound | sound
  · exact sound.not_isPort ⟨['1'], 1, hone, by decide⟩
  · apply sound.not_misplaced (.endpoint 1 1 "ctl".toList)
    refine ⟨['x'], "port".toList ++ (['1'] ++ ("/endpoints/".toList ++ (['1'] ++ '/' :: "ctl".toList))), 1, 1,
      "ctl".toList, by decide, by decide, by decide, rfl, ?_⟩
    exact .subEndpoint hone hone (by decide)

end RedoxDrivers.Xhci.Paths
