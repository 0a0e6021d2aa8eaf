import RedoxDrivers.Xhci.Endpoints

/-!
Configuring the endpoints of a device (`configure_endpoints_once` and what it calls in
`xhcid/src/xhci/scheme.rs`).

A request names a configuration of the device. The endpoints of all its interfaces are
counted, a context is filled in for each of them with a new transfer ring, and then the
controller and the device are told.

`configureEndpointsOnce_panics_iff` says for which devices this panics. Companion
descriptors are never there (`Answers.getDesc_noCompanions`), and yet the payload of every
endpoint is taken from its companion, unless it is a periodic endpoint of a device of
USB 2: a device with a bulk endpoint cannot be configured.
-/

namespace RedoxDrivers.Xhci

open Lib List Profile EndpDesc
open BitVec (ofNat)

/-! ### Port speeds -/

structure ProtocolSpeed where
  a : U32
deriving DecidableEq, Repr

inductive Psie where
  | bps
  | kbps
  | mbps
  | gbps
deriving DecidableEq, Repr

namespace ProtocolSpeed

variable (self : ProtocolSpeed)

def psieRaw : U8 := ((self.a &&& 0x00000030) >>> 4).setWidth 8

def psie : Psie :=
  if self.psieRaw = 0 then .bps
  else if self.psieRaw = 1 then .kbps
  else if self.psieRaw = 2 then .mbps
  else .gbps

def pfd : Bool := self.a &&& 0x100 == 0x100

def psim : U16 := ((self.a &&& 0xFFFF0000) >>> 16).setWidth 16

def isLowspeed : Bool := self.psim == 1500 && self.psie == .kbps && !self.pfd

def isFullspeed : Bool := self.psim == 12 && self.psie == .mbps && !self.pfd

def isHighspeed : Bool := self.psim == 480 && self.psie == .mbps && !self.pfd

end ProtocolSpeed

namespace Scheme

/-! ### Endpoint contexts -/

section

variable (p : Profile) (speed : ProtocolSpeed) (dev : DevDesc) (endp : EndpDesc)

def endpCtxInterval : Except Fault U8 :=
  if (speed.isLowspeed || speed.isFullspeed) && endp.isInterrupt then do
    let lastPowerOfTwo ← p.sub 8 endp.interval.clz
    let log ← p.sub lastPowerOfTwo 1
    p.add log 3
  else if speed.isFullspeed && endp.isIsoch then do
    let log ← p.sub endp.interval 1
    p.add log 3
  else if (speed.isFullspeed || endp.isSuperspeed || endp.isSuperspeedplus) &&
      (endp.isInterrupt || endp.isIsoch) then
    p.sub endp.interval 1
  else .ok 0

def endpCtxMaxBurst : Except Fault U8 :=
  if speed.isHighspeed && (endp.isInterrupt || endp.isIsoch) then
    if dev.majorVersion = 2 then .ok (((endp.maxPacketSize &&& 0x0C00) >>> 11).setWidth 8)
    else .error .assertFailed
  else if endp.isSuperspeed then .ok endp.maxBurst
  else .ok 0

def endpCtxMaxPacketSize : U16 := endp.maxPacketSize &&& 0x07FF

/-- The branches of the source that go by the speed stand behind two tests of which one
always succeeds. -/
def endpCtxMaxEsitPayload (maxPacketSize : U16) (maxBurstSize : U8) : Except Fault U32 :=
  if dev.majorVersion = 2 ∧ endp.isPeriodic then do
    let bursts ← p.add (maxBurstSize.setWidth 32) 1
    p.mul (maxPacketSize.setWidth 32) bursts
  else if !endp.hasSspCompanion then do
    let ssc ← unwrap endp.ssc
    return ssc.bytesPerInterval.setWidth 32
  else do
    let sspc ← unwrap endp.sspc
    return sspc.bytesPerInterval

end

/-- The address of memory that `Dma` allocates: it is that of a page. -/
structure PageAddr where
  addr : U64
  aligned : addr &&& 0xFFF = 0

namespace PageAddr

variable (page : PageAddr)

theorem and_page_mask : page.addr &&& 0xFFFFFFFFFFFFF000 = page.addr := by
  have hall : (0xFFF : U64) ||| 0xFFFFFFFFFFFFF000 = BitVec.allOnes 64 := by decide
  calc page.addr &&& 0xFFFFFFFFFFFFF000
      = (page.addr &&& 0xFFF) ||| (page.addr &&& 0xFFFFFFFFFFFFF000) := by
        rw [page.aligned]
        simp
    _ = page.addr &&& (0xFFF ||| 0xFFFFFFFFFFFFF000) := by rw [BitVec.and_or_distrib_left]
    _ = page.addr := by rw [hall, BitVec.and_allOnes]

end PageAddr

/-- What a request finds, and how the steps of it end that may fail. Memory is allocated
for each endpoint number. -/
structure Outcomes where
  lec : Bool
  cie : Bool
  maxPsaSize : U8
  speed : Option ProtocolSpeed
  ring : U8 → Except Errno PageAddr
  streamArray : U8 → Except Errno PageAddr
  configureEndpoint : Except Errno Unit
  setConfiguration : Except Errno Unit
  setInterface : Except Errno Unit

structure ConfigureEndpointsReq where
  configDesc : U8
  interfaceDesc : Option U8
  alternateSetting : Option U8
deriving DecidableEq, Repr

def primaryStreams (p : Profile) (maxPsaSize : U8) (endp : EndpDesc) : Except Fault U8 :=
  match endp.logMaxStreams with
  | some logMaxStreams =>
    if maxPsaSize ≠ 0 then do
      let most ← p.add maxPsaSize 1
      p.sub (if logMaxStreams.toNat ≤ most.toNat then logMaxStreams else most) 1
    else .ok 0
  | none => .ok 0

/-- What is computed for an endpoint before memory is allocated for it: its index in the
device context, whether it has streams, and its context but for the dequeue pointer. -/
structure EndpSetup where
  dci : U8
  streams : Bool
  context : EndpointContext
deriving DecidableEq, Repr

section

variable (p : Profile) (out : Outcomes) (speed : ProtocolSpeed)

def endpSetup (dev : DevDesc) (endpNum : U8) (endp : EndpDesc) : Except Stop EndpSetup := do
  let dci ← checked (endpNumToDci p endpNum endp)
  let primary ← checked (primaryStreams p out.maxPsaSize endp)
  let mult := endp.isochMult out.lec
  let maxPacketSize := endpCtxMaxPacketSize endp
  let maxBurstSize ← checked (endpCtxMaxBurst speed dev endp)
  let maxEsitPayload ← checked (endpCtxMaxEsitPayload p dev endp maxPacketSize maxBurstSize)
  let interval ← checked (endpCtxInterval p speed endp)
  let epTy ← propagate endp.xhciEpType
  let avgTrbLen : U32 ← match endp.ty with
    | .ctrl => .error (.errno .eio)
    | .bulk | .isoch => .ok 3072
    | .interrupt => .ok 1024
  if epTy &&& 7 ≠ epTy ∨ mult &&& 3 ≠ mult ∨ epTy = 0 ∨ primary &&& 0x1F ≠ primary then
    .error (.panic .assertFailed)
  else
    return {
      dci
      streams := endp.logMaxStreams.isSome
      context := {
        a := mult.setWidth 32 <<< 8 ||| primary.setWidth 32 <<< 10 |||
          (if primary ≠ 0 then 1 else 0) <<< 15 ||| interval.setWidth 32 <<< 16 |||
          ((maxEsitPayload &&& 0x00FF0000) >>> 16) <<< 24
        b := 3 <<< 1 ||| epTy.setWidth 32 <<< 3 ||| maxBurstSize.setWidth 32 <<< 8 |||
          maxPacketSize.setWidth 32 <<< 16
        trl := 0
        trh := 0
        c := avgTrbLen ||| (maxEsitPayload &&& 0xFFFF) <<< 16 } }

/-- The rings of an endpoint and the pointer to them. -/
def newTransfer (endpNum : U8) (streams : Bool) : Except Stop (RingOrStreams × U64) :=
  if streams then do
    let array ← propagate (out.streamArray endpNum)
    let ring ← propagate (out.ring endpNum)
    return (.streams (fun id => if id = 1 then some (.new ring.addr 16 true) else none), array.addr)
  else do
    let page ← propagate (out.ring endpNum)
    return (.ring (.new page.addr 16 true), (Ring.new page.addr 16 true).register)

/-! ### Counting -/

/-- The loop that counts endpoints and finds the last context that is used. -/
def countEndpoints : List EndpDesc → U8 → U8 → Except Fault (U8 × U8)
  | [], count, entries => .ok (count, entries)
  | endp :: rest, count, entries => do
    let count ← p.add count 1
    let entry ← endpNumToDci p count endp
    countEndpoints rest count (if entries.toNat < entry.toNat then entry else entries)

/-- The number of endpoints, and the number of contexts that are in use. -/
def countAll (endps : List EndpDesc) : Except Fault (U8 × U8) := do
  let (count, entries) ← countEndpoints p endps 0 1
  let entries ← p.add entries 1
  return (count, entries)

/-- What a request needs to know of the configuration. -/
structure Prepared where
  count : U8
  entries : U8
  configurationValue : U8
  speed : ProtocolSpeed

def prepare (s : PortState) (req : ConfigureEndpointsReq) : Except Stop Prepared := do
  let dev ← checked (unwrap s.devDesc)
  let config ← okOr dev.configDescs[req.configDesc.toNat]? .ebadfd
  let (count, entries) ← checked (countAll p config.endpoints)
  if 31 ≤ count.toNat then .error (.errno .eio)
  else
    let speed ← okOr out.speed .eio
    return { count, entries, configurationValue := config.configurationValue, speed }

/-! ### The request -/

/-- The endpoint of an index is looked up and gets its rings. Nothing is stored yet. -/
def makeEndpoint (s : PortState)
    (endpIdx : U8) : Except Stop (U8 × EndpSetup × RingOrStreams × U64) := do
  let endpNum ← checked (p.add endpIdx 1)
  let dev ← checked (unwrap s.devDesc)
  let endp ← okOr (← checked (s.getEndpDesc p endpIdx)) .eio
  let setup ← endpSetup p out speed dev endpNum endp
  let (transfer, ptr) ← newTransfer out endpNum setup.streams
  if ptr &&& 0xFFFFFFFFFFFFFF81 ≠ ptr then .error (.panic .assertFailed)
  else return (endpNum, setup, transfer, ptr)

/-- One round of the loop over the endpoints. What it has stored stays when it fails. -/
def addEndpoint (endpIdx : U8) (s : PortState) : Except Stop Unit × PortState :=
  match makeEndpoint p out speed s endpIdx with
  | .error stop => (.error stop, s)
  | .ok (endpNum, setup, transfer, ptr) =>
    let s := { s with
      endpointStates := Function.update s.endpointStates endpNum (some ⟨transfer, .init⟩) }
    match p.shl (1 : U32) setup.dci.toNat with
    | .error fault => (.error (.panic fault), s)
    | .ok bit =>
      let s := { s with
        inputContext := { s.inputContext with
          addContext := s.inputContext.addContext ||| bit } }
      if setup.dci.toNat - 1 < 31 then
        (.ok (), { s with
          inputContext := { s.inputContext with
            endpoints := s.inputContext.endpoints.setIfInBounds (setup.dci.toNat - 1)
              { setup.context with
                trl := ptr.setWidth 32
                trh := (ptr >>> 32).setWidth 32 } } })
      else (.error (.errno .eio), s)

/-- The loop over the endpoints. -/
def addEndpoints (count : U8) : PortState → Except Stop Unit × PortState :=
  forUpTo (fun endpIdx => addEndpoint p out speed (ofNat 8 endpIdx)) count.toNat

/-- The slot context and the control word of the request. -/
def writeSlot (req : ConfigureEndpointsReq) (prepared : Prepared)
    (ctx : InputContext) : InputContext :=
  { ctx with
    addContext := 1
    dropContext := 0
    slotA := (ctx.slotA &&& ~~~(0xF8000000 : U32)) |||
      ((prepared.entries.setWidth 32 <<< 27) &&& 0xF8000000)
    control :=
      if out.cie then
        (req.alternateSetting.getD 0).setWidth 32 <<< 16 |||
          (req.interfaceDesc.getD 0).setWidth 32 <<< 8 |||
          prepared.configurationValue.setWidth 32
      else 0 }

def configureEndpointsOnce (s : PortState)
    (req : ConfigureEndpointsReq) : Except Stop Unit × PortState :=
  let s := { s with cfgIdx := some req.configDesc }
  match prepare p out s req with
  | .error stop => (.error stop, s)
  | .ok prepared =>
    let s := { s with inputContext := writeSlot out req prepared s.inputContext }
    match addEndpoints p out prepared.speed prepared.count s with
    | (.error stop, s) => (.error stop, s)
    | (.ok (), s) =>
      ((do
        propagate out.configureEndpoint
        propagate out.setConfiguration), s)

end

/-! ### Device context indices -/

/-- The index of an endpoint without overflow: an output has the even one of its number. -/
def dciNat (endpNum : Nat) (endp : EndpDesc) : Nat :=
  if endp.direction = .out then 2 * endpNum else 2 * endpNum + 1

section Dci

variable {p : Profile} {endp : EndpDesc} {k : Nat}

theorem not_out_iff : (endp.isControl ∨ endp.direction = .in_) ↔ endp.direction ≠ .out := by
  unfold direction
  by_cases hctrl : endp.isControl = true
  all_goals simp [hctrl]

theorem endpNumToDci_of_ne {endpNum : U8} (h : endpNum ≠ 0) : endpNumToDci p endpNum endp = (do
      let double ← p.mul endpNum 2
      if endp.direction = .out then return double else p.add double 1) := by
  unfold endpNumToDci
  rw [if_neg h]
  by_cases hout : endp.direction = .out
  · rw [if_neg (mt not_out_iff.mp (not_not_intro hout)), if_pos hout]
    cases p.mul endpNum 2 <;> simp [hout]
  · rw [if_pos (not_out_iff.mpr hout)]
    simp [hout]

/-- The last number with an index. In a release build that wraps, and so does the counter after
255. -/
def lastNumber : Profile → Nat
  | .debug => 127
  | .release => 255

theorem le_lastNumber (p : Profile) : 127 ≤ lastNumber p := by
  cases p <;> decide

theorem lastNumber_le (p : Profile) : lastNumber p ≤ 255 := by
  cases p <;> decide

theorem endpNumToDci_eq (hpos : 1 ≤ k) (hk : k ≤ lastNumber p) :
    endpNumToDci p (ofNat 8 k) endp = .ok (ofNat 8 (dciNat k endp)) := by
  have hle := lastNumber_le p
  have hne : ofNat 8 k ≠ 0 := by
    rw [Ne, ← BitVec.toNat_inj, toNat_ofNat_of_lt (by omega)]
    exact Nat.ne_of_gt hpos
  have hdebug : p = .debug → k ≤ 127 := by
    rintro rfl
    exact hk
  have hmul : p.mul (ofNat 8 k) 2 = .ok (ofNat 8 (2 * k)) := by
    refine mul_eq_ok.mpr ⟨?_, by rw [Nat.mul_comm, BitVec.ofNat_mul]; rfl⟩
    rintro ⟨hp, hover⟩
    rw [toNat_ofNat_of_lt (by omega), show (2 : U8).toNat = 2 from rfl] at hover
    exact absurd (hdebug hp) (by omega)
  rw [endpNumToDci_of_ne hne, hmul, ok_bind, dciNat]
  split
  · rfl
  · refine add_eq_ok.mpr ⟨?_, (BitVec.ofNat_add _ _).symm⟩
    rintro ⟨hp, hover⟩
    have := hdebug hp
    rw [toNat_ofNat_of_lt (by omega), show (1 : U8).toNat = 1 from rfl] at hover
    omega

theorem endpNumToDci_of_few (few : k < 31) : endpNumToDci p (ofNat 8 (k + 1)) endp =
    .ok (ofNat 8 (dciNat (k + 1) endp)) := by
  have := le_lastNumber p
  exact endpNumToDci_eq (by omega) (by omega)

end Dci

/-! ### Counting without overflow -/

/-- Counting the endpoints does not panic: in a debug build the largest index is below 255,
in a release build the counter does not wrap to 0. -/
def CountFits (p : Profile) (endps : List EndpDesc) : Prop :=
  match p with
  | .debug => endps.length ≤ 126 ∨
      endps.length = 127 ∧ ∃ endp, endps.getLast? = some endp ∧ endp.direction = .out
  | .release => endps.length ≤ 255

section Counting

variable {p : Profile} {endps : List EndpDesc} {k : Nat} {entries : U8}

theorem ofNat_add_one (hk : k < 255) : p.add (ofNat 8 k) 1 = .ok (ofNat 8 (k + 1)) := by
  rw [show (1 : U8) = ofNat 8 1 from rfl, add_ofNat (by omega)]

theorem dci_toNat {endp : EndpDesc} (hk : k ≤ 127) :
    (ofNat 8 (dciNat k endp)).toNat = dciNat k endp := by
  refine toNat_ofNat_of_lt ?_
  unfold dciNat
  split <;> omega

/-- The larger one of two indices is 255 if one of them is. -/
theorem max_eq_last {a b : U8} :
    (if a.toNat < b.toNat then b else a) = 255 ↔ a = 255 ∨ b = 255 := by
  have hlast : (255 : U8).toNat = 255 := rfl
  split <;> simp only [← BitVec.toNat_inj, hlast] <;> omega

variable (endps entries) in
/-- As many endpoints are counted as there are numbers. In a debug build only an input as the 127th
has the index 255. -/
theorem countEndpoints_eq (hk : k + endps.length ≤ lastNumber p) :
    ∃ last, countEndpoints p endps (ofNat 8 k) entries =
        .ok (ofNat 8 (k + endps.length), last) ∧
      (p = .debug → (last = 255 ↔ entries = 255 ∨
        k + endps.length = 127 ∧ ∃ endp, endps.getLast? = some endp ∧ endp.direction ≠ .out)) := by
  induction endps generalizing k entries with
  | nil => exact ⟨entries, rfl, by simp⟩
  | cons endp rest ih =>
    rw [length_cons] at hk
    have hle := lastNumber_le p
    have hrest : k + 1 + rest.length ≤ lastNumber p := by omega
    obtain ⟨last, hlast, hmax⟩ := ih _ hrest
    refine ⟨last, ?_, fun hp => (hmax hp).trans ?_⟩
    · rw [countEndpoints, ofNat_add_one (by omega), ok_bind,
        endpNumToDci_eq (by omega) (by omega), ok_bind, hlast, length_cons]
      congr 3
      omega
    · subst hp
      change k + 1 + rest.length ≤ 127 at hrest
      have hdci : ofNat 8 (dciNat (k + 1) endp) = 255 ↔
          k + 1 = 127 ∧ endp.direction ≠ .out := by
        rw [← BitVec.toNat_inj, dci_toNat (by omega)]
        unfold dciNat
        split
        all_goals
          simp_all
          omega
      rw [max_eq_last, hdci, or_assoc]
      refine or_congr_right ?_
      cases rest with
      | nil => simp
      | cons next rest =>
        simp only [length_cons] at hrest ⊢
        constructor
        · rintro (⟨hfull, -⟩ | h)
          · omega
          · exact ⟨by omega, h.2⟩
        · rintro ⟨hfull, h⟩
          exact .inr ⟨by omega, h⟩

/-- An endpoint after the last number is one too many: its index overflows, or it is that of 0. -/
theorem countEndpoints_fault (hk : k ≤ lastNumber p) (hmany : lastNumber p < k + endps.length) :
    ∃ fault, countEndpoints p endps (ofNat 8 k) entries = .error fault := by
  induction endps generalizing k entries with
  | nil => exact absurd hk (Nat.not_le_of_lt hmany)
  | cons endp rest ih =>
    rcases Nat.lt_or_eq_of_le hk with hlt | rfl
    · have hle := lastNumber_le p
      rw [countEndpoints, ofNat_add_one (by omega), ok_bind, endpNumToDci_eq (by omega) hlt, ok_bind]
      rw [length_cons] at hmany
      exact ih hlt (by omega)
    · cases p with
      | debug =>
        rw [lastNumber, countEndpoints, ofNat_add_one (by decide), ok_bind,
          endpNumToDci_of_ne (by decide)]
        exact ⟨.overflow, rfl⟩
      | release => exact ⟨.unreachable, rfl⟩

theorem add_one_fails_iff {last : U8} :
    (∃ fault, p.add last 1 = .error fault) ↔ p = .debug ∧ last = 255 := by
  have hone : (1 : U8).toNat = 1 := rfl
  have hlast : last = 255 ↔ 2 ^ 8 ≤ last.toNat + (1 : U8).toNat := by
    rw [← BitVec.toNat_inj, hone]
    change last.toNat = 255 ↔ _
    omega
  unfold add
  rw [hlast]
  split
  · rename_i h
    exact ⟨fun _ => h, fun _ => ⟨_, rfl⟩⟩
  · rename_i h
    exact ⟨nofun, fun h' => absurd h' h⟩

end Counting

/-- The counting of a configuration ends with the number of its endpoints, or panics. -/
theorem countAll_cases (p : Profile) (endps : List EndpDesc) : (CountFits p endps ∧
      ∃ entries, countAll p endps = .ok (ofNat 8 endps.length, entries)) ∨
    (¬ CountFits p endps ∧ ∃ fault, countAll p endps = .error fault) := by
  rcases Nat.lt_or_ge (lastNumber p) endps.length with hmany | hfew
  · obtain ⟨fault, hfault⟩ : ∃ fault, countEndpoints p endps 0 1 = .error fault :=
      countEndpoints_fault (k := 0) (Nat.zero_le _) (by rwa [Nat.zero_add])
    refine .inr ⟨?_, fault, by rw [countAll, hfault]; rfl⟩
    cases p with
    | debug =>
      change 127 < _ at hmany
      rintro (h | ⟨h, -⟩) <;> omega
    | release => exact Nat.not_le_of_lt hmany
  · obtain ⟨last, hcount, hlast⟩ := countEndpoints_eq endps 1 (k := 0) (by rwa [Nat.zero_add])
    rw [Nat.zero_add] at hcount hlast
    change countEndpoints p endps 0 1 = _ at hcount
    simp only [countAll, hcount, ok_bind]
    cases hadd : p.add last 1 with
    | error fault =>
      obtain ⟨rfl, hfull⟩ := add_one_fails_iff.mp ⟨fault, hadd⟩
      refine .inr ⟨?_, fault, rfl⟩
      obtain ⟨hlen, endp, hendp, hdir⟩ := ((hlast rfl).mp hfull).resolve_left (by decide)
      rintro (h | ⟨-, endp', hendp', hdir'⟩)
      · omega
      · cases hendp.symm.trans hendp'
        exact hdir hdir'
    | ok entries =>
      refine .inl ⟨?_, entries, rfl⟩
      cases p with
      | release => exact hfew
      | debug =>
        refine (Nat.lt_or_eq_of_le hfew).imp Nat.le_of_lt_succ fun hlen => ⟨hlen, ?_⟩
        have hne : endps ≠ [] := ne_nil_of_length_pos (hlen ▸ by decide)
        refine ⟨endps.getLast hne, getLast?_eq_some_getLast hne, ?_⟩
        by_contra hdir
        have hfull := (hlast rfl).mpr (.inr ⟨hlen, _, getLast?_eq_some_getLast hne, hdir⟩)
        obtain ⟨fault, hfault⟩ := add_one_fails_iff.mpr ⟨rfl, hfull⟩
        cases hadd.symm.trans hfault

/-! ### One endpoint -/

/-- The interval of an endpoint is computed without overflow. -/
def IntervalFits (p : Profile) (speed : ProtocolSpeed) (endp : EndpDesc) : Prop :=
  p = .debug →
    ((speed.isLowspeed || speed.isFullspeed) && endp.isInterrupt → endp.interval ≠ 0) ∧
    (speed.isFullspeed && endp.isIsoch → 1 ≤ endp.interval.toNat ∧ endp.interval.toNat ≤ 253)

/-- An endpoint without companions whose context can be filled in. -/
structure EndpFits (p : Profile) (speed : ProtocolSpeed) (dev : DevDesc) (endp : EndpDesc) :
    Prop where
  usb2 : dev.majorVersion = 2
  periodic : endp.isPeriodic
  interval : IntervalFits p speed endp

section Endp

variable {p : Profile} {speed : ProtocolSpeed} {dev : DevDesc} {endp : EndpDesc}

theorem logInterval_ok : ∀ interval : U8, Except.isOk (do
    let lastPowerOfTwo ← debug.sub 8 interval.clz
    let log ← debug.sub lastPowerOfTwo 1
    debug.add log 3) = (interval != 0) := by
  decide +kernel

theorem isochInterval_ok : ∀ interval : U8, Except.isOk (do
    let log ← debug.sub interval 1
    debug.add log 3) = (1 ≤ interval.toNat && interval.toNat ≤ 253) := by
  decide +kernel

theorem endpCtxInterval_isOk (bare : endp.ssc = none) :
    (endpCtxInterval p speed endp).isOk ↔ IntervalFits p speed endp := by
  have hplain : endp.isSuperspeed = false := by
    rw [isSuperspeed, bare]
    rfl
  unfold endpCtxInterval IntervalFits
  cases p with
  | release =>
    simp only [release_sub, release_add, ok_bind, reduceCtorEq, false_imp_iff,
      iff_true]
    split <;> try rfl
    split <;> try rfl
    split <;> rfl
  | debug =>
    simp only [forall_const, isInterrupt, isIsoch, isSuperspeedplus,
      hplain]
    cases endp.ty with
    | interrupt =>
      by_cases hslow : speed.isLowspeed || speed.isFullspeed
      · rw [if_pos (by simp [hslow]), logInterval_ok]
        simp [hslow]
      · have hfull : speed.isFullspeed = false := by simp_all
        rw [if_neg (by simp [hslow]), if_neg (by simp), if_neg (by simp [hfull])]
        simp [hslow, Except.isOk, Except.toBool]
    | isoch =>
      rw [if_neg (by simp)]
      by_cases hfull : speed.isFullspeed
      · rw [if_pos (by simp [hfull]), isochInterval_ok]
        simp [hfull]
      · simp [hfull, Except.isOk, Except.toBool]
    | ctrl | bulk => simp [Except.isOk, Except.toBool]

theorem endpCtxMaxEsitPayload_ok (usb2 : dev.majorVersion = 2) (periodic : endp.isPeriodic)
    (maxBurstSize : U8) : ∃ payload,
      endpCtxMaxEsitPayload p dev endp (endpCtxMaxPacketSize endp) maxBurstSize = .ok payload := by
  have hburst := maxBurstSize.isLt
  have hpacket : ((endpCtxMaxPacketSize endp).setWidth 32 : U32).toNat ≤ 0x07FF := Nat.and_le_right
  have hadd : p.add (maxBurstSize.setWidth 32 : U32) 1 =
      .ok (.ofNat 32 (maxBurstSize.toNat + 1)) := by
    rw [← BitVec.ofNat_toNat]
    exact add_ofNat (y := 1) (by omega)
  rw [endpCtxMaxEsitPayload, if_pos ⟨usb2, periodic⟩, hadd, ok_bind]
  refine ⟨_, mul_eq_ok.mpr ⟨?_, rfl⟩⟩
  rintro ⟨-, hle⟩
  rw [toNat_ofNat_of_lt (by omega)] at hle
  have := Nat.mul_le_mul hpacket (show maxBurstSize.toNat + 1 ≤ 2 ^ 8 from hburst)
  omega

theorem primaryStreams_bare (bare : endp.ssc = none) (maxPsaSize : U8) :
    primaryStreams p maxPsaSize endp = .ok 0 := by
  unfold primaryStreams logMaxStreams
  rw [bare]
  rfl

theorem isochMult_bare (bare : endp.ssc = none) (lec : Bool) : endp.isochMult lec = 0 := by
  unfold isochMult
  rw [bare]
  simp

theorem ty_of_periodic (periodic : endp.isPeriodic) : endp.ty = .interrupt ∨ endp.ty = .isoch := by
  unfold isPeriodic isInterrupt isIsoch at periodic
  cases hty : endp.ty <;> simp_all

theorem xhciEpType_periodic (periodic : endp.isPeriodic) :
    ∃ epTy, endp.xhciEpType = .ok epTy ∧ epTy &&& 7 = epTy ∧ epTy ≠ 0 := by
  have hctrl : endp.isControl = false := by
    rcases ty_of_periodic periodic with hty | hty <;> rw [isControl, hty] <;> rfl
  have hdir : endp.direction = .in_ ∨ endp.direction = .out := by
    unfold direction
    rw [hctrl, if_neg Bool.false_ne_true]
    split
    · exact .inl rfl
    · exact .inr rfl
  unfold xhciEpType
  rcases ty_of_periodic periodic with hty | hty <;> rcases hdir with hdir | hdir <;>
    rw [hty, hdir] <;> exact ⟨_, rfl, rfl, by decide⟩

variable (out : Outcomes) {i : Nat}

/-- A context is filled in for an endpoint that fits, and it has no streams. -/
theorem endpSetup_ok (bare : endp.ssc = none) (fits : EndpFits p speed dev endp) (few : i < 31) :
    ∃ context, endpSetup p out speed dev (ofNat 8 (i + 1)) endp =
      .ok ⟨ofNat 8 (dciNat (i + 1) endp), false, context⟩ := by
  obtain ⟨maxBurstSize, hburst⟩ : ∃ size, endpCtxMaxBurst speed dev endp = .ok size := by
    rw [endpCtxMaxBurst, if_pos fits.usb2]
    split
    · exact ⟨_, rfl⟩
    · split <;> exact ⟨_, rfl⟩
  obtain ⟨payload, hpayload⟩ :=
    endpCtxMaxEsitPayload_ok (p := p) fits.usb2 fits.periodic maxBurstSize
  obtain ⟨epTy, hepTy, hmask, hne⟩ := xhciEpType_periodic fits.periodic
  have hinterval := (endpCtxInterval_isOk bare).mpr fits.interval
  have hstreams : endp.logMaxStreams.isSome = false := by
    rw [logMaxStreams, bare]
    rfl
  cases hint : endpCtxInterval p speed endp with
  | error =>
    rw [hint] at hinterval
    cases hinterval
  | ok =>
    simp only [endpSetup, endpNumToDci_of_few few, primaryStreams_bare bare, hburst, hpayload,
      hint, checked_ok, ok_bind, hepTy, propagate, isochMult_bare bare, hstreams]
    rcases ty_of_periodic fits.periodic with hty | hty
    all_goals
      simp only [hty]
      exact ⟨_, if_neg (by rintro (h | h | h | h); exacts [h hmask, h rfl, hne h, h rfl])⟩

theorem endpSetup_panics (bare : endp.ssc = none) (h : ¬ EndpFits p speed dev endp)
    (few : i < 31) : Panics (endpSetup p out speed dev (ofNat 8 (i + 1)) endp) := by
  simp only [endpSetup, endpNumToDci_of_few few, primaryStreams_bare bare, checked_ok, ok_bind]
  cases hburst : endpCtxMaxBurst speed dev endp with
  | error fault => exact ⟨fault, rfl⟩
  | ok maxBurstSize =>
    simp only [checked_ok, ok_bind]
    by_cases hperiodic : dev.majorVersion = 2 ∧ endp.isPeriodic
    · obtain ⟨payload, hpayload⟩ :=
        endpCtxMaxEsitPayload_ok (p := p) hperiodic.1 hperiodic.2 maxBurstSize
      have hinterval : ¬ (endpCtxInterval p speed endp).isOk := fun hok =>
        h ⟨hperiodic.1, hperiodic.2, (endpCtxInterval_isOk bare).mp hok⟩
      cases hint : endpCtxInterval p speed endp with
      | error fault =>
        simp only [hpayload, checked_ok, ok_bind]
        exact ⟨fault, rfl⟩
      | ok =>
        rw [hint] at hinterval
        exact absurd rfl hinterval
    · have hssp : endp.hasSspCompanion = false := by
        rw [hasSspCompanion, bare]
        rfl
      rw [endpCtxMaxEsitPayload, if_neg hperiodic, if_pos (by rw [hssp]; rfl), bare]
      exact ⟨.unwrapNone, rfl⟩

end Endp

/-! ### One round of the loop -/

/-- The round of this endpoint ends normally. -/
structure EndpReady (p : Profile) (out : Outcomes) (speed : ProtocolSpeed) (dev : DevDesc) (i : Nat)
    (endp : EndpDesc) : Prop where
  fits : EndpFits p speed dev endp
  ring : ∃ page, out.ring (ofNat 8 (i + 1)) = .ok page
  index : dciNat (i + 1) endp ≤ 31

/-- The round of this endpoint does not panic: its context can be filled in, and a debug
build does not shift by 32 or more. -/
structure EndpSurvives (p : Profile) (out : Outcomes) (speed : ProtocolSpeed) (dev : DevDesc)
    (i : Nat) (endp : EndpDesc) : Prop where
  fits : EndpFits p speed dev endp
  shift : p = .debug → ∀ page, out.ring (ofNat 8 (i + 1)) = .ok page →
    dciNat (i + 1) endp ≤ 31

section Round

variable {p : Profile} {out : Outcomes} {speed : ProtocolSpeed} {dev : DevDesc} {endp : EndpDesc}
  {s : PortState} {i : Nat}

/-- A round keeps the device and the configuration that is set. -/
theorem addEndpoint_keeps (endpIdx : U8) :
    (addEndpoint p out speed endpIdx s).2.devDesc = s.devDesc ∧
    (addEndpoint p out speed endpIdx s).2.cfgIdx = s.cfgIdx := by
  unfold addEndpoint
  split
  · exact ⟨rfl, rfl⟩
  · split
    · exact ⟨rfl, rfl⟩
    · split
      all_goals exact ⟨rfl, rfl⟩

/-- Once an endpoint has its ring, the round ends normally if its index is that of a context;
otherwise a debug build panics and a release build fails. -/
theorem addEndpoint_made {setup : EndpSetup} {endpIdx endpNum : U8} {transfer : RingOrStreams}
    {ptr : U64} (h : makeEndpoint p out speed s endpIdx = .ok (endpNum, setup, transfer, ptr))
    (hpos : 1 ≤ setup.dci.toNat) :
    ((addEndpoint p out speed endpIdx s).1 = .ok () ↔ setup.dci.toNat ≤ 31) ∧
      (Panics (addEndpoint p out speed endpIdx s).1 ↔ p = .debug ∧ 31 < setup.dci.toNat) := by
  simp only [addEndpoint, h]
  unfold shl
  by_cases hin : setup.dci.toNat ≤ 31
  · have hlt : setup.dci.toNat - 1 < 31 := by omega
    rw [if_neg (fun hover => by omega)]
    simp [hlt, hin]
  · have hlt : ¬ setup.dci.toNat - 1 < 31 := by omega
    have hover : 31 < setup.dci.toNat := by omega
    cases p with
    | debug =>
      rw [if_pos ⟨rfl, hover⟩]
      simp [hin, hover, Panics]
    | release =>
      simp [hlt, hin]

section Described

variable (described : s.devDesc = some dev) (found : s.endpoints[i]? = some endp) (few : i < 31)

include described found few

theorem makeEndpoint_eq : makeEndpoint p out speed s (ofNat 8 i) = (do
      let setup ← endpSetup p out speed dev (ofNat 8 (i + 1)) endp
      let (transfer, ptr) ← newTransfer out (ofNat 8 (i + 1)) setup.streams
      if ptr &&& 0xFFFFFFFFFFFFFF81 ≠ ptr then .error (.panic .assertFailed)
      else return (ofNat 8 (i + 1), setup, transfer, ptr)) := by
  have hindex : (ofNat 8 i).toNat = i := toNat_ofNat_of_lt (by omega)
  simp only [makeEndpoint, ofNat_add_one (show i < 255 by omega), described, unwrap, checked_ok,
    ok_bind, PortState.getEndpDesc_eq, hindex, found, okOr]

variable (bare : endp.ssc = none)

include bare

/-- An endpoint that fits gets its ring if there is memory for it. -/
theorem makeEndpoint_of_fits (out : Outcomes) (fits : EndpFits p speed dev endp) :
    ∃ context, makeEndpoint p out speed s (ofNat 8 i) = (do
      let page ← propagate (out.ring (ofNat 8 (i + 1)))
      return (ofNat 8 (i + 1), ⟨ofNat 8 (dciNat (i + 1) endp), false, context⟩,
        .ring (.new page.addr 16 true), (Ring.new page.addr 16 true).register)) := by
  obtain ⟨context, hsetup⟩ := endpSetup_ok out bare fits few
  refine ⟨context, ?_⟩
  rw [makeEndpoint_eq described found few, hsetup, ok_bind, newTransfer,
    if_neg Bool.false_ne_true]
  cases out.ring (ofNat 8 (i + 1)) with
  | error => rfl
  | ok page =>
    -- The pointer to the ring is an address and the cycle bit.
    have hregister : (Ring.new page.addr 16 true).register = page.addr ||| 1 := by
      simp [Ring.register, Ring.new, Ring.slotAddr]
    refine if_neg (not_not_intro ?_)
    rw [hregister, BitVec.and_or_distrib_right]
    congr 1
    rw [← page.and_page_mask, BitVec.and_assoc]
    rfl

variable (p out speed) in
/-- What becomes of the round of an endpoint. -/
theorem addEndpoint_cases : ((addEndpoint p out speed (ofNat 8 i) s).1 = .ok () ↔
        EndpReady p out speed dev i endp) ∧
      (Panics (addEndpoint p out speed (ofNat 8 i) s).1 ↔
        ¬ EndpSurvives p out speed dev i endp) := by
  by_cases fits : EndpFits p speed dev endp
  · obtain ⟨context, hmake⟩ := makeEndpoint_of_fits described found few bare out fits
    cases hring : out.ring (ofNat 8 (i + 1)) with
    | error =>
      rw [hring, propagate, error_bind] at hmake
      have hnone (page : PageAddr) : out.ring (ofNat 8 (i + 1)) ≠ .ok page := by simp [hring]
      simp only [addEndpoint, hmake]
      refine ⟨iff_of_false (by simp) fun ready => ?_, iff_of_false (not_panics_errno _) ?_⟩
      · obtain ⟨page, hpage⟩ := ready.ring
        exact hnone page hpage
      · exact not_not_intro ⟨fits, fun _ page hpage => absurd hpage (hnone page)⟩
    | ok page =>
      rw [hring] at hmake
      have hdci : (ofNat 8 (dciNat (i + 1) endp)).toNat = dciNat (i + 1) endp :=
        dci_toNat (by omega)
      have hpos : 1 ≤ dciNat (i + 1) endp := by
        unfold dciNat
        split <;> omega
      obtain ⟨hok, hpanics⟩ := addEndpoint_made hmake (by rw [hdci]; exact hpos)
      rw [hok, hpanics, hdci]
      refine ⟨⟨fun h => ⟨fits, ⟨page, hring⟩, h⟩, EndpReady.index⟩,
        ⟨fun h survives => ?_, fun h => ?_⟩⟩
      · exact absurd (survives.shift h.1 page hring) (Nat.not_le_of_lt h.2)
      · by_contra hfine
        refine h ⟨fits, fun hdebug _ _ => Nat.le_of_not_lt fun hindex => ?_⟩
        exact hfine ⟨hdebug, hindex⟩
  · obtain ⟨fault, hsetup⟩ := endpSetup_panics out bare fits few
    have hmake : makeEndpoint p out speed s (ofNat 8 i) = .error (.panic fault) := by
      rw [makeEndpoint_eq described found few, hsetup, error_bind]
    simp only [addEndpoint, hmake]
    exact ⟨iff_of_false (by simp) fun ready => fits ready.fits,
      iff_of_true ⟨fault, rfl⟩ fun survives => fits survives.fits⟩

end Described

end Round

/-! ### The whole request -/

/-- Endpoints before this one are all added. -/
def ReadyBefore (p : Profile) (out : Outcomes) (speed : ProtocolSpeed) (dev : DevDesc)
    (endps : List EndpDesc) (i : Nat) : Prop :=
  ∀ j < i, ∀ endp, endps[j]? = some endp → EndpReady p out speed dev j endp

/-- A configuration for which the set-up does not panic: it can be counted, and if it is not
refused for its number of endpoints or for the speed of the port, each endpoint that the loop
comes to survives. -/
structure SetUpFits (p : Profile) (out : Outcomes) (dev : DevDesc) (endps : List EndpDesc) :
    Prop where
  count : CountFits p endps
  survive : endps.length < 31 → ∀ speed, out.speed = some speed → ∀ i endp, endps[i]? = some endp →
    ReadyBefore p out speed dev endps i → EndpSurvives p out speed dev i endp

section Request

variable {p : Profile} {out : Outcomes} {speed : ProtocolSpeed} {dev : DevDesc} {s : PortState}
  {config : ConfDesc} {req : ConfigureEndpointsReq}

/-- The state of the port while the loop runs. -/
structure Working (dev : DevDesc) (endps : List EndpDesc) (s : PortState) : Prop where
  described : s.devDesc = some dev
  endpoints : s.endpoints = endps

theorem Working.addEndpoint {endps : List EndpDesc} (h : Working dev endps s) (endpIdx : U8) :
    Working dev endps (addEndpoint p out speed endpIdx s).2 := by
  obtain ⟨hdev, hcfg⟩ : (Scheme.addEndpoint p out speed endpIdx s).2.devDesc = s.devDesc ∧ _ :=
    addEndpoint_keeps endpIdx
  refine ⟨hdev.trans h.described, ?_⟩
  rw [← h.endpoints, PortState.endpoints, hdev, hcfg]
  rfl

section Loop

variable {endps : List EndpDesc}

theorem keeps_working : ∀ i < endps.length, ∀ s, Working dev endps s →
    Working dev endps (addEndpoint p out speed (ofNat 8 i) s).2 :=
  fun _ _ _ h => h.addEndpoint _

variable (few : endps.length < 31) (bare : ∀ endp ∈ endps, endp.ssc = none)

include few bare

theorem round_cases {i : Nat} (hi : i < endps.length) (working : Working dev endps s) :
    ((addEndpoint p out speed (ofNat 8 i) s).1 = .ok () ↔
        ∀ endp, endps[i]? = some endp → EndpReady p out speed dev i endp) ∧
      (Panics (addEndpoint p out speed (ofNat 8 i) s).1 ↔
        ∃ endp, endps[i]? = some endp ∧ ¬ EndpSurvives p out speed dev i endp) := by
  have hget := getElem?_eq_getElem hi
  have hfound : s.endpoints[i]? = some endps[i] := by rw [working.endpoints, hget]
  have hcases := addEndpoint_cases p out speed working.described hfound (by omega)
    (bare _ (getElem_mem hi))
  rw [hcases.1, hcases.2, hget]
  refine ⟨⟨?_, fun h => h _ rfl⟩, ⟨fun h => ⟨_, rfl, h⟩, ?_⟩⟩
  · rintro ready endp ⟨⟩
    exact ready
  · rintro ⟨endp, ⟨⟩, h⟩
    exact h

variable {count : U8} (hcount : count.toNat = endps.length) (working : Working dev endps s)

include hcount working

theorem addEndpoints_ok_iff : (addEndpoints p out speed count s).1 = .ok () ↔
    ReadyBefore p out speed dev endps endps.length := by
  unfold addEndpoints
  rw [hcount]
  exact forUpTo_ok_iff keeps_working (fun i hi s h => (round_cases few bare hi h).1) working

theorem addEndpoints_panics_iff : Panics (addEndpoints p out speed count s).1 ↔
    ∃ i endp, endps[i]? = some endp ∧ ReadyBefore p out speed dev endps i ∧
      ¬ EndpSurvives p out speed dev i endp := by
  unfold addEndpoints
  rw [hcount, forUpTo_panics_iff keeps_working (fun i hi s h => (round_cases few bare hi h).1)
    (fun i hi s h => (round_cases few bare hi h).2) working]
  constructor
  · rintro ⟨i, -, hbefore, endp, hendp, hnot⟩
    exact ⟨i, endp, hendp, hbefore, hnot⟩
  · rintro ⟨i, endp, hendp, hbefore, hnot⟩
    exact ⟨i, (List.getElem?_eq_some_iff.mp hendp).1, hbefore, endp, hendp, hnot⟩

end Loop

/-- What becomes of the preparation for these endpoints. -/
inductive Preparing (p : Profile) (out : Outcomes) (endps : List EndpDesc) :
    Except Stop Prepared → Prop where
  | panics {fault} : ¬ CountFits p endps → Preparing p out endps (.error (.panic fault))
  | refused : CountFits p endps → ¬ (endps.length < 31 ∧ out.speed.isSome) →
      Preparing p out endps (.error (.errno .eio))
  | prepared {prepared} : CountFits p endps → endps.length < 31 →
      prepared.count.toNat = endps.length → out.speed = some prepared.speed →
      Preparing p out endps (.ok prepared)

theorem prepare_missing (described : s.devDesc = some dev)
    (h : dev.configDescs[req.configDesc.toNat]? = none) {cfgIdx : Option U8} :
    prepare p out { s with cfgIdx } req = .error (.errno .ebadfd) := by
  simp only [prepare, described, unwrap, checked_ok, ok_bind, h, okOr, error_bind]

theorem preparing_prepare (p : Profile) (out : Outcomes) (described : s.devDesc = some dev)
    (hconfig : dev.configDescs[req.configDesc.toNat]? = some config) (cfgIdx : Option U8) :
    Preparing p out config.endpoints (prepare p out { s with cfgIdx } req) := by
  simp only [prepare, described, unwrap, checked_ok, ok_bind, hconfig, okOr]
  obtain ⟨h, entries, hcount⟩ | ⟨h, fault, hcount⟩ := countAll_cases p config.endpoints
  · have hlen : config.endpoints.length ≤ 255 := by
      cases p with
      | debug => rcases h with h | ⟨h, -⟩ <;> omega
      | release => exact h
    have htoNat := toNat_ofNat_of_lt (w := 8) (Nat.lt_succ_of_le hlen)
    simp only [hcount, checked_ok, ok_bind, htoNat]
    by_cases hfew : config.endpoints.length < 31
    · rw [if_neg (Nat.not_le_of_lt hfew)]
      cases hspeed : out.speed with
      | none => exact .refused h (by simp [hspeed])
      | some speed => exact .prepared h hfew htoNat hspeed
    · rw [if_pos (Nat.le_of_not_lt hfew)]
      exact .refused h fun hnot => hfew hnot.1
  · rw [hcount]
    exact .panics h

/-- The port when the loop begins. -/
def begun (out : Outcomes) (s : PortState) (req : ConfigureEndpointsReq) (prepared : Prepared) :
    PortState :=
  { s with
    cfgIdx := some req.configDesc
    inputContext := writeSlot out req prepared s.inputContext }

theorem working_begun (described : s.devDesc = some dev)
    (hconfig : dev.configDescs[req.configDesc.toNat]? = some config) (prepared : Prepared) :
    Working dev config.endpoints (begun out s req prepared) := by
  refine ⟨described, ?_⟩
  simp [PortState.endpoints, begun, described, hconfig]

theorem configureEndpointsOnce_eq : configureEndpointsOnce p out s req =
    match prepare p out { s with cfgIdx := some req.configDesc } req with
    | .error stop => (.error stop, { s with cfgIdx := some req.configDesc })
    | .ok prepared =>
      ((do
        (addEndpoints p out prepared.speed prepared.count (begun out s req prepared)).1
        propagate out.configureEndpoint
        propagate out.setConfiguration),
      (addEndpoints p out prepared.speed prepared.count (begun out s req prepared)).2) := by
  simp only [configureEndpointsOnce, begun]
  split
  · rfl
  · split
    all_goals
      rename_i heq
      rw [heq]
      rfl

theorem bare_endpoints (bare : ∀ config ∈ dev.configDescs, ∀ ifDesc ∈ config.interfaceDescs,
      NoCompanions ifDesc.endpoints)
    (hconfig : dev.configDescs[req.configDesc.toNat]? = some config) :
    ∀ endp ∈ config.endpoints, endp.ssc = none := by
  intro endp hendp
  obtain ⟨ifDesc, hif, hmem⟩ := mem_flatMap.mp hendp
  exact (bare config (mem_of_getElem? hconfig) ifDesc hif endp hmem).1

theorem configureEndpointsOnce_panics (described : s.devDesc = some dev)
    (bare : ∀ endp ∈ config.endpoints, endp.ssc = none)
    (hconfig : dev.configDescs[req.configDesc.toNat]? = some config) :
    Panics (configureEndpointsOnce p out s req).1 ↔ ¬ SetUpFits p out dev config.endpoints := by
  have hcases := preparing_prepare p out described hconfig (some req.configDesc)
  rw [configureEndpointsOnce_eq]
  generalize prepare p out { s with cfgIdx := some req.configDesc } req = result at hcases
  cases hcases with
  | panics hnot => exact iff_of_true ⟨_, rfl⟩ fun fits => hnot fits.count
  | refused hfits hnot =>
    refine iff_of_false (not_panics_errno _) (not_not_intro ⟨hfits, fun hfew speed hspeed => ?_⟩)
    exact absurd ⟨hfew, by rw [hspeed]; rfl⟩ hnot
  | prepared hfits hfew hcount hspeed =>
    simp only [panics_bind, not_panics_propagate, and_false, exists_false, or_false,
      addEndpoints_panics_iff hfew bare hcount (working_begun described hconfig _)]
    constructor
    · rintro ⟨i, endp, hendp, hbefore, hnot⟩ fits
      exact hnot (fits.survive hfew _ hspeed i endp hendp hbefore)
    · intro hnot
      by_contra hnone
      refine hnot ⟨hfits, fun _ speed' hspeed' i endp hendp hbefore => ?_⟩
      cases hspeed.symm.trans hspeed'
      by_contra hsurvives
      exact hnone ⟨i, endp, hendp, hbefore, hsurvives⟩

end Request

/-- **Totality of the set-up.** For every device without companions, every speed and every
configuration index, configuring panics exactly if the configuration exists and does not
fit: it cannot be counted, or the loop comes to an endpoint that is not a periodic one of a
device of USB 2, or whose interval or index overflows. -/
theorem configureEndpointsOnce_panics_iff (p : Profile) (out : Outcomes) {s : PortState}
    {dev : DevDesc} (described : s.devDesc = some dev)
    (bare : ∀ config ∈ dev.configDescs, ∀ ifDesc ∈ config.interfaceDescs,
      NoCompanions ifDesc.endpoints) (req : ConfigureEndpointsReq) :
    ¬ Panics (configureEndpointsOnce p out s req).1 ↔
      ∀ config, dev.configDescs[req.configDesc.toNat]? = some config →
        SetUpFits p out dev config.endpoints := by
  cases hconfig : dev.configDescs[req.configDesc.toNat]? with
  | none =>
    rw [configureEndpointsOnce_eq, prepare_missing described hconfig]
    exact ⟨fun _ => nofun, fun _ => not_panics_errno _⟩
  | some config =>
    rw [configureEndpointsOnce_panics described (bare_endpoints bare hconfig) hconfig, not_not]
    constructor
    · rintro fits config' ⟨⟩
      exact fits
    · exact fun fits => fits config rfl

/-! ### Devices that are configured -/

section Devices

/-- Memory for a ring. -/
def ringPage : PageAddr := ⟨0x1000, rfl⟩

/-- A port of this speed, and nothing fails. -/
def noFailure (speed : ProtocolSpeed) : Outcomes where
  lec := false
  cie := false
  maxPsaSize := 0
  speed := some speed
  ring := fun _ => .ok ringPage
  streamArray := fun _ => .ok ⟨0x2000, rfl⟩
  configureEndpoint := .ok ()
  setConfiguration := .ok ()
  setInterface := .ok ()

/-- 12 Mb/s. -/
def fullSpeed : ProtocolSpeed := ⟨0x000C0020⟩

/-- 480 Mb/s. -/
def highSpeed : ProtocolSpeed := ⟨0x01E00020⟩

def firstConfiguration : ConfigureEndpointsReq := ⟨0, none, none⟩

theorem keyboard_survives :
    ¬ Panics (configureEndpointsOnce .debug (noFailure fullSpeed) (portWith [[interruptIn]])
      firstConfiguration).1 := by
  refine (configureEndpointsOnce_panics_iff .debug (noFailure fullSpeed) rfl ?_ _).mpr ?_
  · simp [interruptIn, NoCompanions]
  · rintro config ⟨⟩
    refine ⟨.inl (by decide), ?_⟩
    rintro - speed ⟨⟩ i endp hendp -
    cases i with
    | succ => cases hendp
    | zero =>
      cases hendp
      exact ⟨⟨rfl, rfl, fun _ => by decide⟩, fun _ _ _ => by decide⟩

/-- The answers of a storage device of USB 2 with a bulk input and a bulk output. -/
def storageAnswers : Answers where
  connected := some true
  device := .ok ⟨18, 1, 0x0200, 0, 0, 0, 64, 0, 0, 0, 0, 0, 0, 1⟩
  config := fun _ => .ok (headerOf 32, bufferOf
    [9, 4, 0, 0, 2, 8, 6, 80, 0, 7, 5, 0x81, 2, 0, 2, 0, 7, 5, 0x02, 2, 0, 2, 0] (by decide))
  string := fun _ => .error .eio

theorem storageAnswers_getDesc (fuel : Nat) : storageAnswers.getDesc .release (fuel + 4) =
    okOr (portWith [[bulkIn, bulkOut]]).devDesc .eio := by
  have hsplit : splitConfig .release (fuel + 4) (headerOf 32) (bufferOf
      [9, 4, 0, 0, 2, 8, 6, 80, 0, 7, 5, 0x81, 2, 0, 2, 0, 7, 5, 0x02, 2, 0, 2, 0] (by decide)) =
      .ok [⟨0, .interface ⟨9, 4, 0, 0, 2, 8, 6, 80, 0⟩⟩, ⟨9, .endpoint ⟨7, 5, 0x81, 2, 512, 0⟩⟩,
        ⟨16, .endpoint ⟨7, 5, 0x02, 2, 512, 0⟩⟩] := by
    rw [splitConfig_eq (by decide), if_neg (by decide)]
    rfl
  have hone : (1 : U8).toNat = 1 := rfl
  simp only [Answers.getDesc, storageAnswers, okOr, propagate, ok_bind, hone, Bool.not_true,
    Bool.false_eq_true, if_false, Answers.describeConfigs, Answers.describeConfig, hsplit,
    checked_ok]
  rfl

/-- A storage device cannot be configured: its bulk endpoint has no companion to take the
payload from. Nor can, in a debug build, a device of full speed whose interrupt endpoint has
the interval 0, a device with a 16th endpoint, whose index is no shift of 32 bits, or one
with 128 endpoints. The 256th endpoint wraps the counter of a release build to 0. -/
theorem storage_panics :
    (storageAnswers.getDesc .release 4089).toOption = (portWith [[bulkIn, bulkOut]]).devDesc ∧
    (configureEndpointsOnce .release (noFailure highSpeed) (portWith [[bulkIn, bulkOut]])
      firstConfiguration).1 = .error (.panic .unwrapNone) ∧
    (configureEndpointsOnce .debug (noFailure fullSpeed)
      (portWith [[{ interruptIn with interval := 0 }]]) firstConfiguration).1 =
        .error (.panic .overflow) ∧
    (configureEndpointsOnce .debug (noFailure highSpeed)
      (portWith [replicate 16 interruptIn]) firstConfiguration).1 =
        .error (.panic .overflow) ∧
    Panics (configureEndpointsOnce .debug (noFailure highSpeed)
      (portWith [replicate 128 interruptIn]) firstConfiguration).1 ∧
    Panics (configureEndpointsOnce .release (noFailure highSpeed)
      (portWith [replicate 128 interruptIn, replicate 128 interruptIn])
      firstConfiguration).1 := by
  refine ⟨?_, rfl, rfl, rfl, ?_, ?_⟩
  · rw [storageAnswers_getDesc 4085]
    rfl
  · refine (configureEndpointsOnce_panics rfl (by simp [ConfDesc.endpoints, interruptIn]) rfl).mpr ?_
    exact mt SetUpFits.count (by simp [CountFits, ConfDesc.endpoints])
  · refine (configureEndpointsOnce_panics rfl ?_ rfl).mpr (mt SetUpFits.count ?_)
    · simp +contextual only [ConfDesc.endpoints, map, flatMap_cons, flatMap_nil, mem_append,
        mem_replicate, or_self, not_mem_nil, or_false, interruptIn, implies_true]
    simp only [CountFits, ConfDesc.endpoints, map, flatMap_cons, flatMap_nil,
      length_append, length_replicate, length_nil]
    decide

end Devices

end Scheme

end RedoxDrivers.Xhci
