import RedoxDrivers.Xhci.Configure

/-!
Which configuration a port is in (`configure_endpoints` in `xhcid/src/xhci/scheme.rs`).

`cfg_idx` says which configuration is set, and a request for that one is skipped. But a
request writes it before it has looked at anything, and no failure takes it back. A port
says the truth along a run of requests exactly if none of them fails once it has begun
(`Configuring.truthful_iff_succeeds`): after a failure the same request is skipped, and
answered as if it had been carried out.
-/

namespace RedoxDrivers.Xhci

open Lib Option

namespace Scheme

/-! ### The request -/

section Defs

variable (p : Profile) (fromSlice : List U8 → Option ConfigureEndpointsReq) (out : Outcomes)

/-- The checks before anything is done. -/
def acceptReq (port : Option PortState) (jsonBuf : List U8) :
    Except Stop (ConfigureEndpointsReq × PortState) := do
  let req ← okOr (fromSlice jsonBuf) .ebadmsg
  if req.interfaceDesc.isSome ≠ req.alternateSetting.isSome then .error (.errno .ebadmsg)
  else
    let s ← okOr port .ebadfd
    return (req, s)

/-- The interface is set last, if the request names one. -/
def chooseInterface (req : ConfigureEndpointsReq) : Except Stop Unit :=
  match req.interfaceDesc, req.alternateSetting with
  | some _, some _ => propagate out.setInterface
  | _, _ => return ()

def configureEndpoints (port : Option PortState) (jsonBuf : List U8) :
    Except Stop Unit × Option PortState :=
  match acceptReq fromSlice port jsonBuf with
  | .error stop => (.error stop, port)
  | .ok (req, s) =>
    if s.cfgIdx = some req.configDesc then (chooseInterface out req, some s)
    else
      ((do
        (configureEndpointsOnce p out s req).1
        chooseInterface out req), some (configureEndpointsOnce p out s req).2)

/-- The loop over the endpoints is passed, and the controller is given the command. -/
def reachesCommand (s : PortState) (req : ConfigureEndpointsReq) : Bool :=
  match prepare p out { s with cfgIdx := some req.configDesc } req with
  | .error _ => false
  | .ok prepared =>
    (addEndpoints p out prepared.speed prepared.count (begun out s req prepared)).1.isOk

end Defs

/-! ### Runs -/

/-- A port with what its controller and its device were last told: the index of the
configuration of the last Configure Endpoint command that succeeded, and that of the last
SET_CONFIGURATION. -/
structure Configuring where
  port : Option PortState
  controller : Option U8
  device : Option U8

structure Request where
  jsonBuf : List U8
  out : Outcomes

namespace Configuring

section Defs

variable (p : Profile) (fromSlice : List U8 → Option ConfigureEndpointsReq)

/-- What the controller and the device are told by a request that is not skipped. -/
def tell (s : Configuring) (out : Outcomes) (port : PortState) (req : ConfigureEndpointsReq) :
    Configuring :=
  if reachesCommand p out port req && out.configureEndpoint.isOk then
    { s with
      controller := some req.configDesc
      device := if out.setConfiguration.isOk then some req.configDesc else s.device }
  else s

/-- One request. A panic ends the run. -/
def step (s : Configuring) (e : Request) : Option Configuring :=
  let told := match acceptReq fromSlice s.port e.jsonBuf with
    | .error _ => s
    | .ok (req, port) =>
      if port.cfgIdx = some req.configDesc then s else s.tell p e.out port req
  match configureEndpoints p fromSlice e.out s.port e.jsonBuf with
  | (.error (.panic _), _) => none
  | (_, port) => some { told with port }

end Defs

/-- The configuration that the port says is set exists, and the controller and the device
were told so. -/
def Truthful (s : Configuring) : Prop :=
  ∀ port, s.port = some port → ∀ c, port.cfgIdx = some c →
    (∃ dev config, port.devDesc = some dev ∧ dev.configDescs[c.toNat]? = some config) ∧
      s.controller = some c ∧ s.device = some c

/-- The configuration and the endpoints of the port are the same. -/
def Unchanged (s s' : Configuring) : Prop :=
  s'.port.map PortState.cfgIdx = s.port.map PortState.cfgIdx ∧
    s'.port.map PortState.endpointStates = s.port.map PortState.endpointStates

/-- The port says the truth after a request, and a request that fails changes nothing. -/
def Respects (p : Profile) (fromSlice : List U8 → Option ConfigureEndpointsReq) (s : Configuring)
    (e : Request) : Prop :=
  ∀ s', step p fromSlice s e = some s' →
    s'.Truthful ∧
      ((configureEndpoints p fromSlice e.out s.port e.jsonBuf).1 ≠ .ok () → s.Unchanged s')

end Configuring

/-- Every step of configuring these endpoints succeeds. -/
structure Configures (p : Profile) (out : Outcomes) (dev : DevDesc) (endps : List EndpDesc) :
    Prop where
  count : CountFits p endps
  few : endps.length < 31
  ready : ∃ speed, out.speed = some speed ∧ ReadyBefore p out speed dev endps endps.length
  controller : out.configureEndpoint = .ok ()
  device : out.setConfiguration = .ok ()

/-- The request is refused before anything is done, or it is for the configuration that is
set, or nothing fails. -/
def Configuring.Succeeds (p : Profile) (fromSlice : List U8 → Option ConfigureEndpointsReq)
    (s : Configuring) (e : Request) : Prop :=
  ∀ req, fromSlice e.jsonBuf = some req →
    req.interfaceDesc.isSome = req.alternateSetting.isSome → ∀ port, s.port = some port →
      port.cfgIdx = some req.configDesc ∨
        (∃ dev config, port.devDesc = some dev ∧
          dev.configDescs[req.configDesc.toNat]? = some config ∧
          Configures p e.out dev config.endpoints) ∧
        (req.interfaceDesc.isSome → e.out.setInterface = .ok ())

/-! ### One request -/

section Once

variable {p : Profile} {out : Outcomes} {s : PortState} {dev : DevDesc} {config : ConfDesc}
  {req : ConfigureEndpointsReq}

/-- The loop over the endpoints keeps the device and the configuration that is set. -/
theorem addEndpoints_keeps (speed : ProtocolSpeed) (count : U8) :
    (addEndpoints p out speed count s).2.devDesc = s.devDesc ∧
      (addEndpoints p out speed count s).2.cfgIdx = s.cfgIdx := by
  have keep : ∀ i < count.toNat, ∀ t : PortState, t.devDesc = s.devDesc ∧ t.cfgIdx = s.cfgIdx →
      (addEndpoint p out speed (BitVec.ofNat 8 i) t).2.devDesc = s.devDesc ∧
        (addEndpoint p out speed (BitVec.ofNat 8 i) t).2.cfgIdx = s.cfgIdx := by
    rintro i - t ⟨hdev, hcfg⟩
    obtain ⟨hdev', hcfg'⟩ := addEndpoint_keeps (p := p) (s := t) (BitVec.ofNat 8 i)
    exact ⟨hdev'.trans hdev, hcfg'.trans hcfg⟩
  exact forUpTo_inv keep ⟨rfl, rfl⟩

/-- The configuration is written whatever becomes of the request. -/
theorem configureEndpointsOnce_keeps : (configureEndpointsOnce p out s req).2.devDesc = s.devDesc ∧
      (configureEndpointsOnce p out s req).2.cfgIdx = some req.configDesc := by
  rw [configureEndpointsOnce_eq]
  cases prepare p out { s with cfgIdx := some req.configDesc } req with
  | error => exact ⟨rfl, rfl⟩
  | ok => exact addEndpoints_keeps _ _

theorem configureEndpointsOnce_ok (h : (configureEndpointsOnce p out s req).1 = .ok ()) :
    reachesCommand p out s req ∧ out.configureEndpoint = .ok () ∧
      out.setConfiguration = .ok () := by
  rw [configureEndpointsOnce_eq] at h
  unfold reachesCommand
  cases hprepare : prepare p out { s with cfgIdx := some req.configDesc } req with
  | error =>
    rw [hprepare] at h
    cases h
  | ok =>
    rw [hprepare] at h
    obtain ⟨⟨⟩, hloop, h⟩ := bind_eq_ok.mp h
    obtain ⟨⟨⟩, hcommand, hset⟩ := bind_eq_ok.mp h
    exact ⟨congrArg Except.isOk hloop, propagate_eq_ok.mp hcommand, propagate_eq_ok.mp hset⟩

theorem configureEndpointsOnce_ok_iff (described : s.devDesc = some dev)
    (bare : ∀ config ∈ dev.configDescs, ∀ ifDesc ∈ config.interfaceDescs,
      NoCompanions ifDesc.endpoints) : (configureEndpointsOnce p out s req).1 = .ok () ↔
      ∃ config, dev.configDescs[req.configDesc.toNat]? = some config ∧
        Configures p out dev config.endpoints := by
  cases hconfig : dev.configDescs[req.configDesc.toNat]? with
  | none =>
    rw [configureEndpointsOnce_eq, prepare_missing described hconfig]
    exact ⟨nofun, nofun⟩
  | some config =>
    have hcases := preparing_prepare p out described hconfig (some req.configDesc)
    simp only [configureEndpointsOnce_eq, some.injEq, exists_eq_left']
    generalize prepare p out { s with cfgIdx := some req.configDesc } req = result at hcases
    cases hcases with
    | panics hnot => exact ⟨nofun, fun h => absurd h.count hnot⟩
    | refused _ hnot =>
      refine ⟨nofun, fun h => absurd ⟨h.few, ?_⟩ hnot⟩
      obtain ⟨speed, hspeed, -⟩ := h.ready
      rw [hspeed]
      rfl
    | prepared hfits hfew hcount hspeed =>
      simp only [bind_eq_ok, propagate_eq_ok, addEndpoints_ok_iff hfew (bare_endpoints bare hconfig)
        hcount (working_begun described hconfig _)]
      constructor
      · rintro ⟨⟨⟩, hready, ⟨⟩, hcommand, hset⟩
        exact ⟨hfits, hfew, ⟨_, hspeed, hready⟩, hcommand, hset⟩
      · rintro ⟨-, -, ⟨speed', hspeed', hready⟩, hcommand, hset⟩
        cases hspeed.symm.trans hspeed'
        exact ⟨(), hready, (), hcommand, hset⟩

end Once

section Requests

variable {p : Profile} {fromSlice : List U8 → Option ConfigureEndpointsReq} {out : Outcomes}
  {port : Option PortState} {jsonBuf : List U8} {req : ConfigureEndpointsReq} {s : PortState}

theorem acceptReq_eq_ok : acceptReq fromSlice port jsonBuf = .ok (req, s) ↔
    fromSlice jsonBuf = some req ∧ req.interfaceDesc.isSome = req.alternateSetting.isSome ∧
      port = some s := by
  unfold acceptReq
  rw [bind_eq_ok]
  constructor
  · rintro ⟨req', hparse, h⟩
    rw [okOr_eq_ok] at hparse
    split at h
    · cases h
    · rename_i hmatch
      obtain ⟨s', hport, h⟩ := bind_eq_ok.mp h
      cases h
      exact ⟨hparse, not_not.mp hmatch, okOr_eq_ok.mp hport⟩
  · rintro ⟨hparse, hmatch, hport⟩
    refine ⟨req, okOr_eq_ok.mpr hparse, ?_⟩
    rw [if_neg (not_not_intro hmatch), hport]
    rfl

theorem chooseInterface_eq_ok (h : req.interfaceDesc.isSome = req.alternateSetting.isSome) :
    chooseInterface out req = .ok () ↔ (req.interfaceDesc.isSome → out.setInterface = .ok ()) := by
  unfold chooseInterface
  cases hinterface : req.interfaceDesc with
  | none => simp
  | some =>
    cases halternate : req.alternateSetting with
    | none => simp [hinterface, halternate] at h
    | some => simp

end Requests

namespace Configuring

variable {p : Profile} {fromSlice : List U8 → Option ConfigureEndpointsReq} {s s' : Configuring}
  {e : Request} {req : ConfigureEndpointsReq} {port : PortState}

/-- What a request does. -/
theorem step_cases (h : step p fromSlice s e = some s') :
    ((∀ req port, acceptReq fromSlice s.port e.jsonBuf ≠ .ok (req, port)) ∧ s' = s) ∨
    (∃ req port, acceptReq fromSlice s.port e.jsonBuf = .ok (req, port) ∧
      port.cfgIdx = some req.configDesc ∧ s' = s) ∨
    ∃ req port, acceptReq fromSlice s.port e.jsonBuf = .ok (req, port) ∧
      port.cfgIdx ≠ some req.configDesc ∧
      s' = { s.tell p e.out port req with
        port := some (configureEndpointsOnce p e.out port req).2 } ∧
      (configureEndpoints p fromSlice e.out s.port e.jsonBuf).1 = (do
        (configureEndpointsOnce p e.out port req).1
        chooseInterface e.out req) := by
  simp only [step, configureEndpoints] at h ⊢
  cases haccept : acceptReq fromSlice s.port e.jsonBuf with
  | error stop =>
    refine .inl ⟨nofun, ?_⟩
    simp only [haccept] at h
    split at h
    · cases h
    · rename_i heq
      cases heq
      exact (some.inj h).symm
  | ok accepted =>
    obtain ⟨req, port⟩ := accepted
    obtain ⟨-, -, hport⟩ := acceptReq_eq_ok.mp haccept
    simp only [haccept] at h ⊢
    by_cases halready : port.cfgIdx = some req.configDesc
    · refine .inr (.inl ⟨req, port, rfl, halready, ?_⟩)
      simp only [if_pos halready] at h
      split at h
      · cases h
      · rename_i heq
        cases heq
        rw [← hport] at h
        exact (some.inj h).symm
    · refine .inr (.inr ⟨req, port, rfl, halready, ?_, by rw [if_neg halready]⟩)
      simp only [if_neg halready] at h
      split at h
      · cases h
      · rename_i heq
        cases heq
        exact (some.inj h).symm

/-- The port has a device that `get_desc` has described. -/
def Described (s : Configuring) : Prop :=
  ∀ port, s.port = some port → ∃ dev, port.devDesc = some dev ∧
    ∀ config ∈ dev.configDescs, ∀ ifDesc ∈ config.interfaceDescs, NoCompanions ifDesc.endpoints

/-- What every request of a run finds. -/
structure Inv (s : Configuring) : Prop where
  described : s.Described
  truthful : s.Truthful

variable {out : Outcomes}

/-- The port says the truth after a request that is carried out. -/
theorem truthful_of_ok {dev : DevDesc} {config : ConfDesc} (described : port.devDesc = some dev)
    (hconfig : dev.configDescs[req.configDesc.toNat]? = some config)
    (h : (configureEndpointsOnce p out port req).1 = .ok ()) : Truthful { s.tell p out port req with
      port := some (configureEndpointsOnce p out port req).2 } := by
  rintro _ ⟨⟩ c hcfg
  obtain ⟨hdev, hidx⟩ := configureEndpointsOnce_keeps (p := p) (s := port)
  obtain rfl : req.configDesc = c := some.inj (hidx.symm.trans hcfg)
  refine ⟨⟨dev, config, hdev.trans described, hconfig⟩, ?_⟩
  obtain ⟨hreaches, hcommand, hset⟩ := configureEndpointsOnce_ok h
  simp [tell, hreaches, hcommand, hset, Except.isOk, Except.toBool]

/-- A request that begins changes the configuration, so it keeps to the rules only if it
does not fail. -/
theorem respects_iff_succeeds (inv : s.Inv) (h : step p fromSlice s e = some s') :
    Respects p fromSlice s e ↔ Succeeds p fromSlice s e := by
  have hrespects : Respects p fromSlice s e ↔ s'.Truthful ∧
      ((configureEndpoints p fromSlice e.out s.port e.jsonBuf).1 ≠ .ok () → s.Unchanged s') := by
    refine ⟨fun hr => hr s' h, fun hr t ht => ?_⟩
    obtain rfl : s' = t := some.inj (h.symm.trans ht)
    exact hr
  rw [hrespects]
  rcases step_cases h with ⟨hrefused, rfl⟩ | ⟨req, port, haccept, halready, rfl⟩ |
    ⟨req, port, haccept, hnot, rfl, hresult⟩
  · refine ⟨fun _ req hparse hmatch port hport => ?_, fun _ => ⟨inv.truthful, fun _ => ⟨rfl, rfl⟩⟩⟩
    exact absurd (acceptReq_eq_ok.mpr ⟨hparse, hmatch, hport⟩) (hrefused req port)
  · refine ⟨fun _ req' hparse hmatch port' hport => .inl ?_,
      fun _ => ⟨inv.truthful, fun _ => ⟨rfl, rfl⟩⟩⟩
    cases haccept.symm.trans (acceptReq_eq_ok.mpr ⟨hparse, hmatch, hport⟩)
    exact halready
  · obtain ⟨hparse, hmatch, hport⟩ := acceptReq_eq_ok.mp haccept
    obtain ⟨dev, hdev, bare⟩ := inv.described port hport
    rw [hresult]
    constructor
    · rintro ⟨-, hkeeps⟩ req' hparse' hmatch' port' hport'
      cases haccept.symm.trans (acceptReq_eq_ok.mpr ⟨hparse', hmatch', hport'⟩)
      by_cases hok : (do
          (configureEndpointsOnce p e.out port req).1
          chooseInterface e.out req) = .ok ()
      · obtain ⟨⟨⟩, honce, hinterface⟩ := bind_eq_ok.mp hok
        obtain ⟨config, hconfig, hall⟩ := (configureEndpointsOnce_ok_iff hdev bare).mp honce
        exact .inr ⟨⟨dev, config, hdev, hconfig, hall⟩,
          (chooseInterface_eq_ok hmatch).mp hinterface⟩
      · -- the index that was written is not the old one
        obtain ⟨hsame, -⟩ := hkeeps hok
        rw [hport] at hsame
        refine absurd ?_ hnot
        rw [← some.inj hsame]
        exact configureEndpointsOnce_keeps.2
    · intro hsucceeds
      rcases hsucceeds req hparse hmatch port hport with halready |
        ⟨⟨dev', config, hdev', hconfig, hall⟩,
        hinterface⟩
      · exact absurd halready hnot
      · cases hdev.symm.trans hdev'
        have honce := (configureEndpointsOnce_ok_iff hdev bare).mpr ⟨config, hconfig, hall⟩
        refine ⟨truthful_of_ok hdev hconfig honce, fun hfails => absurd ?_ hfails⟩
        exact bind_eq_ok.mpr ⟨(), honce, (chooseInterface_eq_ok hmatch).mpr hinterface⟩

theorem inv_step (inv : s.Inv) (hsucceeds : Succeeds p fromSlice s e)
    (h : step p fromSlice s e = some s') : s'.Inv := by
  obtain ⟨htruthful, -⟩ := (respects_iff_succeeds inv h).mpr hsucceeds s' h
  refine ⟨?_, htruthful⟩
  rcases step_cases h with ⟨-, rfl⟩ | ⟨-, -, -, -, rfl⟩ | ⟨req, port, haccept, -, rfl, -⟩
  · exact inv.described
  · exact inv.described
  · rintro _ ⟨⟩
    obtain ⟨dev, hdev, bare⟩ := inv.described port (acceptReq_eq_ok.mp haccept).2.2
    exact ⟨dev, configureEndpointsOnce_keeps.1.trans hdev, bare⟩

/-- **The configuration of a port.** Along every run of requests from a port on which none
is set, the port says the truth and failures change nothing exactly if no request fails once
it has begun. -/
theorem truthful_iff_succeeds (p : Profile) (fromSlice : List U8 → Option ConfigureEndpointsReq)
    {start : Configuring} (described : start.Described)
    (unset : ∀ port, start.port = some port → port.cfgIdx = none)
    {es : List Request} {s : Configuring} (h : run (step p fromSlice) start es = some s) :
    Along (step p fromSlice) start (Respects p fromSlice) es ↔
      Along (step p fromSlice) start (Succeeds p fromSlice) es := by
  have init : start.Inv := by
    refine ⟨described, fun port hport c hc => ?_⟩
    rw [unset port hport] at hc
    cases hc
  exact along_iff_along init (fun s e s' inv hP hstep => inv_step inv hP hstep)
    (fun s e s' inv hstep => respects_iff_succeeds inv hstep) h

/-! ### Runs on a keyboard -/

section Runs

/-- A keyboard with one configuration, which is not set yet. -/
def keyboard : Configuring := ⟨some { portWith [[interruptIn]] with cfgIdx := none }, none, none⟩

/-- A parser for requests of one byte, the index of the configuration. -/
def indexOnly : List U8 → Option ConfigureEndpointsReq
  | [c] => some ⟨c, none, none⟩
  | _ => none

def request (c : U8) : Request := ⟨[c], noFailure fullSpeed⟩

theorem keyboard_truthful : Along (step .debug indexOnly) keyboard (Respects .debug indexOnly)
    [request 0, request 0] := by
  obtain ⟨s, h⟩ : ∃ s, run (step .debug indexOnly) keyboard [request 0, request 0] = some s :=
    ⟨_, rfl⟩
  refine (truthful_iff_succeeds .debug indexOnly ?_ ?_ h).mpr ?_
  · rintro _ ⟨⟩
    exact ⟨_, rfl, by simp [NoCompanions, interruptIn]⟩
  · rintro _ ⟨⟩
    rfl
  · refine along_cons.mpr ⟨?_, fun s hs => along_cons.mpr ⟨?_, fun _ _ => along_nil⟩⟩
    · rintro _ ⟨⟩ - _ ⟨⟩
      refine .inr ⟨⟨_, _, rfl, rfl, .inl (by decide), by decide, ⟨fullSpeed, rfl, ?_⟩, rfl, rfl⟩,
        fun _ => rfl⟩
      intro j hj endp hendp
      obtain rfl : j = 0 := Nat.lt_one_iff.mp hj
      cases hendp
      exact ⟨⟨rfl, rfl, fun _ => by decide⟩, ⟨_, rfl⟩, by decide⟩
    · cases hs
      rintro _ ⟨⟩ - _ ⟨⟩
      exact .inl rfl

/-- The controller refuses the command. -/
def refusedRequest : Request := ⟨[0], { noFailure fullSpeed with configureEndpoint := .error .eio }⟩

/-- A request for a configuration that does not exist fails, and one for which the controller
refuses the command does. Both leave the port in that configuration, and when they are
repeated they are answered with success, though neither the controller nor the device was
told. -/
theorem failure_answered_as_success :
    (configureEndpoints .debug indexOnly (request 1).out keyboard.port [1]).1 =
        .error (.errno .ebadfd) ∧
      (∃ s, step .debug indexOnly keyboard (request 1) = some s ∧
        s.port.map PortState.cfgIdx = some (some 1) ∧
        (configureEndpoints .debug indexOnly (request 1).out s.port [1]).1 = .ok () ∧
        s.controller = none ∧ s.device = none) ∧
      (configureEndpoints .debug indexOnly refusedRequest.out keyboard.port [0]).1 =
        .error (.errno .eio) ∧
      (∃ s, step .debug indexOnly keyboard refusedRequest = some s ∧
        s.port.map PortState.cfgIdx = some (some 0) ∧
        (configureEndpoints .debug indexOnly (request 0).out s.port [0]).1 = .ok () ∧
        s.controller = none ∧ s.device = none) ∧
      ¬ Along (step .debug indexOnly) keyboard (Respects .debug indexOnly) [request 1] := by
  refine ⟨rfl, ⟨_, rfl, rfl, rfl, rfl, rfl⟩, rfl, ⟨_, rfl, rfl, rfl, rfl, rfl⟩, fun h => ?_⟩
  have htruthful := ((along_cons.mp h).1 _ rfl).1 _ rfl 1 rfl
  cases htruthful.2.1

end Runs

end Configuring

end Scheme

end RedoxDrivers.Xhci
