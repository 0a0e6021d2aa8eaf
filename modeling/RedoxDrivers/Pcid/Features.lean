import RedoxDrivers.Lib.Runs
import RedoxDrivers.Pcid.Handler

/-!
What a subdriver's requests do to the MSI and MSI-X registers of its function.

A subdriver sends `EnableFeature` and `SetFeatureInfo` requests, one after the other. Two things are
wanted of them: a request that is answered with an error has not changed the registers, and once a feature
was enabled MSI and MSI-X are not both enabled, not even between two accesses of the handler.

The second always holds, since each of the two is turned off before the other is turned on. The first does
not: the other feature is turned off before the handler looks whether the function has the feature it is
asked for, and Multiple Message Enable is written before the message address and data are checked.
`feature_requests_iff` says which requests are the exceptions.

Where the registers are is left open, as the accessors are (`Registers`). `Lawful` is what is taken for
granted of the two: enabling works on the enable bit of its feature, and nothing else changes these bits.
-/

namespace RedoxDrivers.Pcid

open Lib Function Accesses PciFeature

/-- The contents of a configuration space, by the offset of the dword. -/
abbrev ConfigSpace : Type := U16 → U32

/-! ### Registers -/

def PciFeature.other : PciFeature → PciFeature
  | .msi => .msiX
  | .msiX => .msi

@[simp] theorem PciFeature.other_other (feature : PciFeature) : feature.other.other = feature := by
  cases feature <;> rfl

/-- How the registers are read from the configuration space: the enable bits, and the others, which are
Multiple Message Enable, the message address, data and mask, and the function mask. -/
structure Registers (ρ : Type) where
  enabled : PciFeature → ConfigSpace → Bool
  others : ConfigSpace → ρ

namespace Registers

variable {ρ α : Type} (regs : Registers ρ)

/-- The registers have the same contents. -/
def Same (m m' : ConfigSpace) : Prop :=
  (∀ feature, regs.enabled feature m' = regs.enabled feature m) ∧ regs.others m' = regs.others m

/-- Not both features are enabled. -/
def OneAtMost (m : ConfigSpace) : Prop := ¬ (regs.enabled .msi m = true ∧ regs.enabled .msiX m = true)

/-- Code that never changes an enable bit. -/
def Spares (x : Config α) : Prop :=
  ∀ feature b, Keeps (fun m => regs.enabled feature m = b) x

/-- Code that writes an enable bit. The other bit is never changed, and this one is not turned on by code
that turns it off. -/
structure Sets (feature : PciFeature) (b : Bool) (x : Config Unit) : Prop where
  returns : ∀ m, ∃ m', x.runOn m = (.ok (), m') ∧ regs.enabled feature m' = b ∧ regs.others m' = regs.others m
  other : ∀ c, Keeps (fun m => regs.enabled feature.other m = c) x
  off : b = false → Keeps (fun m => regs.enabled feature m = false) x

end Registers

open Registers

structure MsiCapability.Lawful {ρ : Type} (regs : Registers ρ) (cap : MsiCapability) : Prop where
  sets : ∀ b, regs.Sets .msi b (cap.setEnabled b)
  /-- The accessors of the other registers leave the enable bits alone. -/
  spares : cap.Accessors fun _ => regs.Spares
  writes : ∀ support m, ∃ m', (cap.setMultipleMessageEnable support).runOn m = (.ok (), m')
  reads : ∀ m, ∃ support, cap.multipleMessageEnable.runOn m = (.ok support, m)

structure MsixCapability.Lawful {ρ : Type} (regs : Registers ρ) (cap : MsixCapability) : Prop where
  sets : ∀ b, regs.Sets .msiX b (cap.setEnabled b)
  spares : ∀ mask, regs.Spares (cap.setFunctionMask mask)

/-- What is taken for granted of the accessors of `pci_types`. A feature that a function does not have is not
enabled. -/
structure DriverHandler.Lawful {ρ : Type} (regs : Registers ρ) (handler : DriverHandler) : Prop where
  msi : ∀ cap, handler.msi = some cap → cap.Lawful regs
  msiX : ∀ cap, handler.msiX = some cap → cap.Lawful regs
  noMsi : handler.msi = none → ∀ m, regs.enabled .msi m = false
  noMsix : handler.msiX = none → ∀ m, regs.enabled .msiX m = false

/-! ### Requests -/

inductive FeatureRequest where
  | enable (feature : PciFeature)
  | set (info : SetFeatureInfo)
deriving DecidableEq, Repr

def FeatureRequest.request : FeatureRequest → PcidClientRequest
  | enable feature => .enableFeature feature
  | set info => .setFeatureInfo info

/-- The response says that a feature was enabled as requested. -/
def FeatureRequest.enabledBy : FeatureRequest → PcidClientResponse → Bool
  | enable _, .featureEnabled _ => true
  | _, _ => false

structure FunctionState where
  config : ConfigSpace
  /-- An `EnableFeature` request succeeded. -/
  succeeded : Bool

namespace DriverHandler

variable {ρ : Type} (regs : Registers ρ) (handler : DriverHandler)

section

variable (s : FunctionState) (req : FeatureRequest)

/-- A request is answered, or it ends the handler. -/
def featureStep : Option FunctionState :=
  match (handler.respond req.request).runOn s.config with
  | (.ok response, config) => some { config, succeeded := s.succeeded || req.enabledBy response }
  | (.error _, _) => none

/-- An error leaves the registers as they were. -/
def Atomic : Prop :=
  ∀ err config, (handler.respond req.request).runOn s.config = (.ok (.error err), config) →
    regs.Same s.config config

/-- Not both features are enabled once one was enabled by a request, also during the next request. -/
def Exclusive : Prop :=
  s.succeeded = true → (handler.respond req.request).Always regs.OneAtMost s.config

end

/-- The same, between the requests. -/
def ExclusiveNow (s : FunctionState) : Prop := s.succeeded = true → regs.OneAtMost s.config

structure FeatureRequestsSound (m : ConfigSpace) (reqs : List FeatureRequest) : Prop where
  atomic : Along handler.featureStep ⟨m, false⟩ (handler.Atomic regs) reqs
  during : Along handler.featureStep ⟨m, false⟩ (handler.Exclusive regs) reqs
  between : Throughout handler.featureStep ⟨m, false⟩ (ExclusiveNow regs) reqs

def has : PciFeature → Bool
  | .msi => handler.msi.isSome
  | .msiX => handler.msiX.isSome

end DriverHandler

/-- The handler refuses the message, as Multiple Message Enable is. -/
def MsiCapability.Refuses (cap : MsiCapability) (m : ConfigSpace) (message : MsiAddrAndData) : Prop :=
  message.addr &&& 0b11 ≠ 0 ∨ ∃ support, (cap.multipleMessageEnable.runOn m).1 = .ok support ∧
    message.data &&& (((1 : U32) <<< support.asU8.toNat) - 1) ≠ 0

/-- What a `SetFeatureInfo` writes to Multiple Message Enable. -/
def MsiCapability.enabling (cap : MsiCapability) (mme : Option U8) : Option MultipleMessageSupport :=
  mme.bind fun mme => if cap.multipleMessageCapable.asU8 < mme then none else MultipleMessageSupport.ofU8? mme

/-- A feature that does not exist is not asked for while the other one is enabled, and a message that is
refused does not come with a write to Multiple Message Enable that changes a register. -/
def DriverHandler.Untouched {ρ : Type} (regs : Registers ρ) (handler : DriverHandler) (s : FunctionState) :
    FeatureRequest → Prop
  | .enable feature => handler.has feature = false → regs.enabled feature.other s.config = false
  | .set (.msi info) => ∀ cap, handler.msi = some cap →
      ∀ support m, cap.enabling info.multiMessageEnable = some support →
      (cap.setMultipleMessageEnable support).runOn s.config = (.ok (), m) →
      ∀ message, info.messageAddressAndData = some message → cap.Refuses m message → regs.Same s.config m
  | .set (.msiX _) => True

/-! ### Enable bits -/

namespace Registers

variable {ρ α : Type} {regs : Registers ρ} {feature : PciFeature} {m m' : ConfigSpace} {x : Config α}

theorem Same.refl (m : ConfigSpace) : regs.Same m m := ⟨fun _ => rfl, rfl⟩

theorem oneAtMost_iff (feature : PciFeature) : regs.OneAtMost m ↔
    regs.enabled feature m = false ∨ regs.enabled feature.other m = false := by
  cases feature with
  | msi | msiX =>
    simp only [OneAtMost, other]
    grind

theorem composes_spares : Composes fun _ => regs.Spares where
  pure a _ _ := keeps_pure a
  bind hx hf feature b := keeps_bind (hx feature b) fun a => hf a feature b

theorem Spares.keeps (h : regs.Spares x) : Keeps regs.OneAtMost x := by
  intro m hm
  rcases (oneAtMost_iff .msi).mp hm with hoff | hoff
  · exact (h .msi false m hoff).imp fun m' hm' => (oneAtMost_iff .msi).mpr (.inl hm')
  · exact (h .msiX false m hoff).imp fun m' hm' => (oneAtMost_iff .msi).mpr (.inr hm')

/-- Where there is nothing to turn off, nothing is done. -/
theorem sets_pure (h : ∀ m, regs.enabled feature m = false) : regs.Sets feature false (pure ()) :=
  ⟨fun m => ⟨m, rfl, h m, rfl⟩, fun _ => keeps_pure _, fun _ => keeps_pure _⟩

theorem Sets.runOn_other {b : Bool} {x : Config Unit} (h : regs.Sets feature b x)
    (hrun : x.runOn m = (.ok (), m')) : regs.enabled feature.other m' = regs.enabled feature.other m := by
  have hlast := (h.other _ m rfl).runOn
  rwa [hrun] at hlast

/-- Turning a feature off is one of the writes after which not both are on. -/
theorem Sets.keeps_off {x : Config Unit} (h : regs.Sets feature false x) :
    Keeps regs.OneAtMost x := by
  intro m hm
  rcases (oneAtMost_iff feature).mp hm with hoff | hoff
  · exact (h.off rfl m hoff).imp fun m' hm' => (oneAtMost_iff feature).mpr (.inl hm')
  · exact (h.other false m hoff).imp fun m' hm' => (oneAtMost_iff feature).mpr (.inr hm')

end Registers

/-! ### Enabling a feature -/

namespace DriverHandler

variable {ρ : Type} {regs : Registers ρ} {handler : DriverHandler} {m m' : ConfigSpace} {s s' : FunctionState}
  {req : FeatureRequest}

variable (handler) in
def setFeature (b : Bool) : PciFeature → Config Unit
  | .msi => handler.setMsiEnabled b
  | .msiX => handler.setMsixEnabled b

/-- The other feature is turned off before the handler looks whether there is this one. -/
theorem enableFeature_eq (feature : PciFeature) : handler.enableFeature feature = (do
    handler.setFeature false feature.other
    if handler.has feature then do
      handler.setFeature true feature
      return .featureEnabled feature
    else return .error (.nonexistentFeature feature)) := by
  cases feature with
  | msi =>
    cases hmsi : handler.msi <;>
      simp only [enableFeature, setFeature, setMsiEnabled, other, has, hmsi] <;> rfl
  | msiX =>
    cases hmsix : handler.msiX <;>
      simp only [enableFeature, setFeature, setMsixEnabled, other, has, hmsix] <;> rfl

theorem atomic_iff_of_error {err : PcidServerResponseError}
    (h : (handler.respond req.request).runOn s.config = (.ok (.error err), m)) :
    handler.Atomic regs s req ↔ regs.Same s.config m := by
  constructor
  · intro atomic
    exact atomic err m h
  · intro same err' m' h'
    obtain rfl : m = m' := (Prod.mk.inj (h.symm.trans h')).2
    exact same

section Lawful

variable (lawful : handler.Lawful regs)

include lawful

theorem Lawful.sets (feature : PciFeature) (b : Bool) (h : handler.has feature = true ∨ b = false) :
    regs.Sets feature b (handler.setFeature b feature) := by
  cases feature with
  | msi =>
    unfold setFeature setMsiEnabled
    cases hmsi : handler.msi with
    | none =>
      obtain rfl : b = false := h.resolve_left (by simp [has, hmsi])
      exact sets_pure (lawful.noMsi hmsi)
    | some cap => exact (lawful.msi cap hmsi).sets b
  | msiX =>
    unfold setFeature setMsixEnabled
    cases hmsix : handler.msiX with
    | none =>
      obtain rfl : b = false := h.resolve_left (by simp [has, hmsix])
      exact sets_pure (lawful.noMsix hmsix)
    | some cap => exact (lawful.msiX cap hmsix).sets b

/-- What becomes of an `EnableFeature`. -/
theorem Lawful.runOn_enableFeature (feature : PciFeature) (m : ConfigSpace) :
    ∃ off, (handler.setFeature false feature.other).runOn m = (.ok (), off) ∧
      regs.enabled feature.other off = false ∧ regs.enabled feature off = regs.enabled feature m ∧
      regs.others off = regs.others m ∧
      (handler.has feature = false → (handler.enableFeature feature).runOn m =
        (.ok (.error (.nonexistentFeature feature)), off)) ∧
      (handler.has feature = true → ∃ m', (handler.enableFeature feature).runOn m =
        (.ok (.featureEnabled feature), m') ∧ regs.OneAtMost m') := by
  have hoff := lawful.sets feature.other false (.inr rfl)
  obtain ⟨off, hrun, hfalse, hothers⟩ := hoff.returns m
  have hsame := hoff.runOn_other hrun
  rw [other_other] at hsame
  refine ⟨off, hrun, hfalse, hsame, hothers, fun hhas => ?_, fun hhas => ?_⟩
  · rw [enableFeature_eq, runOn_bind_ok hrun, hhas]
    rfl
  · have hon := lawful.sets feature true (.inl hhas)
    obtain ⟨m', hrun', -, -⟩ := hon.returns off
    refine ⟨m', ?_, (oneAtMost_iff feature).mpr (.inr ?_)⟩
    · rw [enableFeature_eq, runOn_bind_ok hrun, hhas, if_pos rfl, runOn_bind_ok hrun']
      rfl
    · rw [hon.runOn_other hrun', hfalse]

theorem Lawful.keeps_enableFeature (feature : PciFeature) :
    Keeps regs.OneAtMost (handler.enableFeature feature) := by
  intro m hm
  obtain ⟨off, hrun, hfalse, -⟩ := lawful.runOn_enableFeature feature m
  have hoff := lawful.sets feature.other false (.inr rfl)
  have hoffOne : regs.OneAtMost off := (oneAtMost_iff feature).mpr (.inr hfalse)
  rw [enableFeature_eq]
  refine always_bind (hoff.keeps_off m hm) fun _ m' hrun' => ?_
  obtain rfl : off = m' := (Prod.mk.inj (hrun.symm.trans hrun')).2
  split
  · -- the other one stays off while this one is turned on
    have hon := lawful.sets _ true (.inl ‹_›)
    refine always_bind ((hon.other false off hfalse).imp fun m' hm' => ?_) fun _ m' hrun' => ?_
    · exact (oneAtMost_iff feature).mpr (.inr hm')
    · exact (oneAtMost_iff feature).mpr (.inr ((hon.runOn_other hrun').trans hfalse))
  · exact hoffOne

theorem Lawful.atomic_enable_iff (feature : PciFeature) :
    handler.Atomic regs s (.enable feature) ↔ handler.Untouched regs s (.enable feature) := by
  obtain ⟨off, -, hfalse, hsame, hothers, hmissing, hpresent⟩ :=
    lawful.runOn_enableFeature feature s.config
  cases hhas : handler.has feature with
  | true =>
    obtain ⟨m', hrun, -⟩ := hpresent hhas
    refine iff_of_true (fun err config herr => ?_) fun hnot => by cases hhas.symm.trans hnot
    cases hrun.symm.trans herr
  | false =>
    have hrun : (handler.respond (FeatureRequest.enable feature).request).runOn s.config = _ := hmissing hhas
    rw [atomic_iff_of_error hrun]
    constructor
    · exact fun same _ => (same.1 feature.other).symm.trans hfalse
    · intro untouched
      refine ⟨fun f => ?_, hothers⟩
      obtain rfl | rfl : f = feature ∨ f = feature.other := by cases f <;> cases feature <;> simp [other]
      · exact hsame
      · rw [hfalse, untouched hhas]

end Lawful

end DriverHandler

/-! ### Setting the other registers -/

namespace MsiCapability

variable {ρ : Type} {regs : Registers ρ} {cap : MsiCapability} {m m' : ConfigSpace} {info : MsiSetFeatureInfo}
  {message : MsiAddrAndData} {err : PcidServerResponseError}

section

variable (lawful : cap.Lawful regs)

include lawful

theorem Lawful.runOn_applyMultiMessage (mme : Option U8) (m : ConfigSpace) :
    (cap.enabling mme = none ∧ ∃ result, (cap.applyMultiMessage mme).runOn m = (.ok result, m)) ∨
    ∃ support m', cap.enabling mme = some support ∧
      (cap.setMultipleMessageEnable support).runOn m = (.ok (), m') ∧
      (cap.applyMultiMessage mme).runOn m = (.ok (.ok ()), m') := by
  cases mme with
  | none => exact .inl ⟨rfl, _, rfl⟩
  | some mme =>
    simp only [enabling, applyMultiMessage, Option.bind_some]
    split
    · exact .inl ⟨rfl, _, rfl⟩
    · cases MultipleMessageSupport.ofU8? mme with
      | none => exact .inl ⟨rfl, _, rfl⟩
      | some support =>
        obtain ⟨m', hrun⟩ := lawful.writes support m
        exact .inr ⟨support, m', rfl, hrun, runOn_bind_ok hrun⟩

/-- A message is refused with an error, and nothing is written. A message that is not refused is no error. -/
theorem Lawful.runOn_applyMessage (message : MsiAddrAndData) (m : ConfigSpace) :
    (cap.Refuses m message ∧
      (cap.applyMessage (some message)).runOn m = (.ok (.error .invalidBitPattern), m)) ∨
    (¬ cap.Refuses m message ∧
      ∀ err m', (cap.applyMessage (some message)).runOn m ≠ (.ok (.error err), m')) := by
  by_cases haddr : message.addr &&& 0b11 ≠ 0
  · refine .inl ⟨.inl haddr, ?_⟩
    rw [applyMessage, if_pos haddr]
    rfl
  obtain ⟨support, hread⟩ := lawful.reads m
  rw [applyMessage, if_neg haddr, runOn_bind_ok hread]
  by_cases hdata : message.data &&& (((1 : U32) <<< support.asU8.toNat) - 1) ≠ 0
  · refine .inl ⟨.inr ⟨support, by rw [hread], hdata⟩, ?_⟩
    rw [if_pos hdata]
    rfl
  refine .inr ⟨?_, fun err m' hrun => ?_⟩
  · rintro (h | ⟨support', hread', hdata'⟩)
    · exact haddr h
    · rw [hread] at hread'
      cases hread'
      exact hdata hdata'
  · rw [if_neg hdata] at hrun
    split at hrun
    · rw [runOn_bind] at hrun
      split at hrun
      all_goals cases hrun
    · cases hrun

/-- The only errors after Multiple Message Enable are messages that are refused, and they write nothing. -/
theorem Lawful.runOn_setMessageAndMask (info : MsiSetFeatureInfo) (m : ConfigSpace) :
    ((∃ message, info.messageAddressAndData = some message ∧ cap.Refuses m message) ∧
      (cap.setMessageAndMask info).runOn m = (.ok (.error .invalidBitPattern), m)) ∨
    ((∀ message, info.messageAddressAndData = some message → ¬ cap.Refuses m message) ∧
      ∀ err m', (cap.setMessageAndMask info).runOn m ≠ (.ok (.error err), m')) := by
  have hmask (mid : ConfigSpace) (err : PcidServerResponseError) (m' : ConfigSpace) :
      (do cap.applyMask info.maskBits; return .setFeatureInfo .msi : Config PcidClientResponse).runOn mid ≠
        (.ok (.error err), m') := by
    intro hrun
    rw [runOn_bind] at hrun
    split at hrun
    all_goals cases hrun
  cases hmessage : info.messageAddressAndData with
  | none =>
    refine .inr ⟨nofun, fun err m' hrun => hmask m err m' ?_⟩
    rwa [setMessageAndMask, hmessage] at hrun
  | some message =>
    rcases lawful.runOn_applyMessage message m with ⟨hrefuses, hrun⟩ | ⟨hnot, hrun⟩
    · refine .inl ⟨⟨message, rfl, hrefuses⟩, ?_⟩
      rw [setMessageAndMask, hmessage, runOn_bind_ok hrun]
      rfl
    · refine .inr ⟨fun x hx => by cases hx; exact hnot, fun err m' herr => ?_⟩
      rw [setMessageAndMask, hmessage, runOn_bind] at herr
      split at herr
      · rename_i result mid hmid
        cases result with
        | error err => exact hrun err mid hmid
        | ok => exact hmask mid err m' herr
      · cases herr

end

end MsiCapability

namespace DriverHandler

variable {ρ : Type} {regs : Registers ρ} {handler : DriverHandler} {m : ConfigSpace} {s s' : FunctionState}
  {req : FeatureRequest} (lawful : handler.Lawful regs)

include lawful

theorem Lawful.keeps_respond (req : FeatureRequest) :
    Keeps regs.OneAtMost (handler.respond req.request) := by
  cases req with
  | enable feature => exact lawful.keeps_enableFeature feature
  | set info =>
    cases info with
    | msi =>
      exact (holds_existing composes_spares fun cap hcap => (lawful.msi cap hcap).spares.setFeatureInfo
        composes_spares fun _ _ _ _ _ => keeps_panic _).keeps
    | msiX functionMask =>
      exact (holds_existing composes_spares fun cap hcap => MsixCapability.holds_setFeatureInfo
        composes_spares (lawful.msiX cap hcap).spares functionMask).keeps

/-- If Multiple Message Enable is not written before an error, nothing is. -/
theorem Lawful.atomic_set_iff (info : SetFeatureInfo) :
    handler.Atomic regs s (.set info) ↔ handler.Untouched regs s (.set info) := by
  cases info with
  | msiX functionMask =>
    refine iff_of_true (fun err m' hrun => ?_) trivial
    change (existing _ _ handler.msiX).runOn _ = _ at hrun
    cases hmsix : handler.msiX with
    | none =>
      rw [hmsix] at hrun
      cases hrun
      exact Same.refl _
    | some cap =>
      rw [hmsix] at hrun
      cases functionMask with
      | none => cases hrun
      | some mask =>
        simp only [existing, MsixCapability.setFeatureInfo, runOn_bind] at hrun
        split at hrun
        all_goals cases hrun
  | msi info =>
    unfold Atomic Untouched
    change (∀ err config, (existing _ _ handler.msi).runOn _ = _ → _) ↔ _
    cases hmsi : handler.msi with
    | none =>
      refine iff_of_true (fun err m' hrun => ?_) nofun
      cases hrun
      exact Same.refl _
    | some cap =>
      have hcap := lawful.msi cap hmsi
      simp only [existing, MsiCapability.setFeatureInfo, Option.some.injEq, forall_eq']
      rcases hcap.runOn_applyMultiMessage info.multiMessageEnable s.config with
        ⟨hnone, result, happly⟩ | ⟨support, mid, hsupport, hmid, happly⟩
      · refine iff_of_true (fun err m' hrun => ?_) fun support m h => by cases hnone.symm.trans h
        rw [runOn_bind_ok happly] at hrun
        cases result with
        | error =>
          cases hrun
          exact Same.refl _
        | ok =>
          rcases hcap.runOn_setMessageAndMask info s.config with ⟨-, hrefused⟩ | ⟨-, hnone⟩
          · cases hrefused.symm.trans hrun
            exact Same.refl _
          · exact absurd hrun (hnone err m')
      · simp only [runOn_bind_ok happly]
        rcases hcap.runOn_setMessageAndMask info mid with ⟨⟨message, hmessage, hrefuses⟩, hrun⟩ | ⟨hnot, hrun⟩
        · rw [hrun]
          constructor
          · intro same support' m hsupport' hm _ _ _
            cases hsupport.symm.trans hsupport'
            cases hmid.symm.trans hm
            exact same _ _ rfl
          · rintro h err m' ⟨⟩
            exact h support mid hsupport hmid message hmessage hrefuses
        · refine iff_of_true (fun err m' herr => absurd herr (hrun err m')) ?_
          intro support' m hsupport' hm message hmessage hrefuses
          cases hsupport.symm.trans hsupport'
          cases hmid.symm.trans hm
          exact absurd hrefuses (hnot message hmessage)

/-! ### Whole runs -/

theorem Lawful.exclusiveNow_step (hs : ExclusiveNow regs s) (h : handler.featureStep s req = some s') :
    ExclusiveNow regs s' := by
  unfold featureStep at h
  split at h
  · rename_i response config hrun
    cases h
    intro hs'
    rcases Bool.or_eq_true_iff.mp hs' with hbefore | hnow
    · have hlast := (lawful.keeps_respond req s.config (hs hbefore)).runOn
      rwa [hrun] at hlast
    · cases req with
      | enable feature =>
        obtain ⟨off, -, -, -, -, hmissing, hpresent⟩ := lawful.runOn_enableFeature feature s.config
        change (handler.enableFeature feature).runOn s.config = _ at hrun
        cases hhas : handler.has feature with
        | false =>
          cases (hmissing hhas).symm.trans hrun
          cases hnow
        | true =>
          obtain ⟨m', hrun', hone⟩ := hpresent hhas
          cases hrun'.symm.trans hrun
          exact hone
      | set => cases hnow
  · cases h

/-- For every function and all requests: errors leave the registers alone, and not both features are
enabled, exactly if none of the requests is one of the exceptions. -/
theorem feature_requests_iff (m : ConfigSpace) (reqs : List FeatureRequest) :
    handler.FeatureRequestsSound regs m reqs ↔
      Along handler.featureStep ⟨m, false⟩ (handler.Untouched regs) reqs := by
  have atomic_iff : ∀ s req, handler.Atomic regs s req ↔ handler.Untouched regs s req := by
    intro s req
    cases req with
    | enable feature => exact lawful.atomic_enable_iff feature
    | set info => exact lawful.atomic_set_iff info
  have start : ExclusiveNow regs ⟨m, false⟩ := nofun
  have between : Throughout handler.featureStep ⟨m, false⟩ (ExclusiveNow regs) reqs :=
    fun pre _ s hs => invariant_of_run start (fun _ _ _ hs hstep => lawful.exclusiveNow_step hs hstep) hs
  constructor
  · intro sound
    exact sound.atomic.imp fun s req => (atomic_iff s req).mp
  · intro untouched
    refine ⟨untouched.imp fun s req => (atomic_iff s req).mpr, ?_, between⟩
    exact (along_of_throughout between).imp fun s req hs hsucceeded =>
      lawful.keeps_respond req s.config (hs hsucceeded)

end DriverHandler

/-! ### Two functions -/

section Functions

/-- MSI-X at 0x40, with the enable bit and the function mask where the PCI specification has them. -/
def msixAt : MsixCapability where
  tableBar := 0
  tableOffset := 0x2000
  tableSize := 0x20
  pbaBar := 0
  pbaOffset := 0x3000
  setEnabled b := .modify 0x40 (setBits 31 (BitVec.ofBool b))
  setFunctionMask b := .modify 0x40 (setBits 30 (BitVec.ofBool b))

/-- MSI at 0x50 for a single message. The enable bit is in the first dword, and the address and the data are
in the next two. -/
def msiAt : MsiCapability where
  multipleMessageCapable := .int1
  is64bit := false
  hasPerVectorMasking := false
  setEnabled b := .modify 0x50 (setBits 16 (BitVec.ofBool b))
  setMultipleMessageEnable _ := pure ()
  multipleMessageEnable := pure .int1
  dataWidth := 32
  setMessageInfo addr data := do
    .set 0x54 (addr.setWidth 32)
    .set 0x58 data
  setMessageMask _ := pure ()

def bothAt : Registers (Bool × U32 × U32) where
  enabled
    | .msi, m => (m 0x50).getLsbD 16
    | .msiX, m => (m 0x40).getLsbD 31
  others m := ((m 0x40).getLsbD 30, m 0x54, m 0x58)

def msixOnly : DriverHandler where
  args :=
    { addr := ⟨0, .last 31, .last 7⟩
      fullDeviceId := ⟨0x1b36, 0x10, 1, 8, 2, 2⟩ }
  capabilities := [.msiX msixAt]

def msiAndMsix : DriverHandler := { msixOnly with capabilities := [.msi msiAt, .msiX msixAt] }

theorem msiAndMsix_lawful : msiAndMsix.Lawful bothAt where
  msi cap hcap := by
    cases hcap
    refine ⟨fun b => ⟨fun m => ⟨_, rfl, ?_, ?_⟩, fun c => keeps_modify fun m hm => ?_, ?_⟩, ?_, ?_, ?_⟩
    · simp [bothAt, getElem_setBits]
    · simp [bothAt]
    · simpa [bothAt, other] using hm
    · rintro rfl
      exact keeps_modify fun m _ => by simp [bothAt, getElem_setBits]
    · refine ⟨fun _ _ _ => keeps_pure _, fun _ _ => keeps_pure _, fun addr data feature b => ?_,
        fun _ _ _ => keeps_pure _⟩
      refine keeps_bind (keeps_set fun m hm => ?_) fun _ => keeps_set fun m hm => ?_
      all_goals cases feature with
        | msi | msiX => exact hm
    · exact fun _ m => ⟨m, rfl⟩
    · exact fun m => ⟨_, rfl⟩
  msiX cap hcap := by
    cases hcap
    refine ⟨fun b => ⟨fun m => ⟨_, rfl, ?_, ?_⟩, fun c => keeps_modify fun m hm => ?_, ?_⟩, ?_⟩
    · simp [bothAt, getElem_setBits]
    · simp [bothAt, getElem_setBits]
    · simpa [bothAt, other] using hm
    · rintro rfl
      exact keeps_modify fun m _ => by simp [bothAt, getElem_setBits]
    · intro mask feature b
      refine keeps_modify fun m hm => ?_
      cases feature with
      | msi | msiX => simpa [bothAt, getElem_setBits] using hm
  noMsi := nofun
  noMsix := nofun

/-- MSI-X, a message that is refused, and MSI. -/
theorem msiAndMsix_sound : msiAndMsix.FeatureRequestsSound bothAt (fun _ => 0)
      [.enable .msiX, .set (.msi ⟨none, some ⟨1, 0⟩, none⟩), .enable .msi] := by
  refine (DriverHandler.feature_requests_iff msiAndMsix_lawful _ _).mpr ?_
  refine along_cons.mpr ⟨nofun, fun s _ => along_cons.mpr ⟨fun _ _ _ _ => nofun, fun s _ => ?_⟩⟩
  exact along_cons.mpr ⟨nofun, fun _ _ => along_nil⟩

/-- MSI-X is enabled, and then MSI is asked for: the answer is an error, and MSI-X is off. -/
theorem msixOnly_not_sound :
    ¬ msixOnly.FeatureRequestsSound bothAt (fun offset => if offset = 0x40 then 0x80000011 else 0)
      [.enable .msi] := by
  intro sound
  have same := sound.atomic [] _ [] rfl _ rfl _ _ rfl
  exact absurd (same.1 .msiX) (by decide)

end Functions

end RedoxDrivers.Pcid
