import RedoxDrivers.Lib.Accesses
import RedoxDrivers.Lib.Bits
import RedoxDrivers.Lib.Endian
import RedoxDrivers.Pcid.Enumeration

/-!
How `pcid` answers the requests of a subdriver (`respond` in `pcid/src/driver_handler.rs`).

The answer is worked out by accesses to the function's own configuration space: `Config` is the type of
such code, and an offset in it is the one that `Pcie::read` or `Pcie::write` is called with. What an access
does, and which offsets it takes, is in `Pcid.Clients`.

The two capabilities come from the crate `pci_types`, which is not part of the repository. What the handler
calls of it are fields of `MsiCapability` and `MsixCapability`, and which registers they access is left
open. What is taken for granted of them is said where it is used (`DriverHandler.Orderly`,
`DriverHandler.Lawful`).
-/

namespace RedoxDrivers.Pcid

open Lib

/-- Code that works on the configuration space of one function. -/
abbrev Config (α : Type) : Type := Accesses U16 U32 α

/-! ### Capabilities -/

inductive MultipleMessageSupport where
  | int1
  | int2
  | int4
  | int8
  | int16
  | int32
deriving DecidableEq, Repr

namespace MultipleMessageSupport

def asU8 : MultipleMessageSupport → U8
  | int1 => 0
  | int2 => 1
  | int4 => 2
  | int8 => 3
  | int16 => 4
  | int32 => 5

def ofU8? (n : U8) : Option MultipleMessageSupport :=
  match n.toNat with
  | 0 => some .int1
  | 1 => some .int2
  | 2 => some .int4
  | 3 => some .int8
  | 4 => some .int16
  | 5 => some .int32
  | _ => none

end MultipleMessageSupport

structure MsiCapability where
  multipleMessageCapable : MultipleMessageSupport
  is64bit : Bool
  hasPerVectorMasking : Bool
  setEnabled : Bool → Config Unit
  setMultipleMessageEnable : MultipleMessageSupport → Config Unit
  multipleMessageEnable : Config MultipleMessageSupport
  /-- The width of the message data that `set_message_info` takes. -/
  dataWidth : Nat
  setMessageInfo : U64 → BitVec dataWidth → Config Unit
  setMessageMask : U32 → Config Unit

structure MsixCapability where
  tableBar : U8
  tableOffset : U32
  tableSize : U16
  pbaBar : U8
  pbaOffset : U32
  setEnabled : Bool → Config Unit
  setFunctionMask : Bool → Config Unit

inductive PciCapability where
  | msi (cap : MsiCapability)
  | msiX (cap : MsixCapability)
  | vendor (offset : U16)
  | other (id : U8)

namespace PciCapability

def msi? : PciCapability → Option MsiCapability
  | msi cap => some cap
  | _ => none

def msiX? : PciCapability → Option MsixCapability
  | msiX cap => some cap
  | _ => none

def vendor? : PciCapability → Option U16
  | vendor offset => some offset
  | _ => none

end PciCapability

/-! ### Requests and responses -/

inductive PciFeature where
  | msi
  | msiX
deriving DecidableEq, Repr

def PciCapability.feature? : PciCapability → Option PciFeature
  | .msi _ => some .msi
  | .msiX _ => some .msiX
  | _ => none

structure MsiAddrAndData where
  addr : U64
  data : U32
deriving DecidableEq, Repr

structure MsiSetFeatureInfo where
  multiMessageEnable : Option U8
  messageAddressAndData : Option MsiAddrAndData
  maskBits : Option U32
deriving DecidableEq, Repr

inductive SetFeatureInfo where
  | msi (info : MsiSetFeatureInfo)
  | msiX (functionMask : Option Bool)
deriving DecidableEq, Repr

inductive PcidClientRequest where
  | requestConfig
  | requestFeatures
  | requestVendorCapabilities
  | enableFeature (feature : PciFeature)
  | featureInfo (feature : PciFeature)
  | setFeatureInfo (info : SetFeatureInfo)
  | readConfig (offset : U16)
  | writeConfig (offset : U16) (value : U32)
deriving DecidableEq, Repr

inductive PcidServerResponseError where
  | nonexistentFeature (feature : PciFeature)
  | invalidBitPattern
deriving DecidableEq, Repr

structure MsiInfo where
  log2MultipleMessageCapable : U8
  is64bit : Bool
  hasPerVectorMasking : Bool
deriving DecidableEq, Repr

structure MsixInfo where
  tableBar : U8
  tableOffset : U32
  tableSize : U16
  pbaBar : U8
  pbaOffset : U32
deriving DecidableEq, Repr

inductive PciFeatureInfo where
  | msi (info : MsiInfo)
  | msiX (info : MsixInfo)
deriving DecidableEq, Repr

/-- What a subdriver is told about its function. -/
structure SubdriverArguments where
  addr : Address
  fullDeviceId : FullDeviceId
deriving DecidableEq, Repr

inductive PcidClientResponse where
  | config (args : SubdriverArguments)
  | allFeatures (features : List PciFeature)
  | vendorCapabilities (data : List (List U8))
  | featureEnabled (feature : PciFeature)
  | error (err : PcidServerResponseError)
  | featureInfo (feature : PciFeature) (info : PciFeatureInfo)
  | setFeatureInfo (feature : PciFeature)
  | readConfig (value : U32)
  | writeConfig
deriving DecidableEq, Repr

/-! ### The handler -/

/-- The handler of one connection. -/
structure DriverHandler where
  args : SubdriverArguments
  capabilities : List PciCapability

/-- The dwords of a vendor specific capability, as bytes. -/
def readDwords (offset : U16) : Nat → Config (List U8)
  | 0 => pure []
  | n + 1 => do
    let dword ← .get offset
    let rest ← readDwords (offset + 4) n
    return Endian.leBytes 4 dword.toNat ++ rest

/-- The length in the first dword of such a capability. -/
def vendorLength (dword : U32) : Nat := ((dword >>> 16) &&& 0xff).toNat

/-- `VendorSpecificCapability::parse`. -/
def parseVendor (offset : U16) : Config (List U8) := do
  let dword ← .get offset
  let length := vendorLength dword
  if length > 0 then
    if length > 3 ∧ length % 4 = 0 then
      let rawData ← readDwords offset (length / 4)
      return rawData.drop 3
    else
      .panic .assertFailed
  else
    return []

def parseVendors : List U16 → Config (List (List U8))
  | [] => pure []
  | offset :: offsets => do
    let data ← parseVendor offset
    let rest ← parseVendors offsets
    return data :: rest

section

variable (cap : MsiCapability)

/-- The first part of a `SetFeatureInfo` for MSI. -/
def MsiCapability.applyMultiMessage : Option U8 → Config (Except PcidServerResponseError Unit)
  | none => pure (.ok ())
  | some mme =>
    if cap.multipleMessageCapable.asU8 < mme then pure (.error .invalidBitPattern)
    else
      match MultipleMessageSupport.ofU8? mme with
      | none => pure (.error .invalidBitPattern)
      | some support => do
        cap.setMultipleMessageEnable support
        return .ok ()

/-- The second part. -/
def MsiCapability.applyMessage :
    Option MsiAddrAndData → Config (Except PcidServerResponseError Unit)
  | none => pure (.ok ())
  | some message =>
    if message.addr &&& 0b11 ≠ 0 then pure (.error .invalidBitPattern)
    else do
      let mme ← cap.multipleMessageEnable
      if message.data &&& (((1 : U32) <<< mme.asU8.toNat) - 1) ≠ 0 then return .error .invalidBitPattern
      else if message.data.toNat < 2 ^ cap.dataWidth then
        cap.setMessageInfo message.addr (message.data.setWidth cap.dataWidth)
        return .ok ()
      else
        -- MSI message data too big
        .panic .unwrapNone

/-- The third part. -/
def MsiCapability.applyMask : Option U32 → Config Unit
  | none => pure ()
  | some mask => cap.setMessageMask mask

def MsiCapability.setMessageAndMask (info : MsiSetFeatureInfo) : Config PcidClientResponse := do
  match ← cap.applyMessage info.messageAddressAndData with
  | .error err => return .error err
  | .ok () =>
    cap.applyMask info.maskBits
    return .setFeatureInfo .msi

def MsiCapability.setFeatureInfo (info : MsiSetFeatureInfo) : Config PcidClientResponse := do
  match ← cap.applyMultiMessage info.multiMessageEnable with
  | .error err => return .error err
  | .ok () => cap.setMessageAndMask info

end

def MsixCapability.setFeatureInfo (cap : MsixCapability) (functionMask : Option Bool) :
    Config PcidClientResponse := do
  match functionMask with
  | none => pure ()
  | some mask => cap.setFunctionMask mask
  return .setFeatureInfo .msiX

namespace DriverHandler

variable (handler : DriverHandler)

def msi : Option MsiCapability := handler.capabilities.findSome? PciCapability.msi?

def msiX : Option MsixCapability := handler.capabilities.findSome? PciCapability.msiX?

def vendors : List U16 := handler.capabilities.filterMap PciCapability.vendor?

def setMsiEnabled (enabled : Bool) : Config Unit :=
  match handler.msi with
  | none => pure ()
  | some cap => cap.setEnabled enabled

def setMsixEnabled (enabled : Bool) : Config Unit :=
  match handler.msiX with
  | none => pure ()
  | some cap => cap.setEnabled enabled

/-- The answer to a request for a capability that the function may not have. -/
def existing {κ : Type} (feature : PciFeature) (body : κ → Config PcidClientResponse) :
    Option κ → Config PcidClientResponse
  | none => pure (.error (.nonexistentFeature feature))
  | some cap => body cap

def enableFeature : PciFeature → Config PcidClientResponse
  | .msi => do
    -- MSI and MSI-X can't be active at the same time.
    handler.setMsixEnabled false
    existing .msi (fun cap => do cap.setEnabled true; return .featureEnabled .msi) handler.msi
  | .msiX => do
    handler.setMsiEnabled false
    existing .msiX (fun cap => do cap.setEnabled true; return .featureEnabled .msiX) handler.msiX

def featureInfo : PciFeature → Config PcidClientResponse
  | .msi => existing .msi (fun cap => pure (.featureInfo .msi (.msi
      { log2MultipleMessageCapable := cap.multipleMessageCapable.asU8, is64bit := cap.is64bit,
        hasPerVectorMasking := cap.hasPerVectorMasking }))) handler.msi
  | .msiX => existing .msiX (fun cap => pure (.featureInfo .msiX (.msiX
      { tableBar := cap.tableBar, tableOffset := cap.tableOffset, tableSize := cap.tableSize,
        pbaBar := cap.pbaBar, pbaOffset := cap.pbaOffset }))) handler.msiX

def setFeatureInfo : SetFeatureInfo → Config PcidClientResponse
  | .msi info => existing .msi (fun cap => cap.setFeatureInfo info) handler.msi
  | .msiX functionMask => existing .msiX (fun cap => cap.setFeatureInfo functionMask) handler.msiX

def respond : PcidClientRequest → Config PcidClientResponse
  | .requestVendorCapabilities => do
    let data ← parseVendors handler.vendors
    return .vendorCapabilities data
  | .requestConfig => return .config handler.args
  | .requestFeatures => return .allFeatures (handler.capabilities.filterMap PciCapability.feature?)
  | .enableFeature feature => handler.enableFeature feature
  | .featureInfo feature => handler.featureInfo feature
  | .setFeatureInfo info => handler.setFeatureInfo info
  | .readConfig offset => do
    let value ← .get offset
    return .readConfig value
  | .writeConfig offset value => do
    .set offset value
    return .writeConfig

end DriverHandler

/-! ### What its accessors have, a request has -/

structure MsiCapability.Accessors (P : (α : Type) → Config α → Prop) (cap : MsiCapability) : Prop where
  setMultipleMessageEnable : ∀ support, P _ (cap.setMultipleMessageEnable support)
  multipleMessageEnable : P _ cap.multipleMessageEnable
  setMessageInfo : ∀ addr data, P _ (cap.setMessageInfo addr data)
  setMessageMask : ∀ mask, P _ (cap.setMessageMask mask)

section Composes

variable {P : (α : Type) → Config α → Prop} (hP : Accesses.Composes P)

include hP

theorem MsiCapability.Accessors.setFeatureInfo {cap : MsiCapability} (h : cap.Accessors P)
    {info : MsiSetFeatureInfo} (hbig : ∀ message, info.messageAddressAndData = some message →
      ¬ message.data.toNat < 2 ^ cap.dataWidth → P (Except PcidServerResponseError Unit) (.panic .unwrapNone)) :
    P _ (cap.setFeatureInfo info) := by
  refine hP.bind ?_ fun result => ?_
  · unfold applyMultiMessage
    split
    · exact hP.pure _
    · split
      · exact hP.pure _
      · split
        · exact hP.pure _
        · exact hP.bind (h.setMultipleMessageEnable _) fun _ => hP.pure _
  rcases result with err | _
  · exact hP.pure _
  refine hP.bind ?_ fun result => ?_
  · unfold applyMessage
    split
    · exact hP.pure _
    · split
      · exact hP.pure _
      · refine hP.bind h.multipleMessageEnable fun mme => ?_
        split
        · exact hP.pure _
        · split
          · exact hP.bind (h.setMessageInfo _ _) fun _ => hP.pure _
          · exact hbig _ ‹_› ‹_›
  rcases result with err | _
  · exact hP.pure _
  refine hP.bind ?_ fun _ => hP.pure _
  unfold applyMask
  split
  · exact hP.pure _
  · exact h.setMessageMask _

theorem MsixCapability.holds_setFeatureInfo {cap : MsixCapability}
    (h : ∀ mask, P _ (cap.setFunctionMask mask)) (functionMask : Option Bool) :
    P _ (cap.setFeatureInfo functionMask) := by
  cases functionMask with
  | none => exact hP.pure _
  | some mask => exact hP.bind (h mask) fun _ => hP.pure _

theorem DriverHandler.holds_existing {κ : Type} {feature : PciFeature} {body : κ → Config PcidClientResponse}
    {cap : Option κ} (h : ∀ c, cap = some c → P _ (body c)) : P _ (existing feature body cap) := by
  cases cap with
  | none => exact hP.pure _
  | some cap => exact h cap rfl

end Composes

end RedoxDrivers.Pcid
