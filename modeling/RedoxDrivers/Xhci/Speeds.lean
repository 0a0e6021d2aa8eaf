import Mathlib.Data.List.Find
import Mathlib.Data.List.Pairwise
import RedoxDrivers.Xhci.Configure

/-!
Port speeds of `xhcid` (`xhci/mod.rs`, `supported_protocol`, `supported_protocol_speeds` and
`lookup_psiv`, and `xhci/extended.rs`).

Each Supported Protocol capability covers a range of root hub ports, which are numbered from 1, and
has a table of the speeds there. `supported_protocol` takes the index of a port, which starts at 0,
and adds one. `address_device` gives it the number of the port instead, so that it looks at the next
one: `speeds_consistent_iff`.
-/

namespace RedoxDrivers.Xhci

open Lib List Nat BitVec

namespace ProtocolSpeed

/-- A symmetric speed from the parts of its register. -/
def ofParts (pfd : Bool) (psie : Psie) (psim lp psiv : U32) : ProtocolSpeed where
  a := (if pfd then 1 else 0) <<< 8 ||| psieBits <<< 4 ||| psim <<< 16 ||| lp <<< 14 ||| psiv
where
  psieBits : U32 := match psie with
    | .bps => 0
    | .kbps => 1
    | .mbps => 2
    | .gbps => 3

def psiv (self : ProtocolSpeed) : U8 := (self.a &&& 0xF).setWidth 8

end ProtocolSpeed

def DEFAULT_SUPP_PROTO_SPEEDS : List ProtocolSpeed :=
  [.ofParts false .mbps 12 0 1, .ofParts false .kbps 1500 0 2, .ofParts false .mbps 480 0 3,
    .ofParts true .gbps 5 0 4, .ofParts true .gbps 10 1 5, .ofParts true .gbps 10 1 6,
    .ofParts true .gbps 20 1 7]

/-- The third register of a capability, and the table of speeds behind its fixed part. -/
structure SupportedProtoCap where
  c : U32
  protocolSpeeds : List ProtocolSpeed
  psic_eq : protocolSpeeds.length = ((c &&& 0xF0000000) >>> 28).toNat
deriving DecidableEq

namespace SupportedProtoCap

variable (self : SupportedProtoCap)

def compatPortOffset : U8 := (self.c &&& 0xFF).setWidth 8

def compatPortCount : U8 := ((self.c &&& 0xFF00) >>> 8).setWidth 8

/-- First port and the one behind the last. -/
def compatPortRange (p : Profile) : Except Fault (U8 × U8) := do
  let stop ← p.add self.compatPortOffset self.compatPortCount
  return (self.compatPortOffset, stop)

def psic : U8 := ((self.c &&& 0xF0000000) >>> 28).setWidth 8

/-- The capability covers the port with the number `n`. -/
def Covers (n : Nat) : Prop :=
  self.compatPortOffset.toNat ≤ n ∧ n < self.compatPortOffset.toNat + self.compatPortCount.toNat

/-- The end of the range is a `u8`. -/
def EndFits : Prop := self.compatPortOffset.toNat + self.compatPortCount.toNat < 256

instance (n : Nat) : Decidable (self.Covers n) := inferInstanceAs (Decidable (_ ∧ _))

instance : Decidable self.EndFits := inferInstanceAs (Decidable (_ < _))

end SupportedProtoCap

/-- The capabilities of a controller. No port is covered twice. -/
structure ProtoCaps where
  caps : List SupportedProtoCap
  disjoint : caps.Pairwise fun a b => ∀ n, ¬ (a.Covers n ∧ b.Covers n)

def supportedProtocol (p : Profile) (caps : List SupportedProtoCap) (port : U8) :
    Except Fault (Option SupportedProtoCap) :=
  match caps with
  | [] => .ok none
  | suppProto :: caps => do
    let (start, stop) ← suppProto.compatPortRange p
    let number ← p.add port 1
    if start ≤ number ∧ number < stop then .ok (some suppProto)
    else supportedProtocol p caps port

def supportedProtocolSpeeds (p : Profile) (caps : List SupportedProtoCap) (port : U8) :
    Except Fault (List ProtocolSpeed) := do
  match ← supportedProtocol p caps port with
  | some suppProto =>
    if suppProto.psic ≠ 0 then return suppProto.protocolSpeeds else return DEFAULT_SUPP_PROTO_SPEEDS
  | none => return DEFAULT_SUPP_PROTO_SPEEDS

def lookupPsiv (p : Profile) (caps : List SupportedProtoCap) (port psiv : U8) :
    Except Fault (Option ProtocolSpeed) := do
  let speeds ← supportedProtocolSpeeds p caps port
  return speeds.find? (·.psiv = psiv)

/-- Where the capability of a port is looked up. -/
inductive Caller where
  | attachDevice
  | addressDevice
  | configureEndpointsOnce
deriving DecidableEq, Repr

/-- The argument for the port with index `i`: two of them pass the index and one, which calls it
`root_hub_port_num`, the number. -/
def Caller.port (i : Nat) : Caller → U8
  | .attachDevice => .ofNat 8 i
  | .addressDevice => .ofNat 8 (i + 1)
  | .configureEndpointsOnce => .ofNat 8 i

/-! ### What is claimed -/

/-- The capability that covers the port with the number `n`, if there is one. -/
def ProtoCaps.IsFor (caps : ProtoCaps) (n : Nat) : Option SupportedProtoCap → Prop
  | some cap => cap ∈ caps.caps ∧ cap.Covers n
  | none => ∀ cap ∈ caps.caps, ¬ cap.Covers n

/-- Whoever looks finds the capability of the port, and hence the same speeds. There are at most 255
ports, and the build is any. -/
structure SpeedsConsistent (caps : ProtoCaps) (i : Fin 255) : Prop where
  protocol : ∀ (p : Profile) (caller : Caller), ∃ found,
    supportedProtocol p caps.caps (caller.port i) = .ok found ∧ caps.IsFor (i + 1) found
  speed : ∀ (p : Profile) (psiv : U8), lookupPsiv p caps.caps (Caller.addressDevice.port i) psiv =
    lookupPsiv p caps.caps (Caller.configureEndpointsOnce.port i) psiv

/-- The ends of all ranges that are looked at on the way to port `n` fit. -/
def EndsFit (n : Nat) : List SupportedProtoCap → Prop
  | [] => True
  | cap :: caps => cap.EndFits ∧ (cap.Covers n ∨ EndsFit n caps)

/-! ### The lookup -/

section Lookup

variable {p : Profile} {cap : SupportedProtoCap} {caps : List SupportedProtoCap} {port : U8} {n : Nat}

/-- The capability that the lookup finds, when nothing overflows. -/
def capAt (caps : List SupportedProtoCap) (n : Nat) : Option SupportedProtoCap :=
  caps.find? fun cap => cap.Covers n

theorem toNat_succ (h : port.toNat + 1 < 256) : (port + 1).toNat = port.toNat + 1 := by
  exact mod_eq_of_lt h

theorem add_one_eq_ok (h : port.toNat + 1 < 256) : p.add port 1 = .ok (port + 1) := by
  refine Profile.add_eq_ok.mpr ⟨?_, rfl⟩
  rintro ⟨-, hle⟩
  exact absurd hle (not_le.mpr h)

theorem compatPortRange_debug (h : ¬ cap.EndFits) : cap.compatPortRange .debug = .error .overflow := by
  have hadd : Profile.debug.add cap.compatPortOffset cap.compatPortCount = .error .overflow :=
    if_pos ⟨rfl, not_lt.mp h⟩
  rw [SupportedProtoCap.compatPortRange, hadd]
  rfl

theorem supportedProtocol_cons (h : cap.EndFits) (hport : port.toNat + 1 < 256) :
    supportedProtocol p (cap :: caps) port =
      if cap.Covers (port.toNat + 1) then .ok (some cap) else supportedProtocol p caps port := by
  have hadd : p.add cap.compatPortOffset cap.compatPortCount =
      .ok (cap.compatPortOffset + cap.compatPortCount) := by
    refine Profile.add_eq_ok.mpr ⟨?_, rfl⟩
    rintro ⟨-, hle⟩
    exact absurd hle (not_le.mpr h)
  have hstop : (cap.compatPortOffset + cap.compatPortCount).toNat =
      cap.compatPortOffset.toNat + cap.compatPortCount.toNat := mod_eq_of_lt h
  -- As the end fits, the comparison of `u8`s is that of the numbers.
  rw [supportedProtocol, SupportedProtoCap.compatPortRange, hadd]
  simp only [ok_bind, pure_bind, add_one_eq_ok hport, le_def, lt_def, hstop, toNat_succ hport]
  rfl

theorem capAt_cons (cap : SupportedProtoCap) (caps : List SupportedProtoCap) (n : Nat) :
    capAt (cap :: caps) n = if cap.Covers n then some cap else capAt caps n := by
  unfold capAt
  by_cases hcovers : cap.Covers n <;> simp [hcovers]

theorem supportedProtocol_eq (hport : port.toNat + 1 < 256) (h : EndsFit (port.toNat + 1) caps) :
    supportedProtocol p caps port = .ok (capAt caps (port.toNat + 1)) := by
  induction caps with
  | nil => rfl
  | cons cap caps ih =>
    obtain ⟨hfits, hrest⟩ := h
    rw [supportedProtocol_cons hfits hport, capAt_cons]
    split
    · rfl
    · exact ih (hrest.resolve_left ‹_›)

theorem supportedProtocol_ofNat {k : Nat} (hk : k + 1 < 256) (h : EndsFit (k + 1) caps) :
    supportedProtocol p caps (BitVec.ofNat 8 k) = .ok (capAt caps (k + 1)) := by
  have hport := toNat_ofNat_of_lt (w := 8) (lt_of_succ_lt hk)
  have hread : supportedProtocol p caps (BitVec.ofNat 8 k) =
      .ok (capAt caps ((BitVec.ofNat 8 k).toNat + 1)) :=
    supportedProtocol_eq (by rwa [hport]) (by rwa [hport])
  rwa [hport] at hread

/-- With overflow checks the lookup returns only then. -/
theorem endsFit_of_debug {found : Option SupportedProtoCap} (hport : port.toNat + 1 < 256)
    (h : supportedProtocol .debug caps port = .ok found) : EndsFit (port.toNat + 1) caps := by
  induction caps with
  | nil => trivial
  | cons cap caps ih =>
    by_cases hfits : cap.EndFits
    · rw [supportedProtocol_cons hfits hport] at h
      by_cases hcovers : cap.Covers (port.toNat + 1)
      · exact ⟨hfits, Or.inl hcovers⟩
      · rw [if_neg hcovers] at h
        exact ⟨hfits, Or.inr (ih h)⟩
    · rw [supportedProtocol, compatPortRange_debug hfits] at h
      cases h

end Lookup

/-! ### The condition is exact -/

section Exact

variable {caps : ProtoCaps} {a b n : Nat}

theorem ProtoCaps.unique {cap cap' : SupportedProtoCap} (hcap : cap ∈ caps.caps) (hcap' : cap' ∈ caps.caps)
    (hcovers : cap.Covers n) (hcovers' : cap'.Covers n) : cap = cap' := by
  by_contra hne
  have : Std.Symm fun a b : SupportedProtoCap => ∀ n, ¬ (a.Covers n ∧ b.Covers n) :=
    ⟨fun _ _ h n hboth => h n hboth.symm⟩
  exact caps.disjoint.forall hcap hcap' hne n ⟨hcovers, hcovers'⟩

theorem ProtoCaps.isFor_capAt (caps : ProtoCaps) (n : Nat) : caps.IsFor n (capAt caps.caps n) := by
  cases hfound : capAt caps.caps n with
  | none =>
    intro cap hcap
    simpa using List.find?_eq_none.mp hfound cap hcap
  | some =>
    have hcovers := List.find?_some hfound
    exact ⟨mem_of_find?_eq_some hfound, of_decide_eq_true hcovers⟩

/-- Two ports with the same capability are covered by the same ones. -/
theorem ProtoCaps.IsFor.covers_iff {found : Option SupportedProtoCap} (ha : caps.IsFor a found)
    (hb : caps.IsFor b found) : ∀ cap ∈ caps.caps, (cap.Covers a ↔ cap.Covers b) := by
  intro cap hcap
  cases found with
  | none => exact iff_of_false (ha cap hcap) (hb cap hcap)
  | some =>
    constructor
    · intro hcovers
      rw [caps.unique hcap ha.1 hcovers ha.2]
      exact hb.2
    · intro hcovers
      rw [caps.unique hcap hb.1 hcovers hb.2]
      exact ha.2

theorem endsFit_congr {caps : List SupportedProtoCap}
    (h : ∀ cap ∈ caps, (cap.Covers a ↔ cap.Covers b)) : EndsFit a caps ↔ EndsFit b caps := by
  induction caps with
  | nil => exact Iff.rfl
  | cons cap caps ih =>
    have hrest := ih fun cap hcap => h cap (mem_cons_of_mem _ hcap)
    rw [EndsFit, EndsFit, h cap mem_cons_self, hrest]

theorem capAt_congr {caps : List SupportedProtoCap}
    (h : ∀ cap ∈ caps, (cap.Covers a ↔ cap.Covers b)) : capAt caps a = capAt caps b :=
  List.find?_congr fun cap hcap => decide_eq_decide.mpr (h cap hcap)

/-- The condition: unless there is no capability, the next port has the capability of this one, and no
range that is looked at has an end that is not a `u8`. -/
def NextPortAlike (caps : ProtoCaps) (i : Nat) : Prop :=
  caps.caps = [] ∨ (i + 2 < 256 ∧ EndsFit (i + 1) caps.caps ∧
    ∀ cap ∈ caps.caps, (cap.Covers (i + 1) ↔ cap.Covers (i + 2)))

theorem nextPortAlike_of_consistent {i : Fin 255} (h : SpeedsConsistent caps i) :
    NextPortAlike caps i := by
  by_cases hne : caps.caps = []
  · exact Or.inl hne
  obtain ⟨found, hattach, -⟩ := h.protocol .debug .attachDevice
  obtain ⟨found', haddress, hfor⟩ := h.protocol .debug .addressDevice
  have hindex : (Caller.attachDevice.port i).toNat = i := toNat_ofNat_of_lt (lt_succ_of_lt i.isLt)
  have hnumber : (Caller.addressDevice.port i).toNat = i + 1 :=
    toNat_ofNat_of_lt (succ_lt_succ i.isLt)
  have hends := endsFit_of_debug (hindex.symm ▸ succ_lt_succ i.isLt) hattach
  -- The number of the port fits too, as there is something to compare it with.
  have hnext : (Caller.addressDevice.port i).toNat + 1 < 256 := by
    obtain ⟨cap, rest, heq⟩ := exists_cons_of_ne_nil hne
    rw [heq] at haddress
    obtain ⟨range, -, h⟩ := bind_eq_ok.mp haddress
    obtain ⟨number, hadd, -⟩ := bind_eq_ok.mp h
    exact not_le.mp fun hle => (Profile.add_eq_ok.mp hadd).1 ⟨rfl, hle⟩
  have hread : supportedProtocol .debug caps.caps (Caller.addressDevice.port i) = _ :=
    supportedProtocol_eq hnext (endsFit_of_debug hnext haddress)
  rw [hindex] at hends
  rw [hnumber] at hnext hread
  cases hread.symm.trans haddress
  exact Or.inr ⟨hnext, hends, hfor.covers_iff (caps.isFor_capAt (i + 2))⟩

/-- Then everybody finds what is at the port itself. -/
theorem supportedProtocol_of_alike {i : Fin 255} (h : NextPortAlike caps i) (p : Profile)
    (caller : Caller) : supportedProtocol p caps.caps (caller.port i) = .ok (capAt caps.caps (i + 1)) := by
  rcases h with hnil | ⟨hnext, hends, halike⟩
  · rw [hnil]
    rfl
  have hbyIndex : supportedProtocol p caps.caps (BitVec.ofNat 8 i) = .ok (capAt caps.caps (i + 1)) :=
    supportedProtocol_ofNat (succ_lt_succ i.isLt) hends
  have hbyNumber : supportedProtocol p caps.caps (BitVec.ofNat 8 (i + 1)) =
      .ok (capAt caps.caps (i + 1)) := by
    rw [capAt_congr halike]
    exact supportedProtocol_ofNat hnext ((endsFit_congr halike).mp hends)
  cases caller with
  | attachDevice | configureEndpointsOnce => exact hbyIndex
  | addressDevice => exact hbyNumber

theorem speeds_consistent_iff (caps : ProtoCaps) (i : Fin 255) :
    SpeedsConsistent caps i ↔ NextPortAlike caps i := by
  constructor
  · exact nextPortAlike_of_consistent
  · intro h
    have hfound := supportedProtocol_of_alike h
    refine ⟨fun p caller => ⟨_, hfound p caller, caps.isFor_capAt _⟩, fun p psiv => ?_⟩
    unfold lookupPsiv supportedProtocolSpeeds
    rw [hfound p .addressDevice, hfound p .configureEndpointsOnce]

/-- USB 2 on ports 1 to 4 and USB 3 on ports 5 to 8, with no tables of their own. -/
def twoProtocols : ProtoCaps where
  caps := [⟨0x0401, [], rfl⟩, ⟨0x0405, [], rfl⟩]
  disjoint := by
    refine pairwise_pair.mpr fun n hboth => ?_
    obtain ⟨⟨-, hlt⟩, hle, -⟩ := hboth
    have hfirst : n < 1 + 4 := hlt
    have hsecond : 5 ≤ n := hle
    omega

/-- The last port of USB 2 is taken for one of USB 3. -/
theorem port4_not_consistent : ¬ SpeedsConsistent twoProtocols 3 := by
  intro h
  obtain ⟨found, hfound, hfor⟩ := h.protocol .release .addressDevice
  have hread : supportedProtocol .release twoProtocols.caps (Caller.addressDevice.port 3) =
      .ok (some ⟨0x0405, [], rfl⟩) := by decide +kernel
  cases hread.symm.trans hfound
  exact absurd hfor.2 (by decide)

end Exact

end RedoxDrivers.Xhci
