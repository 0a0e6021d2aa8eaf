import RedoxDrivers.Lib.Rust

/-!
What `xhcid` writes to the register PORTSC (`xhcid/src/xhci/irq_reactor.rs`, `mod.rs` and
`device_enumerator.rs`).

The register has bits that are cleared, and one that is set, by writing 1. The driver sets its flag
in the value that it has read, and so writes back all the other bits that were 1: `meant_iff`.
-/

namespace RedoxDrivers.Xhci.Portsc

open Lib BitVec

def PORT_CCS : U32 := 1 <<< 0
def PORT_PED : U32 := 1 <<< 1
def PORT_PR : U32 := 1 <<< 4
def PORT_PP : U32 := 1 <<< 9
def PORT_CSC : U32 := 1 <<< 17
def PORT_PRC : U32 := 1 <<< 21

/-- PED and the change bits, CSC, PEC, WRC, OCC, PRC, PLC and CEC. -/
def CLEARED : U32 := PORT_PED ||| 0b1111111 <<< 17

/-- The register after a write. The bits that are neither cleared nor set by 1 are left out. -/
def effect (register value : U32) : U32 := register &&& ~~~(value &&& CLEARED) ||| value &&& PORT_PR

/-! ### The driver -/

/-- A write for a flag: what had been read, and the register before the write. -/
structure Write where
  flag : U32
  read : U32
  register : U32

/-- How often the register has been accessed, and the writes. -/
structure Log where
  accesses : Nat := 0
  writes : List Write := []

/-- What the register holds at every access is up to the hardware. The loop of `reset_port` ends
after a second, which is some number of turns. -/
structure Hardware where
  portsc : Nat → U32
  turns : Nat

variable (hw : Hardware)

def read : StateM Log U32 := fun log =>
  (hw.portsc log.accesses, { log with accesses := log.accesses + 1 })

def readf (flags : U32) : StateM Log Bool := return (← read hw) &&& flags = flags

/-- `writef(flags, true)`. -/
def writef (flag : U32) : StateM Log Unit := do
  let value ← read hw
  modify fun log => ⟨log.accesses + 1, log.writes ++ [⟨flag, value, hw.portsc log.accesses⟩]⟩

def handlePortStatusChange : StateM Log Unit := writef hw PORT_CSC

def waitReset : Nat → StateM Log Unit
  | 0 => return
  | turns + 1 => do
    if ← readf hw PORT_PRC then return
    waitReset turns

def resetPort : StateM Log Unit := do
  let _ ← read hw
  writef hw PORT_PR
  waitReset hw hw.turns

/-- What `DeviceEnumerator::run` does with the port of a request. A panic ends it. -/
def enumerate : StateM Log Unit := do
  let flags ← read hw
  if flags &&& PORT_CCS ≠ 0 ∧ flags &&& PORT_PED = 0 then
    let disabledState := flags &&& PORT_PP ≠ 0 ∧ flags &&& PORT_CCS ≠ 0 ∧
      flags &&& PORT_PED = 0 ∧ flags &&& PORT_PR = 0
    if disabledState then
      resetPort hw
      writef hw PORT_PRC
      let _ ← read hw

inductive Site where
  | statusChange
  | reset
  | enumerator

def Site.run : Site → StateM Log Unit
  | .statusChange => handlePortStatusChange hw
  | .reset => resetPort hw
  | .enumerator => enumerate hw

def Site.writes (site : Site) : List Write := (site.run hw {}).2.writes

/-! ### What a write does -/

/-- What is written, with all that had been read. -/
def Write.value (w : Write) : U32 := w.read ||| w.flag

/-- The write has the effect of its flag and no other. -/
def Write.Meant (w : Write) : Prop := effect w.register w.value = effect w.register w.flag

/-- No bit that is cleared by 1 was read and is still there, and PR was not read before it went. -/
def Write.Clean (w : Write) : Prop :=
  w.read &&& w.register &&& (CLEARED &&& ~~~w.flag) = 0 ∧
    w.read &&& ~~~w.register &&& (PORT_PR &&& ~~~w.flag) = 0

theorem Write.meant_iff_clean (w : Write) : w.Meant ↔ w.Clean := by
  have hapart (i : Nat) : (CLEARED.getLsbD i && PORT_PR.getLsbD i) = false := by
    rw [← getLsbD_and, show CLEARED &&& PORT_PR = 0 by decide]
    exact getLsbD_zero
  have hbits (x y : U32) : x = y ↔ ∀ i < 32, x.getLsbD i = y.getLsbD i :=
    ⟨fun h i _ => h ▸ rfl, eq_of_getLsbD_eq⟩
  rw [Meant, Clean, value, effect, effect, hbits, hbits, hbits, ← forall₂_and]
  refine forall₂_congr fun i hi => ?_
  have hbit := hapart i
  simp only [getLsbD_or, getLsbD_and, getLsbD_not, hi, decide_true,
    Bool.true_and]
  generalize CLEARED.getLsbD i = c, PORT_PR.getLsbD i = p at hbit
  rw [show (0 : U32).getLsbD i = false from getLsbD_zero]
  revert hbit
  generalize w.read.getLsbD i = a, w.register.getLsbD i = b, w.flag.getLsbD i = f
  revert a b c f p
  decide

/-- **Writes to PORTSC.** Whatever the hardware does, the writes of a site do what they are meant to
do, and nothing else, exactly if none of them writes back a bit that does something. -/
theorem meant_iff (hw : Hardware) (site : Site) :
    (∀ w ∈ site.writes hw, w.Meant) ↔ ∀ w ∈ site.writes hw, w.Clean :=
  forall₂_congr fun w _ => w.meant_iff_clean

/-- A port that is enabled and has a change of its connection: the write also disables it. -/
theorem status_change_disables :
    ¬ ∀ w ∈ Site.writes ⟨fun _ => 0x20203, 0⟩ .statusChange, w.Meant := by
  intro h
  have hmeant : (0x201 : U32) = 0x203 := h ⟨PORT_CSC, 0x20203, 0x20203⟩ List.mem_cons_self
  exact absurd hmeant (by decide)

end RedoxDrivers.Xhci.Portsc
