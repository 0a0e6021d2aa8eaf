import RedoxDrivers.Lib.Laps
import RedoxDrivers.Lib.Runs
import RedoxDrivers.Lib.Rust

/-!
The command rings of `ihdad` (`audio/ihdad/src/hda/cmdbuff.rs`).

`cmd_buff` puts a command behind the last one of the CORB and waits in the RIRB for its response. The
driver chooses the number of entries of each ring from the size capabilities, and the controller uses
the largest size that it advertises.

`Rirb::init` takes 8 entries where the controller has 16. Seven responses are read where the
controller wrote them, the eighth is not: `command_rings_iff`.
-/

namespace RedoxDrivers.Audio

open Lib Function Option List Nat

namespace HdaCommands

/-- A size register (CORBSIZE or RIRBSIZE) that advertises at least one size. -/
structure SizeReg where
  value : U8
  advertised : (value >>> 4) &&& 7 ≠ 0

/-- The largest size that is advertised: bits 4 to 6 stand for 2, 16 and 256 entries. -/
def SizeReg.largest (reg : SizeReg) : Nat :=
  if reg.value.getLsbD 6 then 256 else if reg.value.getLsbD 5 then 16 else 2

def CORB_BUFF_MAX_SIZE : Nat := 1024

/-- `corb_count` after `Corb::init`. -/
def corbCount (corbsizeReg : U8) : Nat :=
  let corbszcap := (corbsizeReg >>> 4) &&& 0xF
  if corbszcap &&& 4 = 4 then 256
  else if corbszcap &&& 2 = 2 then 16
  else if corbszcap &&& 1 = 1 then 2
  else 0

/-- `rirb_count` after `Rirb::init`. -/
def rirbCount (rirbsizeReg : U8) : Nat :=
  let rirbszcap := (rirbsizeReg >>> 4) &&& 0xF
  if rirbszcap &&& 4 = 4 then 256
  else if rirbszcap &&& 2 = 2 then 8
  else if rirbszcap &&& 1 = 1 then 2
  else 0

structure Config where
  corbsize : SizeReg
  rirbsize : SizeReg

/-- Where a call of `cmd_buff` is: in the wait loop of `send_command`, before its store, before its
write to CORBWP, in the wait loop of `read_response`, and before its load. -/
inductive Phase where
  | idle
  | sendWait (cmd : U32)
  | sendStore (cmd : U32) (pos : Nat)
  | sendPublish (pos : Nat)
  | recvWait
  | recvLoad (pos : Nat)
deriving DecidableEq, Repr

end HdaCommands

/-- The two rings, the driver's and the controller's positions in them, and the commands that the
controller has fetched and not answered. What was sent, answered and returned is there for the
statements. -/
structure HdaCommands where
  corb : Nat → U32
  rirb : Nat → U64
  corbwp : Nat
  corbrp : Nat
  rirbwp : Nat
  rirbRp : Nat
  phase : HdaCommands.Phase
  pending : List U32
  sent : List U32
  answers : List (U32 × U64)
  returned : List U64

namespace HdaCommands

/-- After `CommandBuffer::init`. -/
def init : HdaCommands where
  corb _ := 0
  rirb _ := 0
  corbwp := 0
  corbrp := 0
  rirbwp := 0
  rirbRp := 0
  phase := .idle
  pending := []
  sent := []
  answers := []
  returned := []

inductive Event where
  | call (cmd : U32)
  /-- One turn of a wait loop. -/
  | poll
  | store
  | publish
  | load
  | fetch
  | respond (res : U64)
deriving DecidableEq, Repr

/-- The controller's steps. -/
def Event.OfController : Event → Prop
  | .fetch | .respond _ => True
  | _ => False

variable (cfg : Config) (s : HdaCommands)

/-- Where the driver is after one turn of a wait loop. -/
def pollPhase : Option Phase :=
  match s.phase with
  | .sendWait cmd => some <|
      if s.corbwp % 0x100 ≠ s.corbrp % 0x100 then .sendWait cmd
      else .sendStore cmd ((s.corbwp % 0x100 + 1) % corbCount cfg.corbsize.value)
  | .recvWait => some <|
      if s.rirbwp % 0x100 = s.rirbRp % 0x100 then .recvWait
      else .recvLoad ((s.rirbRp + 1) % rirbCount cfg.rirbsize.value)
  | _ => none

def step : Event → Option HdaCommands
  | .call cmd =>
    if s.phase = .idle then some { s with phase := .sendWait cmd, sent := s.sent ++ [cmd] } else none
  | .poll => (s.pollPhase cfg).map fun phase => { s with phase }
  | .store =>
    match s.phase with
    | .sendStore cmd pos =>
      some { s with corb := update s.corb pos cmd, phase := .sendPublish pos }
    | _ => none
  | .publish =>
    match s.phase with
    | .sendPublish pos => some { s with corbwp := pos, phase := .recvWait }
    | _ => none
  | .load =>
    match s.phase with
    | .recvLoad pos =>
      some { s with rirbRp := pos, phase := .idle, returned := s.returned ++ [s.rirb pos] }
    | _ => none
  | .fetch =>
    let pos := (s.corbrp + 1) % cfg.corbsize.largest
    if s.corbrp ≠ s.corbwp then some { s with corbrp := pos, pending := s.pending ++ [s.corb pos] }
    else none
  | .respond res =>
    let pos := (s.rirbwp + 1) % cfg.rirbsize.largest
    match s.pending with
    | cmd :: pending =>
      some { s with
        rirb := update s.rirb pos res, rirbwp := pos, pending
        answers := s.answers ++ [(cmd, res)] }
    | [] => none

/-! ### What is claimed -/

def Waits : Prop := (∃ cmd, s.phase = .sendWait cmd) ∨ s.phase = .recvWait

/-- However the controller goes on, it has done all it can after two steps, and then the loop ends. -/
def LoopEnds : Prop :=
  ∀ es s', (∀ e ∈ es, e.OfController) → run (step cfg) s es = some s' → es.length ≤ 2 ∧
    ((∀ e, e.OfController → s'.step cfg e = none) → ∃ t, s'.step cfg .poll = some t ∧ ¬ t.Waits)

structure Sound : Prop where
  replies : ∀ (n : Nat) res, s.returned[n]? = some res →
    ∃ cmd, s.sent[n]? = some cmd ∧ s.answers[n]? = some (cmd, res)
  stores : ∀ cmd pos, s.phase = .sendStore cmd pos → pos < cfg.corbsize.largest
  loads : ∀ pos, s.phase = .recvLoad pos → pos < cfg.rirbsize.largest
  rings : 4 * cfg.corbsize.largest ≤ CORB_BUFF_MAX_SIZE ∧
    CORB_BUFF_MAX_SIZE + 8 * cfg.rirbsize.largest ≤ 0x1000
  writer : s.phase = .idle → s.corbwp % cfg.corbsize.largest = s.corbrp % cfg.corbsize.largest
  reader : s.phase = .idle → s.rirbRp % cfg.rirbsize.largest = s.rirbwp % cfg.rirbsize.largest
  loopEnds : s.Waits → s.LoopEnds cfg

/-! ### Sizes -/

section Sizes

variable {cfg}

section

variable (reg : SizeReg)

include reg

theorem SizeReg.largest_cases : reg.largest = 256 ∨ reg.largest = 16 ∨ reg.largest = 2 := by
  unfold largest
  split
  · exact Or.inl rfl
  · split
    · exact Or.inr (Or.inl rfl)
    · exact Or.inr (Or.inr rfl)

theorem corbCount_eq : corbCount reg.value = reg.largest := by
  have hall : ∀ value : U8, (value >>> 4) &&& 7 ≠ 0 → corbCount value =
      if value.getLsbD 6 then 256 else if value.getLsbD 5 then 16 else 2 := by
    decide +kernel
  exact hall reg.value reg.advertised

/-- The RIRB that has 16 entries is taken for one of 8. -/
theorem rirbCount_eq : rirbCount reg.value = if reg.largest = 16 then 8 else reg.largest := by
  have hall : ∀ value : U8, (value >>> 4) &&& 7 ≠ 0 → rirbCount value =
      if value.getLsbD 6 then 256 else if value.getLsbD 5 then 8 else 2 := by
    decide +kernel
  rw [hall reg.value reg.advertised]
  unfold SizeReg.largest
  split
  · rfl
  · split <;> rfl

theorem SizeReg.largest_pos : 2 ≤ reg.largest := by
  rcases reg.largest_cases with h | h | h <;> omega

theorem SizeReg.mod_lt (k : Nat) : k % reg.largest < reg.largest :=
  Nat.mod_lt k (Nat.lt_of_lt_of_le Nat.zero_lt_two reg.largest_pos)

/-- The registers hold positions in the low byte. -/
theorem SizeReg.mod_low (k : Nat) : k % reg.largest % 0x100 = k % reg.largest := by
  have hlt := reg.mod_lt k
  refine mod_eq_of_lt ?_
  rcases reg.largest_cases with h | h | h <;> omega

theorem SizeReg.succ_ne (k : Nat) : k % reg.largest ≠ (k + 1) % reg.largest :=
  slot_ne (Nat.lt_succ_self k) (Nat.add_lt_add_left reg.largest_pos k)

end

end Sizes

/-! ### The invariant -/

/-- How far the controller is with the command of a call. -/
inductive Stage where
  | resting
  | published
  | fetched
  | answered
deriving DecidableEq, Repr

namespace Stage

/-- How many commands CORBWP, CORBRP and RIRBWP have got of this one. -/
def wp : Stage → Nat
  | resting => 0
  | published | fetched | answered => 1

def rp : Stage → Nat
  | resting | published => 0
  | fetched | answered => 1

def done : Stage → Nat
  | resting | published | fetched => 0
  | answered => 1

/-- The steps that the controller has still to take. -/
def left : Stage → Nat
  | published => 2
  | fetched => 1
  | resting | answered => 0

end Stage

/-- How many calls are in progress. -/
def Phase.begun : Phase → Nat
  | .idle => 0
  | _ => 1

/-- The command and its response, when `k` commands were answered before. -/
def StageOk (k : Nat) : Stage → Prop
  | .resting => s.pending = [] ∧ s.answers.length = k
  | .published => s.pending = [] ∧ s.answers.length = k ∧
      s.sent[k]? = some (s.corb ((k + 1) % cfg.corbsize.largest))
  | .fetched => ∃ cmd, s.pending = [cmd] ∧ s.answers.length = k ∧ s.sent[k]? = some cmd
  | .answered => ∃ cmd, s.pending = [] ∧ s.answers.length = k + 1 ∧ s.sent[k]? = some cmd ∧
      s.answers[k]? = some (cmd, s.rirb ((k + 1) % cfg.rirbsize.largest))

def PhaseOk (k : Nat) (stage : Stage) : Phase → Prop
  | .idle => stage = .resting
  | .sendWait cmd => stage = .resting ∧ s.sent[k]? = some cmd
  | .sendStore cmd pos => stage = .resting ∧ s.sent[k]? = some cmd ∧
      pos = (k + 1) % cfg.corbsize.largest
  | .sendPublish pos => stage = .resting ∧ s.sent[k]? = some (s.corb pos) ∧
      pos = (k + 1) % cfg.corbsize.largest
  | .recvWait => stage ≠ .resting
  | .recvLoad pos => stage = .answered ∧ pos = (s.rirbRp + 1) % rirbCount cfg.rirbsize.value

/-- After `k` calls. -/
structure Inv (k : Nat) (stage : Stage) : Prop where
  corbwp_eq : s.corbwp = (k + stage.wp) % cfg.corbsize.largest
  corbrp_eq : s.corbrp = (k + stage.rp) % cfg.corbsize.largest
  rirbwp_eq : s.rirbwp = (k + stage.done) % cfg.rirbsize.largest
  rirbRp_eq : s.rirbRp = k % cfg.rirbsize.largest
  few : cfg.rirbsize.largest = 16 → k < 8
  sent_length : s.sent.length = k + s.phase.begun
  returned_length : s.returned.length = k
  replies : ∀ (n : Nat) res, s.returned[n]? = some res →
    ∃ cmd, s.sent[n]? = some cmd ∧ s.answers[n]? = some (cmd, res)
  stage_ok : s.StageOk cfg k stage
  phase_ok : s.PhaseOk cfg k stage s.phase

theorem Inv.init : Inv cfg init 0 .resting where
  corbwp_eq := (zero_mod _).symm
  corbrp_eq := (zero_mod _).symm
  rirbwp_eq := (zero_mod _).symm
  rirbRp_eq := (zero_mod _).symm
  few _ := by decide
  sent_length := rfl
  returned_length := rfl
  replies _ _ h := by cases h
  stage_ok := ⟨rfl, rfl⟩
  phase_ok := rfl

theorem getElem?_append_of_some {α : Type} {xs ys : List α} {n : Nat} {x : α} (h : xs[n]? = some x) :
    (xs ++ ys)[n]? = some x := by
  rw [List.getElem?_append_left (List.getElem?_eq_some_iff.mp h).1, h]

section Keep

variable {cfg} {s s' : HdaCommands} {k : Nat} {stage : Stage}

section

variable (h : Inv cfg s k stage)

include h

theorem Inv.sent_length_of {phase : Phase} (hphase : s.phase = phase) :
    s.sent.length = k + phase.begun := hphase ▸ h.sent_length

/-! Steps of the driver. -/

theorem Inv.call (hphase : s.phase = .idle) (cmd : U32) :
    Inv cfg { s with phase := .sendWait cmd, sent := s.sent ++ [cmd] } k .resting := by
  obtain rfl : stage = .resting := by simpa only [hphase, PhaseOk] using h.phase_ok
  have hlen : s.sent.length = k := h.sent_length_of hphase
  refine { h with sent_length := ?_, replies := ?_, stage_ok := h.stage_ok, phase_ok := ⟨rfl, ?_⟩ }
  · rw [← hlen]
    exact length_append
  · intro n res hres
    obtain ⟨cmd', hsent, hanswer⟩ := h.replies n res hres
    exact ⟨cmd', getElem?_append_of_some hsent, hanswer⟩
  · rw [← hlen]
    exact List.getElem?_concat_length

/-- The first wait loop ends at once: all commands have been fetched. -/
theorem Inv.pollPhase_send {cmd : U32} (hphase : s.phase = .sendWait cmd) :
    stage = .resting ∧ s.pollPhase cfg = some (.sendStore cmd ((k + 1) % cfg.corbsize.largest)) := by
  obtain ⟨rfl, -⟩ : stage = .resting ∧ s.sent[k]? = some cmd := by
    simpa only [hphase, PhaseOk] using h.phase_ok
  have hwp : s.corbwp % 0x100 = k % cfg.corbsize.largest := by
    rw [h.corbwp_eq]
    exact cfg.corbsize.mod_low k
  have hrp : s.corbrp % 0x100 = k % cfg.corbsize.largest := by
    rw [h.corbrp_eq]
    exact cfg.corbsize.mod_low k
  refine ⟨rfl, ?_⟩
  simp only [pollPhase, hphase]
  rw [hwp, hrp, if_neg (not_not.mpr rfl), corbCount_eq, mod_add_mod]

/-- The second one ends when there is a response. -/
theorem Inv.pollPhase_recv (hphase : s.phase = .recvWait) :
    s.pollPhase cfg = some (if stage = .answered then
      .recvLoad ((s.rirbRp + 1) % rirbCount cfg.rirbsize.value) else .recvWait) := by
  have hiff : s.rirbwp % 0x100 = s.rirbRp % 0x100 ↔ stage ≠ .answered := by
    rw [h.rirbwp_eq, h.rirbRp_eq, cfg.rirbsize.mod_low, cfg.rirbsize.mod_low]
    cases stage with
    | answered => exact iff_of_false (cfg.rirbsize.succ_ne k).symm (not_not.mpr rfl)
    | _ => exact iff_of_true rfl nofun
  simp only [pollPhase, hphase, hiff, ite_not]

theorem Inv.poll {phase : Phase} (hpoll : s.pollPhase cfg = some phase) :
    Inv cfg { s with phase } k stage := by
  have hsent := h.sent_length
  have hok := h.phase_ok
  cases hphase : s.phase with
  | sendWait =>
    obtain ⟨hstage, hnext⟩ := h.pollPhase_send hphase
    rw [hphase] at hok hsent
    cases hnext.symm.trans hpoll
    exact { h with sent_length := hsent, phase_ok := ⟨hstage, hok.2, rfl⟩ }
  | recvWait =>
    rw [h.pollPhase_recv hphase, some_inj] at hpoll
    rw [hphase] at hok hsent
    subst hpoll
    split
    · exact { h with sent_length := hsent, phase_ok := ⟨‹_›, rfl⟩ }
    · exact { h with sent_length := hsent, phase_ok := hok }
  | _ => simp [pollPhase, hphase] at hpoll

theorem Inv.store {cmd : U32} {pos : Nat} (hphase : s.phase = .sendStore cmd pos) :
    Inv cfg { s with corb := update s.corb pos cmd, phase := .sendPublish pos } k .resting := by
  obtain ⟨rfl, hsent, hpos⟩ : stage = .resting ∧ s.sent[k]? = some cmd ∧
      pos = (k + 1) % cfg.corbsize.largest := by
    simpa only [hphase, PhaseOk] using h.phase_ok
  have hlen : s.sent.length = k + 1 := h.sent_length_of hphase
  refine { h with sent_length := hlen, stage_ok := h.stage_ok, phase_ok := ⟨rfl, ?_, hpos⟩ }
  exact hsent.trans (congrArg some (update_self pos cmd s.corb).symm)

theorem Inv.publish {pos : Nat} (hphase : s.phase = .sendPublish pos) :
    Inv cfg { s with corbwp := pos, phase := .recvWait } k .published := by
  obtain ⟨rfl, hsent, hpos⟩ : stage = .resting ∧ s.sent[k]? = some (s.corb pos) ∧
      pos = (k + 1) % cfg.corbsize.largest := by
    simpa only [hphase, PhaseOk] using h.phase_ok
  obtain ⟨hpending, hanswers⟩ := h.stage_ok
  have hlen : s.sent.length = k + 1 := h.sent_length_of hphase
  refine { h with
    corbwp_eq := hpos, sent_length := hlen, stage_ok := ⟨hpending, hanswers, ?_⟩, phase_ok := nofun }
  rw [hsent, hpos]

end

/-- The eighth response of a RIRB of 16 entries is not looked for where it is. -/
def Fits (cfg : Config) (s : HdaCommands) (e : Event) : Prop :=
  e = .load → cfg.rirbsize.largest = 16 → s.returned.length < 7

/-- The driver reads the entry that the controller wrote, as long as their sizes agree. -/
theorem read_pos_eq (hfew : cfg.rirbsize.largest = 16 → k < 7) :
    (k % cfg.rirbsize.largest + 1) % rirbCount cfg.rirbsize.value = (k + 1) % cfg.rirbsize.largest := by
  rw [rirbCount_eq]
  split
  · rename_i h16
    rw [h16]
    omega
  · exact mod_add_mod _ _ _

section

variable (h : Inv cfg s k stage)

include h

theorem Inv.load {pos : Nat} (hphase : s.phase = .recvLoad pos) (hfits : s.Fits cfg .load) :
    Inv cfg { s with rirbRp := pos, phase := .idle, returned := s.returned ++ [s.rirb pos] } (k + 1)
      .resting := by
  obtain ⟨rfl, hpos⟩ : stage = .answered ∧ pos = (s.rirbRp + 1) % rirbCount cfg.rirbsize.value := by
    simpa only [hphase, PhaseOk] using h.phase_ok
  obtain ⟨cmd, hpending, hanswers, hsent, hanswer⟩ := h.stage_ok
  have hfew : cfg.rirbsize.largest = 16 → k < 7 := by
    intro h16
    rw [← h.returned_length]
    exact hfits rfl h16
  have hlen : s.sent.length = k + 1 := h.sent_length_of hphase
  rw [h.rirbRp_eq, read_pos_eq hfew] at hpos
  refine { h with
    rirbRp_eq := hpos, few := fun h16 => succ_lt_succ (hfew h16), sent_length := hlen
    returned_length := ?_, replies := ?_, stage_ok := ⟨hpending, hanswers⟩, phase_ok := rfl }
  · rw [length_append, h.returned_length]
    rfl
  · intro n res hres
    rcases getElem?_push hres with ⟨hlt, hold⟩ | ⟨rfl, rfl⟩
    · exact h.replies n res hold
    · rw [hpos, h.returned_length]
      exact ⟨cmd, hsent, hanswer⟩

/-! Steps of the controller. -/

theorem Inv.fetch (hne : s.corbrp ≠ s.corbwp) : stage = .published ∧ Inv cfg { s with
      corbrp := (s.corbrp + 1) % cfg.corbsize.largest
      pending := s.pending ++ [s.corb ((s.corbrp + 1) % cfg.corbsize.largest)] } k .fetched := by
  rw [h.corbrp_eq, h.corbwp_eq] at hne
  obtain rfl : stage = .published := by
    cases stage with
    | published => rfl
    | _ => exact absurd rfl hne
  have hphase : s.phase = .recvWait := by
    have hok := h.phase_ok
    cases hphase : s.phase with
    | recvWait => rfl
    | _ => simp [hphase, PhaseOk] at hok
  have hpos : (s.corbrp + 1) % cfg.corbsize.largest = (k + 1) % cfg.corbsize.largest := by
    rw [h.corbrp_eq, mod_add_mod]
    rfl
  obtain ⟨hpending, hanswers, hsent⟩ := h.stage_ok
  refine ⟨rfl, { h with corbrp_eq := hpos, stage_ok := ⟨_, ?_, hanswers, hsent⟩, phase_ok := ?_ }⟩
  · rw [hpending, hpos]
    rfl
  · rw [hphase]
    exact nofun

theorem Inv.respond {cmd : U32} {pending : List U32} (hpending : s.pending = cmd :: pending)
    (res : U64) : stage = .fetched ∧ Inv cfg { s with
      rirb := update s.rirb ((s.rirbwp + 1) % cfg.rirbsize.largest) res
      rirbwp := (s.rirbwp + 1) % cfg.rirbsize.largest
      pending
      answers := s.answers ++ [(cmd, res)] } k .answered := by
  have hok := h.stage_ok
  obtain rfl : stage = .fetched := by
    cases stage with
    | fetched => rfl
    | _ => simp [StageOk, hpending] at hok
  obtain ⟨cmd', hpending', hanswers, hsent⟩ := hok
  cases hpending.symm.trans hpending'
  have hphase : s.phase = .recvWait := by
    have hok := h.phase_ok
    cases hphase : s.phase with
    | recvWait => rfl
    | _ => simp [hphase, PhaseOk] at hok
  have hpos : (s.rirbwp + 1) % cfg.rirbsize.largest = (k + 1) % cfg.rirbsize.largest := by
    rw [h.rirbwp_eq, mod_add_mod]
    rfl
  rw [hpos]
  refine ⟨rfl, { h with
    rirbwp_eq := rfl, replies := ?_, stage_ok := ⟨cmd, rfl, ?_, hsent, ?_⟩, phase_ok := ?_ }⟩
  · intro n res' hres
    obtain ⟨cmd', hsent', hanswer⟩ := h.replies n res' hres
    exact ⟨cmd', hsent', getElem?_append_of_some hanswer⟩
  · rw [length_append, hanswers]
    rfl
  · rw [← hanswers, List.getElem?_concat_length]
    simp only [update_self]
  · rw [hphase]
    exact nofun

/-- A step of the controller brings it closer to the end of its work, and the driver stays where it
is. -/
theorem Inv.controller {e : Event} (he : e.OfController) (hstep : s.step cfg e = some s') :
    s'.phase = s.phase ∧ ∃ stage', stage'.left + 1 = stage.left ∧ Inv cfg s' k stage' := by
  cases e with
  | fetch =>
    simp only [step, ite_none_right_eq_some, some_inj] at hstep
    obtain ⟨hne, rfl⟩ := hstep
    obtain ⟨rfl, hinv⟩ := h.fetch hne
    exact ⟨rfl, .fetched, rfl, hinv⟩
  | respond res =>
    cases hpending : s.pending with
    | nil => simp [step, hpending] at hstep
    | cons =>
      simp only [step, hpending, some_inj] at hstep
      subst hstep
      obtain ⟨rfl, hinv⟩ := h.respond hpending res
      exact ⟨rfl, .answered, rfl, hinv⟩
  | _ => exact he.elim

theorem Inv.step {e : Event} (hfits : s.Fits cfg e) (hstep : s.step cfg e = some s') :
    ∃ k' stage', Inv cfg s' k' stage' := by
  cases e with
  | call cmd =>
    simp only [HdaCommands.step, ite_none_right_eq_some, some_inj] at hstep
    obtain ⟨hidle, rfl⟩ := hstep
    exact ⟨k, _, h.call hidle cmd⟩
  | poll =>
    obtain ⟨phase, hpoll, rfl⟩ := map_eq_some_iff.mp hstep
    exact ⟨k, stage, h.poll hpoll⟩
  | store =>
    cases hphase : s.phase with
    | sendStore =>
      simp only [HdaCommands.step, hphase, some_inj] at hstep
      exact ⟨k, _, hstep ▸ h.store hphase⟩
    | _ => simp [HdaCommands.step, hphase] at hstep
  | publish =>
    cases hphase : s.phase with
    | sendPublish =>
      simp only [HdaCommands.step, hphase, some_inj] at hstep
      exact ⟨k, _, hstep ▸ h.publish hphase⟩
    | _ => simp [HdaCommands.step, hphase] at hstep
  | load =>
    cases hphase : s.phase with
    | recvLoad =>
      simp only [HdaCommands.step, hphase, some_inj] at hstep
      exact ⟨k + 1, _, hstep ▸ h.load hphase hfits⟩
    | _ => simp [HdaCommands.step, hphase] at hstep
  | fetch =>
    have he : Event.fetch.OfController := trivial
    obtain ⟨-, stage', -, hinv⟩ := h.controller he hstep
    exact ⟨k, stage', hinv⟩
  | respond res =>
    have he : (Event.respond res).OfController := trivial
    obtain ⟨-, stage', -, hinv⟩ := h.controller he hstep
    exact ⟨k, stage', hinv⟩

/-! ### The wait loops -/

theorem Inv.controller_run {es : List Event} (hes : ∀ e ∈ es, e.OfController)
    (hrun : run (HdaCommands.step cfg) s es = some s') :
    s'.phase = s.phase ∧ ∃ stage', stage'.left + es.length = stage.left ∧ Inv cfg s' k stage' := by
  induction es generalizing s stage with
  | nil =>
    cases hrun
    exact ⟨rfl, stage, rfl, h⟩
  | cons e es ih =>
    obtain ⟨mid, hstep, hrest⟩ := bind_eq_some_iff.mp hrun
    obtain ⟨hphase, stage', hleft, hinv⟩ := h.controller (hes e mem_cons_self) hstep
    obtain ⟨hphase', stage'', hleft', hinv'⟩ :=
      ih hinv (fun e he => hes e (mem_cons_of_mem _ he)) hrest
    refine ⟨hphase'.trans hphase, stage'', ?_, hinv'⟩
    rw [length_cons]
    omega

/-- A controller that can do nothing has answered. -/
theorem Inv.left_eq_zero (hnone : ∀ e, e.OfController → s.step cfg e = none) : stage.left = 0 := by
  cases stage with
  | resting | answered => rfl
  | published =>
    have hfetch := hnone .fetch trivial
    have hne : s.corbrp ≠ s.corbwp := by
      rw [h.corbrp_eq, h.corbwp_eq]
      exact cfg.corbsize.succ_ne k
    simp [HdaCommands.step, hne] at hfetch
  | fetched =>
    have hrespond := hnone (.respond 0) trivial
    obtain ⟨cmd, hpending, -⟩ := h.stage_ok
    simp [HdaCommands.step, hpending] at hrespond

theorem Inv.poll_leaves (hwaits : s.Waits) (hleft : stage.left = 0) :
    ∃ t, s.step cfg .poll = some t ∧ ¬ t.Waits := by
  rcases hwaits with ⟨cmd, hphase⟩ | hphase
  · have hpoll := (h.pollPhase_send hphase).2
    exact ⟨_, map_eq_some_iff.mpr ⟨_, hpoll, rfl⟩, by simp [Waits]⟩
  · have hne : stage ≠ .resting := by simpa only [hphase, PhaseOk] using h.phase_ok
    obtain rfl : stage = .answered := by
      cases stage with
      | answered => rfl
      | resting => exact absurd rfl hne
      | _ => cases hleft
    exact ⟨_, map_eq_some_iff.mpr ⟨_, h.pollPhase_recv hphase, rfl⟩, by simp [Waits]⟩

theorem Inv.loopEnds (hwaits : s.Waits) : s.LoopEnds cfg := by
  intro es s' hes hrun
  obtain ⟨hphase, stage', hleft, hinv⟩ := h.controller_run hes hrun
  have hbound : stage.left ≤ 2 := by cases stage <;> decide
  refine ⟨by omega, fun hnone => ?_⟩
  have hwaits' : s'.Waits := by
    unfold Waits
    rw [hphase]
    exact hwaits
  exact hinv.poll_leaves hwaits' (hinv.left_eq_zero hnone)

/-! ### The condition is exact -/

theorem Inv.sound : s.Sound cfg where
  replies := h.replies
  stores cmd pos hphase := by
    have hok := h.phase_ok
    rw [hphase] at hok
    rw [hok.2.2]
    exact cfg.corbsize.mod_lt _
  loads pos hphase := by
    have hok := h.phase_ok
    rw [hphase] at hok
    have hcount : rirbCount cfg.rirbsize.value ≤ cfg.rirbsize.largest ∧
        0 < rirbCount cfg.rirbsize.value := by
      rw [rirbCount_eq]
      have hpos := cfg.rirbsize.largest_pos
      split <;> omega
    rw [hok.2]
    exact lt_of_lt_of_le (mod_lt _ hcount.2) hcount.1
  rings := by
    unfold CORB_BUFF_MAX_SIZE
    constructor
    · rcases cfg.corbsize.largest_cases with hsize | hsize | hsize <;> omega
    · rcases cfg.rirbsize.largest_cases with hsize | hsize | hsize <;> omega
  writer hphase := by
    obtain rfl : stage = .resting := by simpa only [hphase, PhaseOk] using h.phase_ok
    rw [h.corbwp_eq, h.corbrp_eq]
    rfl
  reader hphase := by
    obtain rfl : stage = .resting := by simpa only [hphase, PhaseOk] using h.phase_ok
    rw [h.rirbwp_eq, h.rirbRp_eq]
    rfl
  loopEnds := h.loopEnds

/-- After the eighth response the positions differ. -/
theorem Inv.fits_of_sound {e : Event} (hstep : s.step cfg e = some s') (hsound : s'.Sound cfg) :
    s.Fits cfg e := by
  rintro rfl h16
  by_contra hmany
  have hfew := h.few h16
  rw [h.returned_length] at hmany
  obtain rfl : k = 7 := by omega
  cases hphase : s.phase with
  | recvLoad pos =>
    simp only [HdaCommands.step, hphase, some_inj] at hstep
    subst hstep
    obtain ⟨rfl, hpos⟩ : stage = .answered ∧ pos = (s.rirbRp + 1) % rirbCount cfg.rirbsize.value := by
      simpa only [hphase, PhaseOk] using h.phase_ok
    have hreader := hsound.reader rfl
    rw [rirbCount_eq, if_pos h16, h.rirbRp_eq, h16] at hpos
    simp [hpos, h.rirbwp_eq, h16, Stage.done] at hreader
  | _ => simp [HdaCommands.step, hphase] at hstep

end

end Keep

section Main

variable {cfg}

/-- Only `load` returns a response. -/
theorem step_returned {s s' : HdaCommands} {e : Event} (hstep : s.step cfg e = some s') :
    s'.returned.length = s.returned.length + if e = .load then 1 else 0 := by
  cases e with
  | call | fetch =>
    simp only [step, ite_none_right_eq_some, some_inj] at hstep
    obtain ⟨-, rfl⟩ := hstep
    rfl
  | poll =>
    obtain ⟨phase, -, rfl⟩ := map_eq_some_iff.mp hstep
    rfl
  | load =>
    simp only [step] at hstep
    split at hstep
    · cases hstep
      exact length_append
    · cases hstep
  | _ =>
    simp only [step] at hstep
    split at hstep
    · cases hstep
      rfl
    · cases hstep

theorem along_fits_iff {es : List Event} {s : HdaCommands} (h : run (step cfg) init es = some s) :
    Along (step cfg) init (Fits cfg) es ↔ cfg.rirbsize.largest ≠ 16 ∨ s.returned.length < 8 := by
  refine run_induction (motive := fun es s => Along (step cfg) init (Fits cfg) es ↔
    cfg.rirbsize.largest ≠ 16 ∨ s.returned.length < 8) ?_ ?_ h
  · exact iff_of_true along_nil (Or.inr (by decide))
  · intro es s e s' hs ih hstep
    have hlast : (∀ t, run (step cfg) init es = some t → t.Fits cfg e) ↔ s.Fits cfg e := by
      simp [hs]
    rw [along_snoc, ih, hlast, step_returned hstep]
    unfold Fits
    by_cases hload : e = .load
    · rw [if_pos hload]
      simp only [hload, forall_const]
      omega
    · simp [hload]

/-- The rings work as long as the RIRB has not 16 entries, or fewer than eight responses were read. -/
theorem command_rings_iff (cfg : Config) (es : List Event) (s : HdaCommands)
    (h : run (step cfg) init es = some s) : Throughout (step cfg) init (Sound cfg) es ↔
      cfg.rirbsize.largest ≠ 16 ∨ s.returned.length < 8 := by
  rw [← along_fits_iff h]
  have keep : ∀ s e s', (∃ k stage, Inv cfg s k stage) → s.Fits cfg e → s.step cfg e = some s' →
      ∃ k stage, Inv cfg s' k stage := by
    rintro s e s' ⟨k, stage, hinv⟩ hfits hstep
    exact hinv.step hfits hstep
  refine throughout_iff_along ⟨0, .resting, Inv.init cfg⟩ (Inv.init cfg).sound keep ?_ h
  rintro s e s' ⟨k, stage, hinv⟩ hstep
  constructor
  · intro hsound
    exact hinv.fits_of_sound hstep hsound
  · intro hfits
    obtain ⟨k', stage', hinv'⟩ := hinv.step hfits hstep
    exact hinv'.sound

end Main

/-- A CORB of 256 entries, and a RIRB of 2 or 16. -/
def sixteen : Config := ⟨⟨0x42, by decide⟩, ⟨0x30, by decide⟩⟩

/-- A call, when the controller answers `res` at once. -/
def exchange (cmd : U32) (res : U64) : List Event :=
  [.call cmd, .poll, .store, .publish, .poll, .fetch, .respond res, .poll, .load]

theorem one_exchange_sound : sixteen.rirbsize.largest = 16 ∧
    Throughout (step sixteen) init (Sound sixteen) (exchange 5 7) := by
  have hrun : (run (step sixteen) init (exchange 5 7)).map returned = some [7] := by decide +kernel
  obtain ⟨s, hs, hreturned⟩ := map_eq_some_iff.mp hrun
  exact ⟨by decide +kernel, (command_rings_iff sixteen _ s hs).mpr (Or.inr (by rw [hreturned]; decide))⟩

/-- The eighth call returns what is in entry 0, and not the response 7 that is in entry 8. -/
theorem eighth_exchange_not_sound : ¬ Throughout (step sixteen) init (Sound sixteen)
    (List.replicate 8 (exchange 5 7)).flatten := by
  intro h
  have hrun : (run (step sixteen) init (List.replicate 8 (exchange 5 7)).flatten).map
      (fun s => (s.returned[7]?, s.answers[7]?)) = some (some 0, some (5, 7)) := by decide +kernel
  obtain ⟨s, hs, heq⟩ := map_eq_some_iff.mp hrun
  obtain ⟨hreturned, hanswer⟩ : _ ∧ _ := by simpa only [Prod.mk.injEq] using heq
  obtain ⟨cmd, -, hanswer'⟩ := (h _ prefix_rfl s hs).replies 7 0 hreturned
  cases hanswer.symm.trans hanswer'

end HdaCommands

end RedoxDrivers.Audio
