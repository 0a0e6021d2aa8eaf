import RedoxDrivers.Lib.Image
import RedoxDrivers.Lib.Laps
import RedoxDrivers.Lib.Runs
import RedoxDrivers.Lib.Rust

/-!
Playback of `ihdad` (`audio/ihdad/src/hda/device.rs`, `write_to_output`, and
`audio/ihdad/src/hda/stream.rs`, `StreamBuffer`).

The controller plays the 32 blocks of the stream buffer cyclically and waits for nobody. A call of
`write_to_output` reads its link position, and copies the block to where the writer is unless the
writer is exactly three blocks ahead.

Blocks are counted from the start of the stream, so that a block that was copied has a time at which
it is `due`. The writer begins at the block that is played first, and no test keeps it from being
there or from being four or more blocks ahead. `playback_of_paced` says that accepted blocks are heard
when due, and in order, if at its test every writer is one or two blocks ahead and the controller
does not get to the block that is filled meanwhile.
-/

namespace RedoxDrivers.Audio

open Lib Lib.Image List Option Nat

namespace HdaStream

def NUM_SUB_BUFFS : Nat := 32
def SUB_BUFF_SIZE : Nat := 2048

/-- Where a call of `write_to_output` is: `i` bytes of `buf` have been copied. -/
inductive Phase where
  | idle
  | copying (buf : List U8) (i : Nat)
deriving DecidableEq, Repr

end HdaStream

/-- The output stream and the controller that plays it. `link` bytes were played since the stream was
started, those of the block that is played are in `current` and the blocks before it in `heard`.
`accepted` has the copied blocks and when they are due, the latest first. -/
structure HdaStream where
  mem : Nat → U8
  curPos : Nat
  phase : HdaStream.Phase
  results : List (Except Errno (Option Nat))
  link : Nat
  current : List U8
  heard : List (List U8)
  accepted : List (Nat × List U8)

namespace HdaStream

/-- After `StreamBuffer::new`, when the stream is started. -/
def init : HdaStream where
  mem _ := 0
  curPos := 0
  phase := .idle
  results := []
  link := 0
  current := []
  heard := []
  accepted := []

inductive Event where
  | write (buf : List U8)
  | copy
  | play
deriving DecidableEq, Repr

section

variable (s : HdaStream)

/-- The register LPIB: the position in the cyclic buffer. -/
def linkPosition : Nat := s.link % (SUB_BUFF_SIZE * NUM_SUB_BUFFS)

def openBlock : Nat := s.linkPosition / SUB_BUFF_SIZE

/-- The block that is played, counted from the start of the stream. -/
def playing : Nat := s.link / SUB_BUFF_SIZE

/-- How many blocks the writer is ahead of the one that is played. -/
def ahead : Nat := (s.curPos + NUM_SUB_BUFFS - s.openBlock) % NUM_SUB_BUFFS

/-- When what is copied to the writer's block is played next. -/
def due : Nat := s.playing + s.ahead

def returns (result : Except Errno (Option Nat)) : HdaStream :=
  { s with phase := .idle, results := s.results ++ [result] }

/-- `write_to_output` and `write_block` up to the copy. -/
def writeToOutput (buf : List U8) : HdaStream :=
  if s.curPos = (s.openBlock + 3) % NUM_SUB_BUFFS then s.returns (.ok none)
  else if buf.length ≠ SUB_BUFF_SIZE then s.returns (.error .eio)
  else { s with phase := .copying buf 0 }

def store (i : Nat) (byte : U8) : HdaStream :=
  { s with mem := Function.update s.mem (s.curPos * SUB_BUFF_SIZE + i) byte }

/-- The next byte is copied. With the last one the writer moves on and the call returns. -/
def copyByte (buf : List U8) (i : Nat) (byte : U8) : HdaStream :=
  if i + 1 = buf.length then
    { (s.store i byte).returns (.ok (some buf.length)) with
      curPos := (s.curPos + 1) % NUM_SUB_BUFFS
      accepted := (s.due, buf) :: s.accepted }
  else { s.store i byte with phase := .copying buf (i + 1) }

/-- The controller plays the byte at its position. -/
def playByte : HdaStream :=
  let current := s.current ++ [s.mem s.linkPosition]
  let last := s.link % SUB_BUFF_SIZE + 1 = SUB_BUFF_SIZE
  { s with
    link := s.link + 1
    current := if last then [] else current
    heard := if last then s.heard ++ [current] else s.heard }

/-- Calls come one after the other, and the controller plays whenever it wants. -/
def step : Event → Option HdaStream
  | .write buf => if s.phase = .idle then some (s.writeToOutput buf) else none
  | .copy =>
    match s.phase with
    | .copying buf i => buf[i]?.map (s.copyByte buf i)
    | .idle => none
  | .play => some s.playByte

/-! ### What is claimed -/

/-- A block is copied to a place that is not played, and when the copy is done the writer is at most
three blocks ahead. The block is due right after the one before, unless that one has been played. -/
def CopyOk : Event → Prop
  | .copy => ∀ buf i, s.phase = .copying buf i → s.curPos ≠ s.openBlock ∧
      (i + 1 = buf.length → s.due + 1 ≤ s.playing + 3 ∧
        ∀ last rest, s.accepted = last :: rest → s.playing ≤ last.1 → s.due = last.1 + 1)
  | _ => True

/-- What was accepted is heard when it is due. -/
def HeardWhenDue : Prop :=
  ∀ D data, (D, data) ∈ s.accepted → D < s.playing → s.heard[D]? = some data

structure Sound (es : List Event) : Prop where
  copies : Along step init CopyOk es
  heard : Throughout step init HeardWhenDue es

/-! ### What it takes -/

/-- A call with this buffer gets to the copy. -/
def Accepts (buf : List U8) : Prop :=
  s.curPos ≠ (s.openBlock + 3) % NUM_SUB_BUFFS ∧ buf.length = SUB_BUFF_SIZE

/-- The writer is one or two blocks ahead. -/
def Ahead : Prop := 1 ≤ s.ahead ∧ s.ahead ≤ 2

/-- A call is accepted when its writer is ahead, and until it returns the controller does not get to
the block that it fills. -/
def Paced : Event → Prop
  | .write buf => s.Accepts buf → s.Ahead
  | .copy => True
  | .play => s.phase ≠ .idle → s.playByte.openBlock ≠ s.curPos

/-! ### Positions -/

theorem openBlock_eq : s.openBlock = s.playing % NUM_SUB_BUFFS :=
  mod_mul_right_div_self s.link SUB_BUFF_SIZE NUM_SUB_BUFFS

theorem linkPosition_eq :
    s.linkPosition = s.playing % NUM_SUB_BUFFS * SUB_BUFF_SIZE + s.link % SUB_BUFF_SIZE := by
  have hmod : s.linkPosition % SUB_BUFF_SIZE = s.link % SUB_BUFF_SIZE :=
    mod_mul_right_mod s.link SUB_BUFF_SIZE NUM_SUB_BUFFS
  rw [← hmod, ← s.openBlock_eq]
  exact (div_add_mod' _ _).symm

theorem playing_le_due : s.playing ≤ s.due := le_add_right _ _

/-- The block that is due goes to where the writer is. -/
theorem due_slot {s : HdaStream} (h : s.curPos < NUM_SUB_BUFFS) : s.due % NUM_SUB_BUFFS = s.curPos := by
  have hopen := s.openBlock_eq
  unfold due ahead
  unfold NUM_SUB_BUFFS at *
  omega

theorem Ahead.ne_openBlock {s : HdaStream} (h : s.Ahead) : s.curPos ≠ s.openBlock := by
  intro heq
  unfold Ahead ahead at h
  unfold NUM_SUB_BUFFS at h
  omega

/-- A writer that is ahead stays so until the controller gets to its block. -/
theorem Ahead.playByte {s : HdaStream} (h : s.Ahead) (hwriter : s.curPos < NUM_SUB_BUFFS)
    (happroach : s.playByte.openBlock ≠ s.curPos) : s.playByte.Ahead := by
  have hopen := s.openBlock_eq
  have hnext := s.playByte.openBlock_eq
  have hplaying : s.playByte.playing = s.playing ∨ s.playByte.playing = s.playing + 1 := by
    show (s.link + 1) / 2048 = s.link / 2048 ∨ (s.link + 1) / 2048 = s.link / 2048 + 1
    omega
  have hpos : s.playByte.curPos = s.curPos := rfl
  unfold Ahead ahead at *
  unfold NUM_SUB_BUFFS at *
  omega

/-! ### The invariant -/

/-- An accepted block is at most two ahead and in memory, unless it has been heard. -/
structure Entry (e : Nat × List U8) : Prop where
  near : e.1 ≤ s.playing + 2
  size : e.2.length = SUB_BUFF_SIZE
  filled : s.playing ≤ e.1 → Filled s.mem SUB_BUFF_SIZE (e.1 % NUM_SUB_BUFFS) e.2 SUB_BUFF_SIZE
  current : e.1 = s.playing → s.current = e.2.take (s.link % SUB_BUFF_SIZE)
  heard : e.1 < s.playing → s.heard[e.1]? = some e.2

def PhaseOk : Phase → Prop
  | .idle => True
  | .copying buf i =>
    buf.length = SUB_BUFF_SIZE ∧ Filled s.mem SUB_BUFF_SIZE s.curPos buf i ∧ s.Ahead

end

structure Inv (s : HdaStream) : Prop where
  writer : s.curPos < NUM_SUB_BUFFS
  behind : ∀ last rest, s.accepted = last :: rest → (last.1 + 1) % NUM_SUB_BUFFS = s.curPos
  ordered : s.accepted.Pairwise fun later earlier => earlier.1 < later.1
  entries : ∀ e ∈ s.accepted, s.Entry e
  heard_length : s.heard.length = s.playing
  phase_ok : s.PhaseOk s.phase

theorem Inv.init : Inv init :=
  ⟨by decide, nofun, .nil, nofun, rfl, trivial⟩

section Keep

variable {s s' : HdaStream} {buf : List U8} {i : Nat} {byte : U8} {e : Nat × List U8}

/-- The byte that is played is the next one of the block that is due. -/
theorem Entry.played_byte (h : s.Entry e) (hdue : e.1 = s.playing) :
    s.current ++ [s.mem s.linkPosition] = e.2.take (s.link % SUB_BUFF_SIZE + 1) := by
  have hlt : s.link % SUB_BUFF_SIZE < SUB_BUFF_SIZE := mod_lt _ (by decide)
  have hbyte := getElem?_eq_getElem (show s.link % SUB_BUFF_SIZE < e.2.length by rwa [h.size])
  rw [h.current hdue, s.linkPosition_eq, ← hdue, h.filled (le_of_eq hdue.symm) _ _ hlt hbyte,
    take_add_one, hbyte]
  rfl

theorem Entry.playByte (h : s.Entry e) (hlength : s.heard.length = s.playing) : s.playByte.Entry e := by
  rcases succ_lap (show 0 < SUB_BUFF_SIZE by decide) s.link with ⟨hfits, hmod, hdiv⟩ | ⟨hlast, hmod, hdiv⟩
  · have hplaying : s.playByte.playing = s.playing := hdiv
    have hheard : s.playByte.heard = s.heard := if_neg (Nat.ne_of_lt hfits)
    have hcurrent : s.playByte.current = s.current ++ [s.mem s.linkPosition] := if_neg (Nat.ne_of_lt hfits)
    refine ⟨hplaying ▸ h.near, h.size, fun hD => h.filled (hplaying ▸ hD), fun hD => ?_, fun hD => ?_⟩
    · rw [hcurrent, h.played_byte (hD.trans hplaying)]
      exact congrArg e.2.take hmod.symm
    · rw [hheard]
      exact h.heard (hplaying ▸ hD)
  · have hplaying : s.playByte.playing = s.playing + 1 := hdiv
    have hheard : s.playByte.heard = s.heard ++ [s.current ++ [s.mem s.linkPosition]] := if_pos hlast
    have hcurrent : s.playByte.current = [] := if_pos hlast
    refine ⟨?_, h.size, fun hD => ?_, fun _ => ?_, fun hD => ?_⟩
    · rw [hplaying]
      exact le_succ_of_le h.near
    · rw [hplaying] at hD
      exact h.filled (le_of_succ_le hD)
    · rw [hcurrent, show s.playByte.link % SUB_BUFF_SIZE = 0 from hmod]
      exact take_zero.symm
    · rw [hplaying] at hD
      rw [hheard]
      rcases Nat.lt_succ_iff_lt_or_eq.mp hD with hold | heq
      · rw [getElem?_append_left (hlength ▸ hold)]
        exact h.heard hold
      · -- The block that was due has been played to its end.
        rw [h.played_byte heq, hlast, ← h.size, take_length, heq, ← hlength]
        exact getElem?_concat_length

theorem heard_length_playByte (h : s.heard.length = s.playing) :
    s.playByte.heard.length = s.playByte.playing := by
  show (if _ then _ else _ : List _).length = (s.link + 1) / SUB_BUFF_SIZE
  rcases succ_lap (show 0 < SUB_BUFF_SIZE by decide) s.link with ⟨hfits, -, hdiv⟩ | ⟨hlast, -, hdiv⟩
  · rw [if_neg (Nat.ne_of_lt hfits), hdiv]
    exact h
  · rw [if_pos hlast, hdiv, length_append, h]
    rfl

section

variable (h : Inv s)

include h

theorem Inv.writeToOutput (hahead : s.Accepts buf → s.Ahead) : Inv (s.writeToOutput buf) := by
  have hentries {s' : HdaStream} (hs' : s' = { s with phase := s'.phase, results := s'.results }) :
      ∀ e ∈ s'.accepted, s'.Entry e := by
    rw [hs']
    exact fun e he => { h.entries e he with }
  unfold HdaStream.writeToOutput
  split
  · exact { h with entries := hentries rfl, phase_ok := trivial }
  · split
    · exact { h with entries := hentries rfl, phase_ok := trivial }
    · rename_i hfull hlength
      rw [not_not] at hlength
      exact { h with entries := hentries rfl, phase_ok := ⟨hlength, nofun, hahead ⟨hfull, hlength⟩⟩ }

/-- The latest block is due after all those before. -/
theorem Inv.le_last {last : Nat × List U8} {rest : List (Nat × List U8)}
    (haccepted : s.accepted = last :: rest) (he : e ∈ s.accepted) : e.1 ≤ last.1 := by
  have hordered := h.ordered
  rw [haccepted] at he hordered
  rcases mem_cons.mp he with rfl | hrest
  · exact le_refl _
  · exact le_of_lt (rel_of_pairwise_cons hordered hrest)

/-- The writer's block holds nothing that is still to be played. -/
theorem Inv.free (he : e ∈ s.accepted) (hD : s.playing ≤ e.1) : e.1 % NUM_SUB_BUFFS ≠ s.curPos := by
  obtain ⟨last, rest, haccepted⟩ := exists_cons_of_ne_nil (ne_nil_of_mem he)
  have hlast := (h.entries last (haccepted ▸ mem_cons_self)).near
  rw [← h.behind last rest haccepted]
  refine slot_ne (lt_succ_of_le (h.le_last haccepted he)) ?_
  show last.1 + 1 < e.1 + 32
  omega

/-- Without an underrun the next block is due right after the last one: both times belong to the
writer's block, and they are near. -/
theorem Inv.due_eq_succ (hnear : s.due ≤ s.playing + 2) {last : Nat × List U8}
    {rest : List (Nat × List U8)} (haccepted : s.accepted = last :: rest)
    (hlast : s.playing ≤ last.1) : s.due = last.1 + 1 := by
  have hle := s.playing_le_due
  have hlastNear := (h.entries last (haccepted ▸ mem_cons_self)).near
  have hslot : s.due % NUM_SUB_BUFFS = (last.1 + 1) % NUM_SUB_BUFFS := by
    rw [due_slot h.writer, h.behind last rest haccepted]
  have hlap : NUM_SUB_BUFFS = 32 := rfl
  rcases le_total s.due (last.1 + 1) with hbefore | hafter
  · exact (slot_eq_iff hbefore (by omega)).mp hslot
  · exact ((slot_eq_iff hafter (by omega)).mp hslot.symm).symm

/-- A block that is copied is due after all those before. -/
theorem Inv.lt_due (hnear : s.due ≤ s.playing + 2) (he : e ∈ s.accepted) : e.1 < s.due := by
  obtain ⟨last, rest, haccepted⟩ := exists_cons_of_ne_nil (ne_nil_of_mem he)
  refine lt_of_le_of_lt (h.le_last haccepted he) ?_
  rcases Nat.lt_or_ge last.1 s.playing with hplayed | hD
  · exact lt_of_lt_of_le hplayed s.playing_le_due
  · rw [h.due_eq_succ hnear haccepted hD]
    exact lt_succ_self _

theorem Inv.copyByte (hphase : s.phase = .copying buf i) (hbyte : buf[i]? = some byte) :
    Inv (s.copyByte buf i byte) := by
  have hok := h.phase_ok
  rw [hphase] at hok
  obtain ⟨hlength, hfilled, hahead⟩ := hok
  have hi : i < SUB_BUFF_SIZE := hlength ▸ (List.getElem?_eq_some_iff.mp hbyte).1
  -- A byte that is copied is none of those that are still to be played.
  have hentries (e) (he : e ∈ s.accepted) : (s.store i byte).Entry e :=
    { h.entries e he with
      filled := fun hD => ((h.entries e he).filled hD).update (le_refl _) (h.free he hD) hi }
  unfold HdaStream.copyByte
  split
  case isFalse =>
    exact { h with
      entries := fun e he => { hentries e he with }, phase_ok := ⟨hlength, hfilled.snoc hbyte, hahead⟩ }
  case isTrue hlast =>
    have hdue : s.due ≤ s.playing + 2 := Nat.add_le_add_left hahead.2 _
    have hslot := due_slot h.writer
    have hlt : s.playing < s.due := Nat.lt_add_of_pos_right hahead.1
    have hall := hfilled.snoc hbyte
    rw [hlast, hlength] at hall
    refine { h with
      writer := mod_lt _ (by decide), behind := ?_, ordered := ?_, entries := ?_, phase_ok := trivial }
    · intro last rest hcons
      cases hcons
      rw [← hslot, mod_add_mod]
    · exact pairwise_cons.mpr ⟨fun e he => h.lt_due hdue he, h.ordered⟩
    · refine forall_mem_cons.mpr ⟨⟨hdue, hlength, fun _ => ?_, ?_, ?_⟩, fun e he => { hentries e he with }⟩
      · dsimp only [store, returns]
        rw [hslot]
        exact hall
      · exact fun heq => absurd heq.symm (Nat.ne_of_lt hlt)
      · exact fun hD => absurd hlt (lt_asymm hD)

theorem Inv.playByte (happroach : s.phase ≠ .idle → s.playByte.openBlock ≠ s.curPos) :
    Inv s.playByte := by
  refine { h with
    entries := fun e he => (h.entries e he).playByte h.heard_length
    heard_length := heard_length_playByte h.heard_length, phase_ok := ?_ }
  have hok := h.phase_ok
  show s.playByte.PhaseOk s.phase
  cases hphase : s.phase with
  | idle => trivial
  | copying =>
    rw [hphase] at hok happroach
    exact ⟨hok.1, hok.2.1, hok.2.2.playByte h.writer (happroach nofun)⟩

theorem Inv.step {e : Event} (hpaced : s.Paced e) (hstep : s.step e = some s') : Inv s' := by
  cases e with
  | write buf =>
    simp only [HdaStream.step, ite_none_right_eq_some, some_inj] at hstep
    obtain ⟨-, rfl⟩ := hstep
    exact h.writeToOutput hpaced
  | copy =>
    cases hphase : s.phase with
    | idle => simp [HdaStream.step, hphase] at hstep
    | copying =>
      simp only [HdaStream.step, hphase, map_eq_some_iff] at hstep
      obtain ⟨byte, hbyte, rfl⟩ := hstep
      exact h.copyByte hphase hbyte
  | play =>
    cases hstep
    exact h.playByte hpaced

/-- A copy whose writer is ahead is right: the block is due when it should be. -/
theorem Inv.copyOk (e : Event) : s.CopyOk e := by
  cases e with
  | write | play => trivial
  | copy =>
    intro buf i hphase
    have hok := h.phase_ok
    rw [hphase] at hok
    have hdue : s.due ≤ s.playing + 2 := Nat.add_le_add_left hok.2.2.2 _
    exact ⟨hok.2.2.ne_openBlock, fun _ => ⟨succ_le_succ hdue, fun last rest => h.due_eq_succ hdue⟩⟩

end

end Keep

/-- **Playback.** If the writer is one or two blocks ahead whenever a call is accepted, and the
controller does not get to its block until the call returns, then blocks are heard when due and in
order. -/
theorem playback_of_paced {es : List Event} (h : Along step init Paced es) : Sound es := by
  have hinv : Throughout step init Inv es :=
    throughout_of_along Inv.init (fun _ _ _ h hpaced hstep => h.step hpaced hstep) h
  refine ⟨(along_of_throughout hinv).imp fun s e h => h.copyOk e, fun pre hpre s hs D data hmem => ?_⟩
  exact ((hinv pre hpre s hs).entries _ hmem).heard

theorem play_idle {s : HdaStream} (hidle : s.phase = .idle) (n : Nat) :
    Along step s Paced (replicate n .play) ∧ ∃ s', run step s (replicate n .play) = some s' ∧
      s'.phase = .idle ∧ s'.curPos = s.curPos ∧ s'.link = s.link + n := by
  refine along_replicate (I := fun i (s' : HdaStream) =>
    s'.phase = .idle ∧ s'.curPos = s.curPos ∧ s'.link = s.link + i) ⟨hidle, rfl, rfl⟩ ?_
  rintro i - s' ⟨hphase, hpos, hlink⟩
  exact ⟨absurd hphase, s'.playByte, rfl, hphase, hpos, congrArg (· + 1) hlink⟩

theorem copy_all {s : HdaStream} {buf : List U8} (hphase : s.phase = .copying buf 0)
    (hlength : buf.length = SUB_BUFF_SIZE) : Along step s Paced (replicate SUB_BUFF_SIZE .copy) ∧
      ∃ s', run step s (replicate SUB_BUFF_SIZE .copy) = some s' ∧ s'.phase = .idle := by
  refine along_replicate (I := fun i (s' : HdaStream) =>
    s'.phase = if i = SUB_BUFF_SIZE then .idle else .copying buf i) hphase fun i hi s' hs' => ?_
  rw [if_neg (Nat.ne_of_lt hi)] at hs'
  obtain ⟨byte, hbyte⟩ : ∃ byte, buf[i]? = some byte := ⟨_, getElem?_eq_getElem (hlength ▸ hi)⟩
  refine ⟨trivial, s'.copyByte buf i byte, by simp [step, hs', hbyte], ?_⟩
  rw [copyByte, hlength]
  split
  · rfl
  · rfl

/-- A block that is copied while the block 30 of the first lap is played, and heard two blocks
later. -/
theorem late_write_sound : Sound (replicate 61440 .play ++
    .write (replicate 2048 1) :: (replicate SUB_BUFF_SIZE .copy ++ replicate 6144 .play)) := by
  obtain ⟨hplay, s, hs, hidle, hpos, hlink⟩ := play_idle (s := init) rfl 61440
  have hopen : s.openBlock = 30 := by
    rw [openBlock, linkPosition, hlink]
    rfl
  refine playback_of_paced (along_append.mpr ⟨hplay, fun t ht => ?_⟩)
  cases hs.symm.trans ht
  refine along_cons.mpr ⟨fun _ => ?_, fun t ht => ?_⟩
  · rw [Ahead, ahead, hopen, hpos]
    decide
  · have hcopying : t.phase = .copying (replicate 2048 1) 0 := by
      cases (if_pos hidle).symm.trans ht
      rw [writeToOutput, hopen, hpos, if_neg (by decide), if_neg fun h => h length_replicate]
    obtain ⟨hcopy, u, hu, hdone⟩ := copy_all hcopying length_replicate
    refine along_append.mpr ⟨hcopy, fun v hv => ?_⟩
    cases hu.symm.trans hv
    exact (play_idle hdone _).1

/-- The first call of all: the writer is at the block that is played. -/
def firstWrite : List Event := [.write (List.replicate 2048 1), .copy]

theorem first_write_not_sound : ¬ Sound firstWrite := by
  intro h
  have hrun : (run step init [.write (replicate 2048 1)]).map
      (fun s => (s.phase, s.curPos, s.openBlock)) = some (.copying (replicate 2048 1) 0, 0, 0) := by
    decide +kernel
  obtain ⟨s, hs, heq⟩ := map_eq_some_iff.mp hrun
  obtain ⟨hphase, hwriter, hopen⟩ : _ ∧ _ ∧ _ := by simpa only [Prod.mk.injEq] using heq
  have hapart := (h.copies [.write (replicate 2048 1)] .copy [] rfl s hs _ _ hphase).1
  exact hapart (hwriter.trans hopen.symm)

end HdaStream

end RedoxDrivers.Audio
