/-
  `moderator`: the control of the Game of Life persona.

  A start pulse loads the board and clears the counter; from the next cycle on
  `start_game_delay` is high, and the board goes on by a generation in each cycle in which the
  counter is below the limit (`count`, the busy flag). Where two statements of the source
  assign a register in one cycle the later one wins: the counter counts rather than being
  cleared, and `start_game_delay` ends a game rather than beginning one.

  The reset is asynchronous: in a cycle with `pr_logic_rst` the registers have their reset
  values already (`Moderator.at`), and the host reads those. Left out: the persona id, the
  registers that are declared and never driven, the unused outputs of `gol_top`, and the
  register file, whose source is not in the repository.
-/
import FpgaPartialReconfig.Gol.Block
import FpgaPartialReconfig.Lib.Clock

namespace FpgaPartialReconfig.Gol

open Clock

structure ModeratorIn where
  prLogicRst : Bool
  hostCntrlRegister : BitVec 32
  hostPr : Nat → BitVec 32

structure Moderator where
  localClrIoRegQ : Bool
  localClrIoReg : Bool
  counterLimit : BitVec 32
  boardStart : BitVec 32 × BitVec 32
  counter : BitVec 32
  startPulseD : Bool
  startPulse : Bool
  startGameDelay : Bool
  gameDone : Bool
  golBlockWrapper : GolBlockWrapper
  deriving DecidableEq, Repr

namespace Moderator

def reset : Moderator :=
  ⟨false, false, 0, (0, 0), 0, false, false, false, false, .reset⟩

/-- The registers, those of the blocks among them, under the asynchronous reset. -/
def settle (rst : Bool) (m : Moderator) : Moderator := if rst = true then reset else m

def count (m : Moderator) : Bool := decide (m.counter < m.counterLimit) && m.startGameDelay

def blockIn (m : Moderator) (i : ModeratorIn) : BlockIn where
  clkEn := m.count
  init := m.startPulse
  rst := i.prLogicRst
  boardInitial := m.boardStart.1 ++ m.boardStart.2

/-- The registers that the host reads: the busy flag and the two halves of the result. -/
def prHost (m : Moderator) : Fin 3 → BitVec 32
  | 0 => bit 32 m.count
  | 1 => m.golBlockWrapper.boardFinalReg.extractLsb' 32 32
  | 2 => m.golBlockWrapper.boardFinalReg.extractLsb' 0 32

def step (m : Moderator) (i : ModeratorIn) : Moderator :=
  let rst := i.prLogicRst
  let clr := m.localClrIoReg
  { localClrIoRegQ := if rst = true then false else i.hostCntrlRegister.getLsbD 0
    localClrIoReg :=
      if rst = true then false else !m.localClrIoRegQ && i.hostCntrlRegister.getLsbD 0
    counterLimit := if rst = true then 0 else if clr = true then 0 else i.hostPr 0
    boardStart :=
      if rst = true then (0, 0) else if clr = true then (0, 0) else (i.hostPr 1, i.hostPr 2)
    counter :=
      if rst = true then 0
      else if clr = true then 0
      else if m.count = true then m.counter + 1
      else if m.startPulse = true then 0
      else m.counter
    startPulseD :=
      if rst = true then false else if clr = true then false else i.hostCntrlRegister.getLsbD 1
    startPulse :=
      if rst = true then false
      else if clr = true then false
      else !m.startPulseD && i.hostCntrlRegister.getLsbD 1
    startGameDelay :=
      if rst = true then false
      else if clr = true then false
      else if m.count = false ∧ m.startGameDelay = true then false
      else if m.startPulse = true then true
      else m.startGameDelay
    gameDone :=
      if rst = true then false
      else if clr = true then false
      else if m.count = false ∧ m.startGameDelay = true then true
      else if m.startPulse = true then false
      else m.gameDone
    golBlockWrapper := m.golBlockWrapper.step (m.blockIn i) }

/-- A cycle without reset and clear pulse. -/
def Runs (m : Moderator) (i : ModeratorIn) : Prop :=
  i.prLogicRst = false ∧ m.localClrIoReg = false

end Moderator

/-- The registers in a cycle. -/
def Moderator.at (m : Moderator) (inp : Nat → ModeratorIn) (t : Nat) : Moderator :=
  (cycles Moderator.step m inp t).settle (inp t).prLogicRst

namespace Moderator

/-! ## The reset -/

@[simp] theorem settle_true (m : Moderator) : m.settle true = reset := rfl

@[simp] theorem settle_false (m : Moderator) : m.settle false = m := rfl

theorem step_of_rst {m : Moderator} {i : ModeratorIn} (hrst : i.prLogicRst = true) :
    m.step i = reset := by
  have hblocks : m.golBlockWrapper.step (m.blockIn i) = .reset := GolBlockWrapper.step_of_rst hrst
  simp [step, reset, hrst, hblocks]

/-- The next edge makes the same of the registers whether they have settled or not. -/
theorem step_settle (m : Moderator) (i : ModeratorIn) :
    (m.settle i.prLogicRst).step i = m.step i := by
  cases hrst : i.prLogicRst with
  | true => rw [step_of_rst hrst, step_of_rst hrst]
  | false => rfl

theorem at_succ (m : Moderator) (inp : Nat → ModeratorIn) (t : Nat) :
    m.at inp (t + 1) = ((m.at inp t).step (inp t)).settle (inp (t + 1)).prLogicRst := by
  unfold Moderator.at
  rw [step_settle, cycles_succ]

theorem at_of_rst {m : Moderator} {inp : Nat → ModeratorIn} {t : Nat}
    (hrst : (inp t).prLogicRst = true) : m.at inp t = reset := by
  unfold Moderator.at
  rw [hrst, settle_true]

theorem at_succ_of_not_rst (m : Moderator) {inp : Nat → ModeratorIn} {t : Nat}
    (hrst : (inp (t + 1)).prLogicRst = false) :
    m.at inp (t + 1) = (m.at inp t).step (inp t) := by
  rw [at_succ, hrst, settle_false]

@[simp] theorem reset_at_zero (inp : Nat → ModeratorIn) : reset.at inp 0 = reset := by
  unfold Moderator.at settle
  exact ite_self reset

/-- What is low in reset and after the step is low in the next cycle. -/
theorem at_succ_low (flag : Moderator → Bool) {m : Moderator} {inp : Nat → ModeratorIn} {t : Nat}
    (hreset : flag reset = false) (hstep : flag ((m.at inp t).step (inp t)) = false) :
    flag (m.at inp (t + 1)) = false := by
  cases hrst : (inp (t + 1)).prLogicRst with
  | true => rw [at_of_rst hrst, hreset]
  | false => rw [at_succ_of_not_rst m hrst, hstep]

/-! ## The control registers in a cycle without reset and clear pulse -/

variable {m : Moderator} {i : ModeratorIn}

theorem step_counterLimit (h : m.Runs i) : (m.step i).counterLimit = i.hostPr 0 := by
  obtain ⟨hrst, hclr⟩ := h
  simp [step, hrst, hclr]

theorem step_boardStart (h : m.Runs i) :
    (m.step i).boardStart = (i.hostPr 1, i.hostPr 2) := by
  obtain ⟨hrst, hclr⟩ := h
  simp [step, hrst, hclr]

theorem step_counter (h : m.Runs i) :
    (m.step i).counter =
      if m.count = true then m.counter + 1
      else if m.startPulse = true then 0
      else m.counter := by
  obtain ⟨hrst, hclr⟩ := h
  simp [step, hrst, hclr]

theorem step_startPulse (h : m.Runs i) :
    (m.step i).startPulse = (!m.startPulseD && i.hostCntrlRegister.getLsbD 1) := by
  obtain ⟨hrst, hclr⟩ := h
  simp [step, hrst, hclr]

theorem step_startPulseD (h : m.Runs i) :
    (m.step i).startPulseD = i.hostCntrlRegister.getLsbD 1 := by
  obtain ⟨hrst, hclr⟩ := h
  simp [step, hrst, hclr]

theorem step_startGameDelay (h : m.Runs i) :
    (m.step i).startGameDelay =
      if m.count = false ∧ m.startGameDelay = true then false
      else if m.startPulse = true then true
      else m.startGameDelay := by
  obtain ⟨hrst, hclr⟩ := h
  simp [step, hrst, hclr]

/-- Without its bit in the host's register there is no clear pulse, -/
theorem step_no_clear (hbit : i.hostCntrlRegister.getLsbD 0 = false) :
    (m.step i).localClrIoReg = false := by
  show (if i.prLogicRst = true then false
    else !m.localClrIoRegQ && i.hostCntrlRegister.getLsbD 0) = false
  rw [hbit, Bool.and_false, ite_self]

/-- and no start pulse. -/
theorem step_no_start (hbit : i.hostCntrlRegister.getLsbD 1 = false) :
    (m.step i).startPulse = false := by
  show (if i.prLogicRst = true then false
    else if m.localClrIoReg = true then false
    else !m.startPulseD && i.hostCntrlRegister.getLsbD 1) = false
  rw [hbit, Bool.and_false, ite_self, ite_self]

/-- Whether cleared or not, no game begins without a start pulse. -/
theorem step_not_started (hpulse : m.startPulse = false) (hgame : m.startGameDelay = false) :
    (m.step i).startGameDelay = false := by
  simp [step, hpulse, hgame]

theorem count_of_not_started (hgame : m.startGameDelay = false) : m.count = false := by
  unfold count
  rw [hgame, Bool.and_false]

/-! ## The board in a cycle without reset -/

theorem step_golBoard (hrst : i.prLogicRst = false) :
    (m.step i).golBlockWrapper.golBoard =
      if m.startPulse = true then m.boardStart.1 ++ m.boardStart.2
      else if m.count = true then nextBoard m.golBlockWrapper.golBoard
      else m.golBlockWrapper.golBoard := by
  show blockStep m.golBlockWrapper.golBoard (m.blockIn i) = _
  rw [blockStep_eq, if_neg (show ¬ (m.blockIn i).rst = true by simp [blockIn, hrst])]
  rfl

/-- The result register lags behind the board by a cycle. -/
theorem step_boardFinalReg (hrst : i.prLogicRst = false) (hpulse : m.startPulse = false) :
    (m.step i).golBlockWrapper.boardFinalReg = m.golBlockWrapper.golBoard := by
  simp [step, GolBlockWrapper.step, blockIn, hrst, hpulse]

end Moderator

end FpgaPartialReconfig.Gol
