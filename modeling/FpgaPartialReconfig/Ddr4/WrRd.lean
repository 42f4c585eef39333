/-
  `ddr_wr_rd`: the engine that writes a word to the memory, reads it back and compares.

  Every `always_ff` block of the module is in `WrRd.step`, the combinational next state in
  `WrRd.nextState`. A reset is seen at a clock edge, like a clear; the data registers have
  neither. Its commands to the memory are registers, which the engine sets from the next
  state and `waitrequest` of the cycle before.

  The lemmas after the model say, one for each state, what a cycle without reset and clear
  does.
-/
import Mathlib.Data.Bool.Basic

namespace FpgaPartialReconfig.Ddr4

abbrev Address := BitVec 25
abbrev Word := BitVec 128

inductive WrRdState where
  | idle | write | waitWriteDone | read | waitReadAccepted | waitReadDone | dataVerification
  | undefined
  deriving DecidableEq, Repr

structure WrRdIn where
  prLogicRst : Bool
  clrIoReg : Bool
  startDdrWrRd : Bool
  targetAddress : Address
  targetData : Word
  emifAvmmWaitrequest : Bool
  emifAvmmReaddata : Word
  emifAvmmReaddatavalid : Bool

/-- A cycle without reset and clear. -/
def WrRdIn.Runs (i : WrRdIn) : Prop := i.prLogicRst = false ∧ i.clrIoReg = false

/-- The registers that every cycle sets to zero unless it has a reason not to. -/
structure Strobes where
  emifAvmmWrite : Bool
  emifAvmmRead : Bool
  pass : Bool
  fail : Bool
  deriving DecidableEq, Repr

def Strobes.none : Strobes := ⟨false, false, false, false⟩

structure WrRd extends Strobes where
  currState : WrRdState
  referenceData : Word
  referenceAddr : Address
  emifAvmmWritedata : Word
  deriving DecidableEq, Repr

namespace WrRd

def emifAvmmAddress (m : WrRd) : Address := m.referenceAddr

/-- What `pass | fail` is in the source. -/
def done (m : WrRd) : Bool := m.pass || m.fail

def nextState (m : WrRd) (i : WrRdIn) : WrRdState :=
  match m.currState with
  | .idle => if i.startDdrWrRd = true then .write else .idle
  | .write => .waitWriteDone
  | .waitWriteDone => if i.emifAvmmWaitrequest = true then .waitWriteDone else .read
  | .read => .waitReadAccepted
  | .waitReadAccepted => if i.emifAvmmWaitrequest = true then .waitReadAccepted else .waitReadDone
  | .waitReadDone => if i.emifAvmmReaddatavalid = true then .dataVerification else .waitReadDone
  | .dataVerification => if m.done = true then .idle else .dataVerification
  | .undefined => .undefined

/-- The output registers after a cycle without reset and clear. -/
def nextStrobes (m : WrRd) (i : WrRdIn) : Strobes :=
  match m.nextState i with
  | .write => { Strobes.none with emifAvmmWrite := true }
  | .waitWriteDone => { Strobes.none with emifAvmmWrite := i.emifAvmmWaitrequest }
  | .read => { Strobes.none with emifAvmmRead := true }
  | .waitReadAccepted => { Strobes.none with emifAvmmRead := i.emifAvmmWaitrequest }
  | .dataVerification =>
    if i.emifAvmmReaddatavalid = true then
      if i.emifAvmmReaddata = m.referenceData then { Strobes.none with pass := true }
      else { Strobes.none with fail := true }
    else Strobes.none
  | _ => Strobes.none

def step (m : WrRd) (i : WrRdIn) : WrRd where
  toStrobes := if i.prLogicRst = true ∨ i.clrIoReg = true then .none else m.nextStrobes i
  currState := if i.prLogicRst = true ∨ i.clrIoReg = true then .idle else m.nextState i
  referenceData := if m.nextState i = .write then i.targetData else m.referenceData
  referenceAddr := if m.nextState i = .write then i.targetAddress else m.referenceAddr
  emifAvmmWritedata := i.targetData

/-- The engine while it is held in reset; its data registers are anything. -/
def IsReset (m : WrRd) : Prop := m.currState = .idle ∧ m.toStrobes = .none

/-! ## One cycle -/

section
variable {m : WrRd} {i : WrRdIn}

theorem step_runs (hi : i.Runs) :
    m.step i =
      { toStrobes := m.nextStrobes i
        currState := m.nextState i
        referenceData := if m.nextState i = .write then i.targetData else m.referenceData
        referenceAddr := if m.nextState i = .write then i.targetAddress else m.referenceAddr
        emifAvmmWritedata := i.targetData } := by
  have hnot : ¬ (i.prLogicRst = true ∨ i.clrIoReg = true) := by
    rw [hi.1, hi.2]
    decide
  unfold step
  rw [if_neg hnot, if_neg hnot]

theorem step_idle (hi : i.Runs) (h : m.currState = .idle) (hs : i.startDdrWrRd = false) :
    m.step i =
      { m with toStrobes := .none, emifAvmmWritedata := i.targetData } := by
  rw [step_runs hi]
  simp [nextStrobes, nextState, h, hs]

theorem step_start (hi : i.Runs) (h : m.currState = .idle) (hs : i.startDdrWrRd = true) :
    m.step i =
      { toStrobes := { Strobes.none with emifAvmmWrite := true }
        currState := .write
        referenceData := i.targetData
        referenceAddr := i.targetAddress
        emifAvmmWritedata := i.targetData } := by
  rw [step_runs hi]
  simp [nextStrobes, nextState, h, hs]

theorem step_write (hi : i.Runs) (h : m.currState = .write) :
    m.step i =
      { m with
        toStrobes := { Strobes.none with emifAvmmWrite := i.emifAvmmWaitrequest }
        currState := .waitWriteDone
        emifAvmmWritedata := i.targetData } := by
  rw [step_runs hi]
  simp [nextStrobes, nextState, h]

theorem step_waitWriteDone (hi : i.Runs) (h : m.currState = .waitWriteDone) :
    m.step i =
      { m with
        toStrobes :=
          if i.emifAvmmWaitrequest = true then { Strobes.none with emifAvmmWrite := true }
          else { Strobes.none with emifAvmmRead := true }
        currState := if i.emifAvmmWaitrequest = true then .waitWriteDone else .read
        emifAvmmWritedata := i.targetData } := by
  rw [step_runs hi]
  cases hw : i.emifAvmmWaitrequest <;> simp [nextStrobes, nextState, h, hw]

theorem step_read (hi : i.Runs) (h : m.currState = .read) :
    m.step i =
      { m with
        toStrobes := { Strobes.none with emifAvmmRead := i.emifAvmmWaitrequest }
        currState := .waitReadAccepted
        emifAvmmWritedata := i.targetData } := by
  rw [step_runs hi]
  simp [nextStrobes, nextState, h]

theorem step_waitReadAccepted (hi : i.Runs) (h : m.currState = .waitReadAccepted) :
    m.step i =
      { m with
        toStrobes := { Strobes.none with emifAvmmRead := i.emifAvmmWaitrequest }
        currState := if i.emifAvmmWaitrequest = true then .waitReadAccepted else .waitReadDone
        emifAvmmWritedata := i.targetData } := by
  rw [step_runs hi]
  cases hw : i.emifAvmmWaitrequest <;> simp [nextStrobes, nextState, h, hw, Strobes.none]

theorem step_waitReadDone (hi : i.Runs) (h : m.currState = .waitReadDone)
    (hv : i.emifAvmmReaddatavalid = false) :
    m.step i = { m with toStrobes := .none, emifAvmmWritedata := i.targetData } := by
  rw [step_runs hi]
  simp [nextStrobes, nextState, h, hv]

theorem step_returned (hi : i.Runs) (h : m.currState = .waitReadDone)
    (hv : i.emifAvmmReaddatavalid = true) :
    m.step i =
      { m with
        toStrobes :=
          { Strobes.none with
            pass := decide (i.emifAvmmReaddata = m.referenceData)
            fail := !decide (i.emifAvmmReaddata = m.referenceData) }
        currState := .dataVerification
        emifAvmmWritedata := i.targetData } := by
  rw [step_runs hi]
  by_cases hd : i.emifAvmmReaddata = m.referenceData <;>
    simp [nextStrobes, nextState, h, hv, hd, Strobes.none]

theorem step_verified (hi : i.Runs) (h : m.currState = .dataVerification)
    (hd : m.done = true) :
    m.step i =
      { m with toStrobes := .none, currState := .idle, emifAvmmWritedata := i.targetData } := by
  rw [step_runs hi]
  simp [nextStrobes, nextState, h, hd]

theorem step_stopped (hi : ¬ i.Runs) :
    (m.step i).currState = .idle ∧ (m.step i).toStrobes = .none := by
  have hstop : i.prLogicRst = true ∨ i.clrIoReg = true := by
    unfold WrRdIn.Runs at hi
    cases hr : i.prLogicRst <;> cases hc : i.clrIoReg <;> simp_all
  unfold step
  exact ⟨if_pos hstop, if_pos hstop⟩

end

/-! ## What the outputs say about the state -/

/-- In every run the outputs go with the state: a command is asserted only in its own states,
    and `pass` or `fail` exactly in `DATA_VERIFICATION`. -/
structure Wf (m : WrRd) : Prop where
  write : m.emifAvmmWrite = true → m.currState = .write ∨ m.currState = .waitWriteDone
  read : m.emifAvmmRead = true → m.currState = .read ∨ m.currState = .waitReadAccepted
  done : m.done = true ↔ m.currState = .dataVerification
  defined : m.currState ≠ .undefined

theorem IsReset.wf {m : WrRd} (h : m.IsReset) : m.Wf := by
  obtain ⟨hstate, hstrobes⟩ := h
  constructor <;> simp [done, hstate, hstrobes, Strobes.none]

theorem Wf.step {m : WrRd} (h : m.Wf) (i : WrRdIn) : (m.step i).Wf := by
  by_cases hi : i.Runs
  · cases hstate : m.currState with
    | idle =>
      cases hs : i.startDdrWrRd with
      | false =>
        rw [step_idle hi hstate hs]
        exact IsReset.wf ⟨hstate, rfl⟩
      | true =>
        rw [step_start hi hstate hs]
        exact ⟨fun _ => .inl rfl, nofun, ⟨nofun, nofun⟩, nofun⟩
    | write =>
      rw [step_write hi hstate]
      exact ⟨fun _ => .inr rfl, nofun, ⟨nofun, nofun⟩, nofun⟩
    | waitWriteDone =>
      rw [step_waitWriteDone hi hstate]
      cases i.emifAvmmWaitrequest with
      | false => exact ⟨nofun, fun _ => .inl rfl, ⟨nofun, nofun⟩, nofun⟩
      | true => exact ⟨fun _ => .inr rfl, nofun, ⟨nofun, nofun⟩, nofun⟩
    | read =>
      rw [step_read hi hstate]
      exact ⟨nofun, fun _ => .inr rfl, ⟨nofun, nofun⟩, nofun⟩
    | waitReadAccepted =>
      rw [step_waitReadAccepted hi hstate]
      cases i.emifAvmmWaitrequest with
      | false => exact ⟨nofun, nofun, ⟨nofun, nofun⟩, nofun⟩
      | true => exact ⟨nofun, fun _ => .inr rfl, ⟨nofun, nofun⟩, nofun⟩
    | waitReadDone =>
      cases hv : i.emifAvmmReaddatavalid with
      | false =>
        rw [step_waitReadDone hi hstate hv]
        refine ⟨nofun, nofun, ⟨nofun, fun hdone => ?_⟩, fun hundef => ?_⟩
        · exact absurd (hstate.symm.trans hdone) nofun
        · exact absurd (hstate.symm.trans hundef) nofun
      | true =>
        rw [step_returned hi hstate hv]
        exact ⟨nofun, nofun, ⟨fun _ => rfl, fun _ => Bool.or_not_self _⟩, nofun⟩
    | dataVerification =>
      rw [step_verified hi hstate (h.done.mpr hstate)]
      exact IsReset.wf ⟨rfl, rfl⟩
    | undefined => exact absurd hstate h.defined
  · exact IsReset.wf (step_stopped hi)

/-- An idle engine has no verdict out. -/
theorem Wf.not_done {m : WrRd} (h : m.Wf) (hidle : m.currState = .idle) : m.done = false := by
  cases hdone : m.done with
  | false => rfl
  | true => exact absurd (hidle.symm.trans (h.done.mp hdone)) (by decide)

theorem nextState_eq_write (m : WrRd) (i : WrRdIn) :
    m.nextState i = .write ↔ m.currState = .idle ∧ i.startDdrWrRd = true := by
  unfold nextState
  cases m.currState <;> simp
  all_goals split <;> simp

/-- A busy engine is busy until its verdict is out, and keeps its address. -/
theorem Wf.busy_step {m : WrRd} {i : WrRdIn} (h : m.Wf) (hi : i.Runs)
    (hbusy : m.currState ≠ .idle) :
    ((m.step i).currState = .idle ↔ m.done = true) ∧
      (m.step i).referenceAddr = m.referenceAddr := by
  have hwrite : m.nextState i ≠ .write := by
    intro hnext
    exact hbusy ((nextState_eq_write m i).mp hnext).1
  rw [step_runs hi]
  refine ⟨?_, if_neg hwrite⟩
  rw [h.done]
  show m.nextState i = .idle ↔ _
  cases hstate : m.currState with
  | idle => exact absurd hstate hbusy
  | dataVerification =>
    have hdone := h.done.mpr hstate
    simp [nextState, hstate, hdone]
  | undefined => exact absurd hstate h.defined
  | write => simp [nextState, hstate]
  | read => simp [nextState, hstate]
  | waitWriteDone => cases hw : i.emifAvmmWaitrequest <;> simp [nextState, hstate, hw]
  | waitReadAccepted => cases hw : i.emifAvmmWaitrequest <;> simp [nextState, hstate, hw]
  | waitReadDone => cases hv : i.emifAvmmReaddatavalid <;> simp [nextState, hstate, hv]

end WrRd

end FpgaPartialReconfig.Ddr4
