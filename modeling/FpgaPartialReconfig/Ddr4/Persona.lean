/-
  The DDR4 access persona, as `ddr4_access_top` puts it together.

  Each module of the persona is a record of its registers with a step function; what one
  module reads of another is always a register, so that `Persona.step` steps them side by
  side. A reset is seen at a clock edge. The LFSR is also reset by `clr_io_reg`, and without
  waiting for the edge, which is why its registers are read through `Lfsr.settle`.

  `target_data` is assigned with `=` in a clocked block; like synthesis, the model has a
  register there, whose old value the other modules see at the edge.

  Left out: the register file and the clock crossing to the memory interface, whose sources
  are not in the repository; the persona id; and `post_wr_pulse`, which nothing reads.
-/
import FpgaPartialReconfig.Ddr4.WrRd
import FpgaPartialReconfig.Lib.Clock
import Mathlib.Data.Nat.Bitwise

namespace FpgaPartialReconfig.Ddr4

open Clock

/-! ## `ddr4_access_persona_controller` -/

structure ControllerIn where
  prLogicRst : Bool
  hostCntrlRegister : BitVec 32
  hostPr : Nat → BitVec 32
  ddrAccessCompleted : Bool
  clearStartOperation : Bool

structure Controller where
  startOperation : Bool
  startPulse : Bool
  startD : Bool
  memAddr : BitVec 32
  finalAddressQ0 : BitVec 32
  finalAddressQ1 : BitVec 32
  finalAddress : BitVec 32
  seed : BitVec 32
  loadSeed : Bool
  clrIoReg : Bool
  clrIoRegD : Bool
  deriving DecidableEq, Repr

def Controller.reset : Controller := ⟨false, false, false, 0, 0, 0, 0, 0, false, false, false⟩

def Controller.step (m : Controller) (i : ControllerIn) : Controller :=
  if i.prLogicRst = true then .reset
  else
    { startOperation :=
        if m.startPulse = true then true
        else if i.clearStartOperation = true ∨ i.ddrAccessCompleted = true then false
        else m.startOperation
      startPulse := !m.startD && i.hostCntrlRegister.getLsbD 2
      startD := i.hostCntrlRegister.getLsbD 2
      memAddr := i.hostPr 0
      finalAddressQ0 := i.hostPr 0 + i.hostPr 2
      finalAddressQ1 := m.finalAddressQ0
      finalAddress := m.finalAddressQ1
      seed := i.hostPr 1
      loadSeed := i.hostCntrlRegister.getLsbD 1
      clrIoReg := !m.clrIoRegD && i.hostCntrlRegister.getLsbD 0
      clrIoRegD := i.hostCntrlRegister.getLsbD 0 }

theorem Controller.step_no_clear {m : Controller} {i : ControllerIn}
    (h : i.hostCntrlRegister.getLsbD 0 = false) : (m.step i).clrIoReg = false := by
  unfold Controller.step
  split
  · rfl
  · rw [h, Bool.and_false]

/-! ## `mem_access` -/

inductive MemAccessState where
  | idle | ddrAccess | undefined
  deriving DecidableEq, Repr

structure MemAccessIn where
  prLogicRst : Bool
  clrIoReg : Bool
  startOperation : Bool
  ddrAccessCompleted : Bool

structure MemAccess where
  currState : MemAccessState
  busyReg : Bool
  clearStartOperation : Bool
  startTrafficGenerator : Bool
  deriving DecidableEq, Repr

namespace MemAccess

def reset : MemAccess := ⟨.idle, false, false, false⟩

def nextState (m : MemAccess) (i : MemAccessIn) : MemAccessState :=
  match m.currState with
  | .idle =>
    if i.startOperation = true ∧ i.ddrAccessCompleted = false then .ddrAccess else .idle
  | .ddrAccess => if i.ddrAccessCompleted = false then .ddrAccess else .idle
  | .undefined => .undefined

def step (m : MemAccess) (i : MemAccessIn) : MemAccess :=
  if i.prLogicRst = true ∨ i.clrIoReg = true then .reset
  else
    match m.nextState i with
    | .idle => ⟨.idle, false, true, false⟩
    | .ddrAccess => ⟨.ddrAccess, true, i.ddrAccessCompleted, !i.ddrAccessCompleted⟩
    | .undefined => ⟨.undefined, false, false, false⟩

end MemAccess

/-! ## `lfsr` -/

structure Lfsr where
  myreg : BitVec 32
  poly : BitVec 32
  deriving DecidableEq, Repr

namespace Lfsr

def reset : Lfsr := ⟨0, 0x800007c3#32⟩

/-- The registers under an asynchronous reset. -/
def settle (rst : Bool) (m : Lfsr) : Lfsr := if rst = true then .reset else m

/-- `{32{myreg[31]}} & poly`. -/
def feedback (m : Lfsr) : BitVec 32 := (if m.myreg.msb = true then BitVec.allOnes 32 else 0) &&& m.poly

def step (m : Lfsr) (rst loadSeed : Bool) (seed : BitVec 32) : Lfsr :=
  if rst = true then .reset
  else
    { poly := if loadSeed = true then seed else m.poly
      myreg := ((m.myreg ^^^ m.feedback) <<< 1) ||| (if m.myreg.msb = true then 0 else 1) }

end Lfsr

/-! ## `traffic_generator` -/

inductive TrafficState where
  | idle | active | wait | undefined
  deriving DecidableEq, Repr

structure TrafficIn where
  prLogicRst : Bool
  clrIoReg : Bool
  startTrafficGenerator : Bool
  memAddr : BitVec 32
  seed : BitVec 32
  loadSeed : Bool
  pass : Bool
  fail : Bool
  finalAddr : BitVec 32

structure TrafficGenerator where
  currState : TrafficState
  ddrAccessCompleted : Bool
  startDdrWrRd : Bool
  startTrafficGeneratorQ : Bool
  targetAddress : Address
  targetData : Word
  lfsr : Lfsr
  deriving DecidableEq, Repr

/-- The 128 bits of data made of a random word. -/
def dataOf (rndmData : BitVec 32) : Word :=
  ~~~ rndmData.extractLsb' 10 22 ++
    ~~~ (rndmData.extractLsb' 0 10 ++ rndmData.extractLsb' 22 10) ++
    ~~~ rndmData.extractLsb' 0 22 ++
    ~~~ rndmData.extractLsb' 10 22 ++
    ~~~ (rndmData.extractLsb' 0 10 ++ rndmData.extractLsb' 22 10) ++
    rndmData.extractLsb' 0 22

namespace TrafficGenerator

/-- The sweep is at the final address. -/
def atFinal (m : TrafficGenerator) (i : TrafficIn) : Prop :=
  m.targetAddress = i.finalAddr.setWidth 25

instance (m : TrafficGenerator) (i : TrafficIn) : Decidable (m.atFinal i) :=
  inferInstanceAs (Decidable (_ = _))

def nextState (m : TrafficGenerator) (i : TrafficIn) : TrafficState :=
  match m.currState with
  | .idle =>
    if m.atFinal i ∧ m.targetAddress ≠ 0 then .idle
    else if i.startTrafficGenerator = true then .active
    else .idle
  | .active => if m.atFinal i then .idle else .wait
  | .wait => if i.pass = true ∨ i.fail = true then .active else .wait
  | .undefined => .undefined

/-- A new start of the traffic generator. -/
def starts (m : TrafficGenerator) (i : TrafficIn) : Prop :=
  i.startTrafficGenerator = true ∧ m.startTrafficGeneratorQ = false

instance (m : TrafficGenerator) (i : TrafficIn) : Decidable (m.starts i) :=
  inferInstanceAs (Decidable (_ ∧ _))

def rndmData (m : TrafficGenerator) (i : TrafficIn) : BitVec 32 :=
  (m.lfsr.settle (i.clrIoReg || i.prLogicRst)).myreg

def step (m : TrafficGenerator) (i : TrafficIn) : TrafficGenerator :=
  let rst := i.prLogicRst || i.clrIoReg
  { currState := if rst = true then .idle else m.nextState i
    ddrAccessCompleted :=
      !rst && decide (m.nextState i = .idle ∧ m.atFinal i ∧ m.targetAddress ≠ 0)
    startDdrWrRd := !rst && decide (m.nextState i = .active ∨ m.nextState i = .wait)
    startTrafficGeneratorQ := !rst && i.startTrafficGenerator
    targetAddress :=
      if rst = true then 0
      else if m.startDdrWrRd = false then i.memAddr.setWidth 25
      else if i.pass = true ∨ i.fail = true then m.targetAddress + 1
      else m.targetAddress
    targetData :=
      if i.pass = true ∨ m.starts i then dataOf (m.rndmData i) else m.targetData
    lfsr := m.lfsr.step (i.clrIoReg || i.prLogicRst) i.loadSeed i.seed }

/-- The registers that a reset sets; `target_data` is not one of them. -/
def IsReset (m : TrafficGenerator) : Prop :=
  m.currState = .idle ∧ m.ddrAccessCompleted = false ∧ m.startDdrWrRd = false ∧
    m.startTrafficGeneratorQ = false ∧ m.targetAddress = 0 ∧ m.lfsr = .reset

end TrafficGenerator

/-! ## `perf_cntr` -/

def perfCntrStep (performanceCntr : BitVec 32) (prLogicRst clrIoReg pass : Bool) : BitVec 32 :=
  if prLogicRst = true then 0
  else if clrIoReg = true then 0
  else if pass = true then performanceCntr + 1
  else performanceCntr

/-! ## `ddr4_access_top` -/

/-- What comes in from the host's registers and from the memory. -/
structure PersonaIn where
  prLogicRst : Bool
  hostCntrlRegister : BitVec 32
  hostPr : Nat → BitVec 32
  emifAvmmWaitrequest : Bool
  emifAvmmReaddata : Word
  emifAvmmReaddatavalid : Bool

structure Persona where
  controller : Controller
  memAccess : MemAccess
  trafficGenerator : TrafficGenerator
  ddrWrRd : WrRd
  performanceCntr : BitVec 32
  deriving DecidableEq, Repr

namespace Persona

def controllerIn (p : Persona) (i : PersonaIn) : ControllerIn where
  prLogicRst := i.prLogicRst
  hostCntrlRegister := i.hostCntrlRegister
  hostPr := i.hostPr
  ddrAccessCompleted := p.trafficGenerator.ddrAccessCompleted
  clearStartOperation := p.memAccess.clearStartOperation

def memAccessIn (p : Persona) (i : PersonaIn) : MemAccessIn where
  prLogicRst := i.prLogicRst
  clrIoReg := p.controller.clrIoReg
  startOperation := p.controller.startOperation
  ddrAccessCompleted := p.trafficGenerator.ddrAccessCompleted

def trafficIn (p : Persona) (i : PersonaIn) : TrafficIn where
  prLogicRst := i.prLogicRst
  clrIoReg := p.controller.clrIoReg
  startTrafficGenerator := p.memAccess.startTrafficGenerator
  memAddr := p.controller.memAddr
  seed := p.controller.seed
  loadSeed := p.controller.loadSeed
  pass := p.ddrWrRd.pass
  fail := p.ddrWrRd.fail
  finalAddr := p.controller.finalAddress

def wrRdIn (p : Persona) (i : PersonaIn) : WrRdIn where
  prLogicRst := i.prLogicRst
  clrIoReg := p.controller.clrIoReg
  startDdrWrRd := p.trafficGenerator.startDdrWrRd
  targetAddress := p.trafficGenerator.targetAddress
  targetData := p.trafficGenerator.targetData
  emifAvmmWaitrequest := i.emifAvmmWaitrequest
  emifAvmmReaddata := i.emifAvmmReaddata
  emifAvmmReaddatavalid := i.emifAvmmReaddatavalid

def step (p : Persona) (i : PersonaIn) : Persona where
  controller := p.controller.step (p.controllerIn i)
  memAccess := p.memAccess.step (p.memAccessIn i)
  trafficGenerator := p.trafficGenerator.step (p.trafficIn i)
  ddrWrRd := p.ddrWrRd.step (p.wrRdIn i)
  performanceCntr :=
    perfCntrStep p.performanceCntr i.prLogicRst p.controller.clrIoReg p.ddrWrRd.pass

/-- What the host reads in `pr_host[0]` and `pr_host[1]`. -/
def prHost (p : Persona) : BitVec 32 × Bool := (p.performanceCntr, p.memAccess.busyReg)

/-- The persona while it is held in reset. -/
structure IsReset (p : Persona) : Prop where
  controller : p.controller = .reset
  memAccess : p.memAccess = .reset
  trafficGenerator : p.trafficGenerator.IsReset
  ddrWrRd : p.ddrWrRd.IsReset
  performanceCntr : p.performanceCntr = 0

/-- The host sets the start bit, which was clear in the cycle before. -/
def StartEdge (p : Persona) (i : PersonaIn) : Prop :=
  p.controller.startD = false ∧ i.hostCntrlRegister.getLsbD 2 = true


/-- A cycle without reset and clear. -/
def Runs (p : Persona) (i : PersonaIn) : Prop :=
  i.prLogicRst = false ∧ p.controller.clrIoReg = false

theorem Runs.wrRdIn {p : Persona} {i : PersonaIn} (h : p.Runs i) : (p.wrRdIn i).Runs := h

/-- A host that leaves the clear bit alone never clears. -/
theorem runs_of_no_clear {p : Persona} {inp : Nat → PersonaIn}
    (hclr : p.controller.clrIoReg = false)
    (hinp : ∀ t, (inp t).prLogicRst = false ∧ (inp t).hostCntrlRegister.getLsbD 0 = false)
    (t : Nat) : (cycles step p inp t).Runs (inp t) := by
  refine ⟨(hinp t).1, ?_⟩
  cases t with
  | zero => exact hclr
  | succ t =>
    rw [cycles_succ]
    exact Controller.step_no_clear (hinp t).2

/-! ## One cycle without reset and clear -/

section
variable {p : Persona} {i : PersonaIn}

theorem step_controller (h : p.Runs i) :
    (p.step i).controller =
      { startOperation :=
          if p.controller.startPulse = true then true
          else if p.memAccess.clearStartOperation = true ∨
              p.trafficGenerator.ddrAccessCompleted = true then false
          else p.controller.startOperation
        startPulse := !p.controller.startD && i.hostCntrlRegister.getLsbD 2
        startD := i.hostCntrlRegister.getLsbD 2
        memAddr := i.hostPr 0
        finalAddressQ0 := i.hostPr 0 + i.hostPr 2
        finalAddressQ1 := p.controller.finalAddressQ0
        finalAddress := p.controller.finalAddressQ1
        seed := i.hostPr 1
        loadSeed := i.hostCntrlRegister.getLsbD 1
        clrIoReg := !p.controller.clrIoRegD && i.hostCntrlRegister.getLsbD 0
        clrIoRegD := i.hostCntrlRegister.getLsbD 0 } := by
  have hrst : ¬ (p.controllerIn i).prLogicRst = true := by
    rw [show (p.controllerIn i).prLogicRst = false from h.1]
    decide
  exact if_neg hrst

theorem step_memAccess (h : p.Runs i) :
    (p.step i).memAccess =
      match p.memAccess.nextState (p.memAccessIn i) with
      | .idle => ⟨.idle, false, true, false⟩
      | .ddrAccess =>
        ⟨.ddrAccess, true, p.trafficGenerator.ddrAccessCompleted,
          !p.trafficGenerator.ddrAccessCompleted⟩
      | .undefined => ⟨.undefined, false, false, false⟩ := by
  have hrst : ¬ ((p.memAccessIn i).prLogicRst = true ∨ (p.memAccessIn i).clrIoReg = true) := by
    rw [show (p.memAccessIn i).prLogicRst = false from h.1,
      show (p.memAccessIn i).clrIoReg = false from h.2]
    decide
  exact if_neg hrst

/-- `mem_access` stays idle without a start operation, or while the sweep is at its end. -/
theorem memAccess_stays_idle (h : p.Runs i) (hidle : p.memAccess.currState = .idle)
    (hno : p.controller.startOperation = false ∨
      p.trafficGenerator.ddrAccessCompleted = true) :
    (p.step i).memAccess = ⟨.idle, false, true, false⟩ := by
  have hnext : p.memAccess.nextState (p.memAccessIn i) = .idle := by
    unfold MemAccess.nextState
    rw [hidle]
    refine if_neg ?_
    intro hparts
    obtain ⟨hop, hcompleted⟩ := hparts
    rcases hno with hno | hno
    · exact absurd (hop.symm.trans hno) (by decide)
    · exact absurd (hcompleted.symm.trans hno) (by decide)
  rw [step_memAccess h, hnext]

theorem memAccess_starts (h : p.Runs i) (hidle : p.memAccess.currState = .idle)
    (hop : p.controller.startOperation = true)
    (hcompleted : p.trafficGenerator.ddrAccessCompleted = false) :
    (p.step i).memAccess = ⟨.ddrAccess, true, false, true⟩ := by
  have hnext : p.memAccess.nextState (p.memAccessIn i) = .ddrAccess := by
    unfold MemAccess.nextState
    rw [hidle]
    exact if_pos ⟨hop, hcompleted⟩
  rw [step_memAccess h, hnext, hcompleted]
  rfl

theorem memAccess_goes_on (h : p.Runs i) (haccess : p.memAccess.currState = .ddrAccess)
    (hcompleted : p.trafficGenerator.ddrAccessCompleted = false) :
    (p.step i).memAccess = ⟨.ddrAccess, true, false, true⟩ := by
  have hnext : p.memAccess.nextState (p.memAccessIn i) = .ddrAccess := by
    unfold MemAccess.nextState
    rw [haccess]
    exact if_pos hcompleted
  rw [step_memAccess h, hnext, hcompleted]
  rfl

theorem memAccess_ends (h : p.Runs i) (haccess : p.memAccess.currState = .ddrAccess)
    (hcompleted : p.trafficGenerator.ddrAccessCompleted = true) :
    (p.step i).memAccess = ⟨.idle, false, true, false⟩ := by
  have hnext : p.memAccess.nextState (p.memAccessIn i) = .idle := by
    unfold MemAccess.nextState
    rw [haccess]
    refine if_neg ?_
    rw [show (p.memAccessIn i).ddrAccessCompleted = true from hcompleted]
    decide
  rw [step_memAccess h, hnext]

/-- The next state of the traffic generator. -/
def trafficNext (p : Persona) (i : PersonaIn) : TrafficState :=
  p.trafficGenerator.nextState (p.trafficIn i)

theorem step_performanceCntr (h : p.Runs i) :
    (p.step i).performanceCntr =
      if p.ddrWrRd.pass = true then p.performanceCntr + 1 else p.performanceCntr := by
  show perfCntrStep _ _ _ _ = _
  unfold perfCntrStep
  rw [h.1, h.2, if_neg (by decide), if_neg (by decide)]

theorem step_trafficGenerator (h : p.Runs i) :
    (p.step i).trafficGenerator.currState = p.trafficNext i ∧
    (p.step i).trafficGenerator.ddrAccessCompleted =
      decide (p.trafficNext i = .idle ∧ p.trafficGenerator.atFinal (p.trafficIn i) ∧
        p.trafficGenerator.targetAddress ≠ 0) ∧
    (p.step i).trafficGenerator.startDdrWrRd =
      decide (p.trafficNext i = .active ∨ p.trafficNext i = .wait) ∧
    (p.step i).trafficGenerator.targetAddress =
      if p.trafficGenerator.startDdrWrRd = false then p.controller.memAddr.setWidth 25
      else if p.ddrWrRd.done = true then p.trafficGenerator.targetAddress + 1
      else p.trafficGenerator.targetAddress := by
  have hrst : ((p.trafficIn i).prLogicRst || (p.trafficIn i).clrIoReg) = false := by
    rw [show (p.trafficIn i).prLogicRst = false from h.1,
      show (p.trafficIn i).clrIoReg = false from h.2]
    rfl
  have hdone : p.ddrWrRd.done = true ↔
      ((p.trafficIn i).pass = true ∨ (p.trafficIn i).fail = true) := Bool.or_eq_true_iff
  simp only [step, TrafficGenerator.step, hrst, hdone]
  refine ⟨rfl, rfl, rfl, rfl⟩

end

end Persona

/-- The persona out of reset, with zeros in its data registers. -/
def resetPersona : Persona where
  controller := .reset
  memAccess := .reset
  trafficGenerator := ⟨.idle, false, false, false, 0, 0, .reset⟩
  ddrWrRd := ⟨.none, .idle, 0, 0, 0⟩
  performanceCntr := 0

theorem isReset_resetPersona : resetPersona.IsReset :=
  ⟨rfl, rfl, ⟨rfl, rfl, rfl, rfl, rfl, rfl⟩, ⟨rfl, rfl⟩, rfl⟩

end FpgaPartialReconfig.Ddr4
