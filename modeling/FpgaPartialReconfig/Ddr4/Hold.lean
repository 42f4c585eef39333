/-
  The Avalon-MM hold rule of the DDR4 persona.

  A master that meets `waitrequest` keeps its command, address and write data as they are.
  The engine keeps command and address: they change only when it leaves the state. But
  `emif_avmm_writedata` follows `target_data` in every cycle, and the traffic generator
  reloads `target_data` on every new start, also while the last write of the sweep before
  still waits. `hold_rule_iff`: the rule holds in a run exactly if no start brings other data
  just before a cycle in which a write is stalled.
-/
import FpgaPartialReconfig.Ddr4.Persona
import FpgaPartialReconfig.Lib.Clock

namespace FpgaPartialReconfig.Ddr4

open Clock

/-- The hold rule, from a cycle to the next. -/
def HoldRule (p : Persona) (i : PersonaIn) (p' : Persona) : Prop :=
  i.emifAvmmWaitrequest = true →
    (p.ddrWrRd.emifAvmmWrite = true →
      p'.ddrWrRd.emifAvmmWrite = true ∧
      p'.ddrWrRd.emifAvmmAddress = p.ddrWrRd.emifAvmmAddress ∧
      p'.ddrWrRd.emifAvmmWritedata = p.ddrWrRd.emifAvmmWritedata) ∧
    (p.ddrWrRd.emifAvmmRead = true →
      p'.ddrWrRd.emifAvmmRead = true ∧
      p'.ddrWrRd.emifAvmmAddress = p.ddrWrRd.emifAvmmAddress)

/-- The engine is about to assert its write, or to keep it asserted. -/
def AboutToWrite (p : Persona) (i : PersonaIn) : Prop :=
  p.ddrWrRd.nextState (p.wrRdIn i) = .write ∨
    p.ddrWrRd.nextState (p.wrRdIn i) = .waitWriteDone ∧ i.emifAvmmWaitrequest = true

/-- A start loads other data into `target_data`, and in the next cycle a write is stalled. -/
structure ReloadsStalled (p : Persona) (i next : PersonaIn) : Prop where
  starts : p.trafficGenerator.starts (p.trafficIn i)
  other : dataOf (p.trafficGenerator.rndmData (p.trafficIn i)) ≠ p.trafficGenerator.targetData
  write : AboutToWrite p i
  stalled : next.emifAvmmWaitrequest = true

/-! ## Command and address -/

/-- A stalled write keeps everything but its data, which is `target_data` again. -/
theorem step_stalled_write {m : WrRd} {i : WrRdIn} (h : m.Wf) (hi : i.Runs)
    (hwrite : m.emifAvmmWrite = true) (hwait : i.emifAvmmWaitrequest = true) :
    (m.step i).emifAvmmWrite = true ∧ (m.step i).emifAvmmAddress = m.emifAvmmAddress ∧
      (m.step i).emifAvmmWritedata = i.targetData := by
  rcases h.write hwrite with hstate | hstate
  · rw [WrRd.step_write hi hstate, hwait]
    exact ⟨rfl, rfl, rfl⟩
  · rw [WrRd.step_waitWriteDone hi hstate, if_pos hwait, if_pos hwait]
    exact ⟨rfl, rfl, rfl⟩

theorem step_stalled_read {m : WrRd} {i : WrRdIn} (h : m.Wf) (hi : i.Runs)
    (hread : m.emifAvmmRead = true) (hwait : i.emifAvmmWaitrequest = true) :
    (m.step i).emifAvmmRead = true ∧ (m.step i).emifAvmmAddress = m.emifAvmmAddress := by
  rcases h.read hread with hstate | hstate
  · rw [WrRd.step_read hi hstate, hwait]
    exact ⟨rfl, rfl⟩
  · rw [WrRd.step_waitReadAccepted hi hstate, if_pos hwait, hwait]
    exact ⟨rfl, rfl⟩

theorem step_emifAvmmWrite {m : WrRd} {i : WrRdIn} (hi : i.Runs) :
    (m.step i).emifAvmmWrite = true ↔
      m.nextState i = .write ∨
        m.nextState i = .waitWriteDone ∧ i.emifAvmmWaitrequest = true := by
  rw [WrRd.step_runs hi]
  show (m.nextStrobes i).emifAvmmWrite = true ↔ _
  unfold WrRd.nextStrobes
  cases hnext : m.nextState i <;> simp [Strobes.none]
  split
  · split <;> rfl
  · rfl

/-! ## Data -/

/-- While a write is about to be asserted, only a start changes `target_data`. -/
theorem targetData_step {p : Persona} {i : PersonaIn} (h : p.ddrWrRd.Wf)
    (hwrite : AboutToWrite p i) :
    (p.step i).trafficGenerator.targetData =
      if p.trafficGenerator.starts (p.trafficIn i) then
        dataOf (p.trafficGenerator.rndmData (p.trafficIn i))
      else p.trafficGenerator.targetData := by
  have hpass : p.ddrWrRd.pass = false := by
    cases hpass : p.ddrWrRd.pass with
    | false => rfl
    | true =>
      -- the verdict is out in `DATA_VERIFICATION`, from which the engine goes to `IDLE`
      have hdone : p.ddrWrRd.done = true := by
        unfold WrRd.done
        rw [hpass, Bool.true_or]
      have hstate := h.done.mp hdone
      have hnext : p.ddrWrRd.nextState (p.wrRdIn i) = .idle := by
        unfold WrRd.nextState
        rw [hstate]
        exact if_pos hdone
      unfold AboutToWrite at hwrite
      rw [hnext] at hwrite
      simp at hwrite
  have hnopass : (p.trafficIn i).pass = false := hpass
  simp only [Persona.step, TrafficGenerator.step, hnopass, Bool.false_eq_true, false_or]

/-- From one cycle to the next but one: the rule fails only for a reload. -/
theorem holdRule_step {p : Persona} {i next : PersonaIn} (h : p.ddrWrRd.Wf) (hi : p.Runs i)
    (hnext : (p.step i).Runs next) :
    HoldRule (p.step i) next ((p.step i).step next) ↔ ¬ ReloadsStalled p i next := by
  have hwf : (p.step i).ddrWrRd.Wf := h.step _
  have hdata : (p.step i).ddrWrRd.emifAvmmWritedata = p.trafficGenerator.targetData := rfl
  have hwrite : (p.step i).ddrWrRd.emifAvmmWrite = true ↔ AboutToWrite p i :=
    step_emifAvmmWrite hi.wrRdIn
  constructor
  · intro hhold hreload
    obtain ⟨-, -, hsame⟩ := (hhold hreload.stalled).1 (hwrite.mpr hreload.write)
    have hnew : ((p.step i).step next).ddrWrRd.emifAvmmWritedata =
        (p.step i).trafficGenerator.targetData := rfl
    rw [hnew, hdata, targetData_step h hreload.write, if_pos hreload.starts] at hsame
    exact hreload.other hsame
  · intro hno hstalled
    constructor
    · intro hasserted
      have habout := hwrite.mp hasserted
      obtain ⟨hcommand, haddress, hnew⟩ :=
        step_stalled_write hwf hnext.wrRdIn hasserted hstalled
      refine ⟨hcommand, haddress, hnew.trans ?_⟩
      show (p.step i).trafficGenerator.targetData = _
      rw [hdata, targetData_step h habout]
      by_cases hstarts : p.trafficGenerator.starts (p.trafficIn i)
      · rw [if_pos hstarts]
        by_contra hother
        exact hno ⟨hstarts, hother, habout, hstalled⟩
      · rw [if_neg hstarts]
    · intro hasserted
      exact step_stalled_read hwf hnext.wrRdIn hasserted hstalled

/-! ## Runs -/

/-- In a run without reset and clear, the hold rule holds all along exactly if no start loads
    other data just before a cycle in which a write is stalled. -/
theorem hold_rule_iff (p : Persona) (inp : Nat → PersonaIn) (hreset : p.IsReset)
    (hruns : ∀ t, (cycles Persona.step p inp t).Runs (inp t)) :
    (∀ t, HoldRule (cycles Persona.step p inp t) (inp t)
        (cycles Persona.step p inp (t + 1))) ↔
      ∀ t, ¬ ReloadsStalled (cycles Persona.step p inp t) (inp t) (inp (t + 1)) := by
  have hwf : ∀ t, (cycles Persona.step p inp t).ddrWrRd.Wf :=
    cycles_inv (J := fun p => p.ddrWrRd.Wf) Persona.step p inp
      (fun p i h => h.step (p.wrRdIn i)) hreset.ddrWrRd.wf
  have hstep : ∀ t, HoldRule (cycles Persona.step p inp (t + 1)) (inp (t + 1))
      (cycles Persona.step p inp (t + 2)) ↔
        ¬ ReloadsStalled (cycles Persona.step p inp t) (inp t) (inp (t + 1)) := by
    intro t
    exact holdRule_step (hwf t) (hruns t) (hruns (t + 1))
  constructor
  · intro hhold t
    exact (hstep t).mp (hhold (t + 1))
  · intro hno t
    cases t with
    | zero =>
      -- out of reset nothing is asserted
      intro _
      have hstrobes : p.ddrWrRd.toStrobes = .none := hreset.ddrWrRd.2
      rw [cycles_zero, hstrobes]
      exact ⟨nofun, nofun⟩
    | succ t => exact (hstep t).mpr (hno t)

/-! ## A start while the last write waits -/

/-- The host starts sweeps of the addresses 0 and 1 in the cycles 4 and 20. The memory takes
    the first write at once, returns its data in cycle 13, and is busy from the second write
    in cycle 16 up to cycle 24; `busy_reg` is low from cycle 17 on. -/
def overlappingSweeps (t : Nat) : PersonaIn where
  prLogicRst := false
  hostCntrlRegister := if t = 4 ∨ t = 20 then 4#32 else 0#32
  hostPr k := if k = 2 then 1#32 else 0#32
  emifAvmmWaitrequest := decide (16 ≤ t ∧ t ≤ 24)
  emifAvmmReaddata := 0
  emifAvmmReaddatavalid := t == 13

theorem runs_overlappingSweeps (t : Nat) :
    (cycles Persona.step resetPersona overlappingSweeps t).Runs (overlappingSweeps t) := by
  refine Persona.runs_of_no_clear rfl (fun t => ⟨rfl, ?_⟩) t
  show (if t = 4 ∨ t = 20 then 4#32 else 0#32).getLsbD 0 = false
  split <;> rfl

theorem hold_rule_iff_overlapping :
    (∀ t, HoldRule (cycles Persona.step resetPersona overlappingSweeps t) (overlappingSweeps t)
        (cycles Persona.step resetPersona overlappingSweeps (t + 1))) ↔
      ∀ t, ¬ ReloadsStalled (cycles Persona.step resetPersona overlappingSweeps t)
        (overlappingSweeps t) (overlappingSweeps (t + 1)) :=
  hold_rule_iff resetPersona overlappingSweeps isReset_resetPersona runs_overlappingSweeps

/-- The second start changes the data of the write that the memory has not taken yet. -/
theorem hold_rule_broken :
    ¬ HoldRule (cycles Persona.step resetPersona overlappingSweeps 24) (overlappingSweeps 24)
      (cycles Persona.step resetPersona overlappingSweeps 25) := by
  intro hhold
  have hasserted :
      (cycles Persona.step resetPersona overlappingSweeps 24).ddrWrRd.emifAvmmWrite = true := by
    decide +kernel
  obtain ⟨-, -, hsame⟩ := (hhold rfl).1 hasserted
  exact absurd hsame (by decide +kernel)

end FpgaPartialReconfig.Ddr4
