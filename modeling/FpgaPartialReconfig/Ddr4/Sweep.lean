/-
  A sweep of the DDR4 persona, cycle by cycle.

  A run is marked where the engine enters its WRITE state (`Mark.launched`) and where it
  reports (`Mark.reported`). A `SweepRun` is a run in which the persona is at rest, the
  host's registers hold base and offset, and the start bit is set once, in cycle `s`.

  The persona goes through three kinds of states: at rest (`AtRest`), with the start pulse or
  the start operation possibly on its way; sweeping at an address (`Sweeping`), with the
  traffic generator in ACTIVE or WAIT; and the one cycle in which the end of the sweep has
  reached `mem_access` but not yet its outputs (`Ending`). The lemmas say what a cycle makes
  of each, with the engine free to take any time.
-/
import FpgaPartialReconfig.Ddr4.Persona

namespace FpgaPartialReconfig.Ddr4

open Clock

/-! ## What is observed -/

inductive Mark where
  | launched (address : Address)
  | reported (address : Address)
  deriving DecidableEq, Repr

/-- The engine enters WRITE. -/
def Persona.launches (p : Persona) (i : PersonaIn) : Prop :=
  p.ddrWrRd.nextState (p.wrRdIn i) = .write

instance (p : Persona) (i : PersonaIn) : Decidable (p.launches i) :=
  inferInstanceAs (Decidable (_ = _))

def Persona.marks (p : Persona) (i : PersonaIn) : List Mark :=
  (if p.ddrWrRd.done = true then [.reported p.ddrWrRd.referenceAddr] else []) ++
  (if p.launches i then [.launched p.trafficGenerator.targetAddress] else [])

def Mark.launch : Mark → Option Address
  | .launched address => some address
  | .reported _ => none

def Mark.report : Mark → Option Address
  | .launched _ => none
  | .reported address => some address

/-- The addresses with which WRITE is entered. -/
def launched (ms : List Mark) : List Address := ms.filterMap Mark.launch

/-- The addresses of the operations that have reported, from the first launch on: a report
    before it is that of an operation of an earlier sweep. -/
def reported (ms : List Mark) : List Address :=
  (ms.dropWhile fun m => m.launch.isNone).filterMap Mark.report

/-- `b, b + 1, …, b + f`. -/
def addresses (b f : BitVec 32) : List Address :=
  (List.range (f.toNat + 1)).map fun k => BitVec.ofNat 25 (b.toNat + k)

/-- `k` addresses from `a` on. -/
def addressesFrom (a : Address) (k : Nat) : List Address :=
  (List.range k).map fun j => a + BitVec.ofNat 25 j

/-- `k` operations from `a` on. -/
def operationsFrom (a : Address) (k : Nat) : List Mark :=
  (List.range k).flatMap fun j =>
    [.launched (a + BitVec.ofNat 25 j), .reported (a + BitVec.ofNat 25 j)]

theorem addressesFrom_succ (a : Address) (k : Nat) :
    addressesFrom a (k + 1) = addressesFrom a k ++ [a + BitVec.ofNat 25 k] := by
  unfold addressesFrom
  rw [List.range_succ, List.map_append]
  rfl

theorem addressesFrom_length (a : Address) (k : Nat) : (addressesFrom a k).length = k := by
  simp [addressesFrom]

theorem addressesFrom_head (a : Address) (k : Nat) :
    (addressesFrom a (k + 1)).head? = some a := by
  unfold addressesFrom
  rw [List.range_succ_eq_map, List.map_cons, List.head?_cons]
  exact congrArg some (BitVec.add_zero a)

theorem addressesFrom_prefix (a : Address) {k n : Nat} (h : k ≤ n) :
    addressesFrom a k <+: addressesFrom a n := by
  obtain ⟨d, rfl⟩ := Nat.le.dest h
  induction d with
  | zero => exact List.prefix_refl _
  | succ d ih =>
    rw [← Nat.add_assoc, addressesFrom_succ]
    exact (ih (by omega)).trans (List.prefix_append _ _)

theorem operationsFrom_succ (a : Address) (k : Nat) :
    operationsFrom a (k + 1) = operationsFrom a k ++
      [.launched (a + BitVec.ofNat 25 k), .reported (a + BitVec.ofNat 25 k)] := by
  unfold operationsFrom
  rw [List.range_succ, List.flatMap_append, List.flatMap_singleton]

theorem launched_append (ms ms' : List Mark) :
    launched (ms ++ ms') = launched ms ++ launched ms' :=
  List.filterMap_append

/-- Reports of earlier operations do not count. -/
theorem reported_append_of_not_launched {ms : List Mark} (ms' : List Mark)
    (h : launched ms = []) : reported (ms ++ ms') = reported ms' := by
  unfold reported
  induction ms with
  | nil => rfl
  | cons m ms ih =>
    cases m with
    | launched address => simp [launched, Mark.launch] at h
    | reported address =>
      rw [List.cons_append, List.dropWhile_cons_of_pos rfl]
      exact ih (by simpa [launched, Mark.launch] using h)

theorem launched_operationsFrom (a : Address) (k : Nat) :
    launched (operationsFrom a k) = addressesFrom a k := by
  induction k with
  | zero => rfl
  | succ k ih =>
    rw [operationsFrom_succ, launched_append, ih, addressesFrom_succ]
    rfl

/-- The operation under way has not reported. -/
theorem reported_operationsFrom (a : Address) (k : Nat) :
    reported (operationsFrom a k ++ [.launched (a + BitVec.ofNat 25 k)]) =
      addressesFrom a k := by
  have hfirst : ∀ k, ∃ ms,
      operationsFrom a k ++ [.launched (a + BitVec.ofNat 25 k)] =
        Mark.launched (a + BitVec.ofNat 25 0) :: ms := by
    intro k
    induction k with
    | zero => exact ⟨[], rfl⟩
    | succ k ih =>
      obtain ⟨ms, hms⟩ := ih
      refine ⟨ms ++ [.reported (a + BitVec.ofNat 25 k),
        .launched (a + BitVec.ofNat 25 (k + 1))], ?_⟩
      rw [← List.cons_append, ← hms, operationsFrom_succ]
      simp
  have hreports : (operationsFrom a k).filterMap Mark.report = addressesFrom a k := by
    induction k with
    | zero => rfl
    | succ k ih =>
      rw [operationsFrom_succ, List.filterMap_append, ih, addressesFrom_succ]
      rfl
  obtain ⟨ms, hms⟩ := hfirst k
  have hkeep : ((Mark.launched (a + BitVec.ofNat 25 0) :: ms).dropWhile
      fun m => m.launch.isNone) = Mark.launched (a + BitVec.ofNat 25 0) :: ms :=
    List.dropWhile_cons_of_neg (by simp [Mark.launch])
  unfold reported
  rw [hms, hkeep, ← hms, List.filterMap_append, hreports]
  exact List.append_nil _

/-! ## At rest -/

/-- Traffic generator and `mem_access` do nothing; the engine may be busy with an operation
    of an earlier sweep. -/
structure AtRest (pulse operation : Bool) (p : Persona) : Prop where
  startPulse : p.controller.startPulse = pulse
  startOperation : p.controller.startOperation = operation
  memAccess : p.memAccess.currState = .idle
  startTrafficGenerator : p.memAccess.startTrafficGenerator = false
  busyReg : p.memAccess.busyReg = false
  traffic : p.trafficGenerator.currState = .idle
  startDdrWrRd : p.trafficGenerator.startDdrWrRd = false
  engine : p.ddrWrRd.Wf

section
variable {p : Persona} {i : PersonaIn} {pulse operation : Bool}

theorem launches_iff (p : Persona) (i : PersonaIn) :
    p.launches i ↔ p.ddrWrRd.currState = .idle ∧ p.trafficGenerator.startDdrWrRd = true :=
  WrRd.nextState_eq_write _ _

theorem launched_marks_of_not {p : Persona} {i : PersonaIn} (h : ¬ p.launches i) :
    launched (p.marks i) = [] := by
  unfold Persona.marks
  rw [if_neg h, List.append_nil]
  split <;> rfl

theorem AtRest.not_launches (h : AtRest pulse operation p) : ¬ p.launches i := by
  intro hlaunch
  exact absurd (h.startDdrWrRd.symm.trans ((launches_iff p i).mp hlaunch).2) (by decide)

/-- Without `start_traffic_generator` the traffic generator does nothing. -/
theorem AtRest.trafficNext_idle (h : AtRest pulse operation p) : p.trafficNext i = .idle := by
  have hstg : (p.trafficIn i).startTrafficGenerator = false := h.startTrafficGenerator
  unfold Persona.trafficNext TrafficGenerator.nextState
  rw [h.traffic]
  simp [hstg]

theorem AtRest.traffic_step (h : AtRest pulse operation p) (hi : p.Runs i) :
    (p.step i).trafficGenerator.currState = .idle := by
  rw [(Persona.step_trafficGenerator hi).1, h.trafficNext_idle]

theorem AtRest.startDdrWrRd_step (h : AtRest pulse operation p) (hi : p.Runs i) :
    (p.step i).trafficGenerator.startDdrWrRd = false := by
  rw [(Persona.step_trafficGenerator hi).2.2.1, h.trafficNext_idle]
  decide

/-- The persona stays at rest unless `mem_access` takes the start operation. -/
theorem AtRest.step (h : AtRest pulse operation p) (hi : p.Runs i)
    (hno : operation = false ∨ p.trafficGenerator.ddrAccessCompleted = true) :
    AtRest (p.step i).controller.startPulse (p.step i).controller.startOperation (p.step i) ∧
      (p.step i).memAccess.clearStartOperation = true := by
  have hmem : (p.step i).memAccess = ⟨.idle, false, true, false⟩ := by
    refine Persona.memAccess_stays_idle hi h.memAccess ?_
    rw [h.startOperation]
    exact hno
  refine ⟨⟨rfl, rfl, ?_, ?_, ?_, h.traffic_step hi, h.startDdrWrRd_step hi, h.engine.step _⟩,
    ?_⟩ <;> rw [hmem]

theorem startPulse_step (hi : p.Runs i) :
    (p.step i).controller.startPulse = true ↔ p.StartEdge i := by
  rw [Persona.step_controller hi]
  unfold Persona.StartEdge
  simp

theorem startPulse_step_of_not (hi : p.Runs i) (hedge : ¬ p.StartEdge i) :
    (p.step i).controller.startPulse = false := by
  rw [← Bool.not_eq_true, startPulse_step hi]
  exact hedge

/-- Without a start edge the persona stays as it is. -/
theorem AtRest.quiet_step (h : AtRest false false p) (hi : p.Runs i)
    (hedge : ¬ p.StartEdge i) : AtRest false false (p.step i) := by
  have hnext := (h.step hi (.inl rfl)).1
  have hoperation : (p.step i).controller.startOperation = false := by
    rw [Persona.step_controller hi]
    simp [h.startPulse, h.startOperation]
  rwa [startPulse_step_of_not hi hedge, hoperation] at hnext

/-- A start edge becomes a pulse, -/
theorem AtRest.edge_step (h : AtRest false false p) (hi : p.Runs i)
    (hedge : p.StartEdge i) :
    AtRest true false (p.step i) ∧ (p.step i).memAccess.clearStartOperation = true := by
  obtain ⟨hnext, hclear⟩ := h.step hi (.inl rfl)
  have hoperation : (p.step i).controller.startOperation = false := by
    rw [Persona.step_controller hi]
    simp [h.startPulse, h.startOperation]
  rw [(startPulse_step hi).mpr hedge, hoperation] at hnext
  exact ⟨hnext, hclear⟩

/-- and the pulse a start operation, -/
theorem AtRest.pulse_step (h : AtRest true false p) (hi : p.Runs i)
    (hedge : ¬ p.StartEdge i) :
    AtRest false true (p.step i) ∧ (p.step i).memAccess.clearStartOperation = true := by
  obtain ⟨hnext, hclear⟩ := h.step hi (.inl rfl)
  have hoperation : (p.step i).controller.startOperation = true := by
    rw [Persona.step_controller hi]
    simp [h.startPulse]
  rw [startPulse_step_of_not hi hedge, hoperation] at hnext
  exact ⟨hnext, hclear⟩

/-- which comes to nothing while `ddr_access_completed` is high. -/
theorem AtRest.refused_step (h : AtRest false true p) (hi : p.Runs i)
    (hedge : ¬ p.StartEdge i) (hcompleted : p.trafficGenerator.ddrAccessCompleted = true) :
    AtRest false false (p.step i) := by
  have hnext := (h.step hi (.inr hcompleted)).1
  have hoperation : (p.step i).controller.startOperation = false := by
    rw [Persona.step_controller hi]
    simp [h.startPulse, hcompleted]
  rwa [startPulse_step_of_not hi hedge, hoperation] at hnext

end

/-! ## Sweeping -/

/-- Base and final address have come through the controller's registers. -/
structure Loaded (b f : BitVec 32) (p : Persona) : Prop where
  memAddr : p.controller.memAddr = b
  finalAddressQ0 : p.controller.finalAddressQ0 = b + f
  finalAddressQ1 : p.controller.finalAddressQ1 = b + f
  finalAddress : p.controller.finalAddress = b + f

/-- The host's registers in a cycle. -/
structure Holds (b f : BitVec 32) (i : PersonaIn) : Prop where
  base : i.hostPr 0 = b
  offset : i.hostPr 2 = f

def finalOf (b f : BitVec 32) : Address := (b + f).setWidth 25

/-- The sweep is on, with the traffic generator in `state` at address `a`. -/
structure Sweeping (b f : BitVec 32) (state : TrafficState) (a : Address) (p : Persona) :
    Prop where
  loaded : Loaded b f p
  startPulse : p.controller.startPulse = false
  startOperation : p.controller.startOperation = false
  memAccess : p.memAccess = ⟨.ddrAccess, true, false, true⟩
  traffic : p.trafficGenerator.currState = state
  ddrAccessCompleted : p.trafficGenerator.ddrAccessCompleted = false
  startDdrWrRd : p.trafficGenerator.startDdrWrRd = true
  targetAddress : p.trafficGenerator.targetAddress = a
  engine : p.ddrWrRd.Wf

/-- `mem_access` asks for a sweep, and the traffic generator, still in IDLE, will begin one. -/
structure Armed (b f : BitVec 32) (p : Persona) : Prop where
  loaded : Loaded b f p
  startPulse : p.controller.startPulse = false
  startOperation : p.controller.startOperation = false
  memAccess : p.memAccess = ⟨.ddrAccess, true, false, true⟩
  traffic : p.trafficGenerator.currState = .idle
  ddrAccessCompleted : p.trafficGenerator.ddrAccessCompleted = false
  startDdrWrRd : p.trafficGenerator.startDdrWrRd = false
  begins : p.trafficGenerator.targetAddress = finalOf b f →
    p.trafficGenerator.targetAddress = 0
  engine : p.ddrWrRd.Wf

/-- The last address is launched, and `mem_access` is about to go idle. -/
structure Ending (b f : BitVec 32) (p : Persona) : Prop where
  loaded : Loaded b f p
  startPulse : p.controller.startPulse = false
  startOperation : p.controller.startOperation = false
  memAccess : p.memAccess = ⟨.ddrAccess, true, false, true⟩
  traffic : p.trafficGenerator.currState = .idle
  ddrAccessCompleted : p.trafficGenerator.ddrAccessCompleted = true
  startDdrWrRd : p.trafficGenerator.startDdrWrRd = false
  targetAddress : p.trafficGenerator.targetAddress = finalOf b f
  engine : p.ddrWrRd.Wf

section
variable {p : Persona} {i : PersonaIn} {b f : BitVec 32} {a : Address}

theorem Loaded.step (h : Loaded b f p) (hi : p.Runs i) (hin : Holds b f i) :
    Loaded b f (p.step i) := by
  obtain ⟨hbase, hoffset⟩ := hin
  obtain ⟨-, hq0, hq1, -⟩ := h
  rw [← hoffset, ← hbase] at hq0 hq1 ⊢
  constructor <;> rw [Persona.step_controller hi]
  · exact hq0
  · exact hq1

/-- With no pulse and no operation on its way the controller stays like that. -/
theorem controller_stays (hi : p.Runs i) (hedge : ¬ p.StartEdge i)
    (hpulse : p.controller.startPulse = false) (hop : p.controller.startOperation = false) :
    (p.step i).controller.startPulse = false ∧
      (p.step i).controller.startOperation = false := by
  refine ⟨startPulse_step_of_not hi hedge, ?_⟩
  rw [Persona.step_controller hi]
  simp [hpulse, hop]

theorem atFinal_iff (h : Loaded b f p) :
    p.trafficGenerator.atFinal (p.trafficIn i) ↔
      p.trafficGenerator.targetAddress = finalOf b f := by
  have hfinal : (p.trafficIn i).finalAddr = b + f := h.finalAddress
  unfold TrafficGenerator.atFinal finalOf
  rw [hfinal]

/-- The sweep begins at the base. -/
theorem Armed.step (h : Armed b f p) (hi : p.Runs i) (hin : Holds b f i)
    (hedge : ¬ p.StartEdge i) : Sweeping b f .active (b.setWidth 25) (p.step i) := by
  obtain ⟨hstate, hcompleted, hstart, htarget⟩ := Persona.step_trafficGenerator hi
  obtain ⟨hpulse, hop⟩ := controller_stays hi hedge h.startPulse h.startOperation
  have haccess : p.memAccess.currState = .ddrAccess := by rw [h.memAccess]
  have hnext : p.trafficNext i = .active := by
    have hstg : (p.trafficIn i).startTrafficGenerator = true :=
      congrArg MemAccess.startTrafficGenerator h.memAccess
    unfold Persona.trafficNext TrafficGenerator.nextState
    rw [h.traffic]
    simp only [hstg, if_true]
    refine if_neg ?_
    rw [atFinal_iff h.loaded]
    exact fun ⟨hfinal, hne⟩ => hne (h.begins hfinal)
  rw [hnext] at hstate hcompleted hstart
  refine ⟨h.loaded.step hi hin, hpulse, hop,
    Persona.memAccess_goes_on hi haccess h.ddrAccessCompleted, hstate, ?_, ?_, ?_,
    h.engine.step _⟩
  · rw [hcompleted]
    exact decide_eq_false fun hidle => nomatch hidle.1
  · rw [hstart]
    decide
  · rw [htarget, if_pos h.startDdrWrRd, h.loaded.memAddr]

theorem Armed.not_launches (h : Armed b f p) : ¬ p.launches i := by
  intro hlaunch
  exact absurd (h.startDdrWrRd.symm.trans ((launches_iff p i).mp hlaunch).2) (by decide)

/-- From ACTIVE or WAIT to ACTIVE or WAIT: the address counts up on a report. -/
theorem Sweeping.step_of_next {state next : TrafficState} (h : Sweeping b f state a p)
    (hi : p.Runs i) (hin : Holds b f i) (hedge : ¬ p.StartEdge i)
    (hnext : p.trafficNext i = next) (hon : next = .active ∨ next = .wait) :
    Sweeping b f next (if p.ddrWrRd.done = true then a + 1 else a) (p.step i) := by
  obtain ⟨hstate, hcompleted, hstart, htarget⟩ := Persona.step_trafficGenerator hi
  obtain ⟨hpulse, hop⟩ := controller_stays hi hedge h.startPulse h.startOperation
  have haccess : p.memAccess.currState = .ddrAccess := by rw [h.memAccess]
  rw [hnext] at hstate hcompleted hstart
  refine ⟨h.loaded.step hi hin, hpulse, hop,
    Persona.memAccess_goes_on hi haccess h.ddrAccessCompleted, hstate, ?_, ?_, ?_,
    h.engine.step _⟩
  · rw [hcompleted]
    rcases hon with rfl | rfl <;> simp
  · rw [hstart]
    simpa using hon
  · rw [htarget, h.startDdrWrRd, h.targetAddress]
    rfl

theorem Sweeping.active_step (h : Sweeping b f .active a p) (hi : p.Runs i)
    (hin : Holds b f i) (hedge : ¬ p.StartEdge i) (ha : a ≠ finalOf b f) :
    Sweeping b f .wait (if p.ddrWrRd.done = true then a + 1 else a) (p.step i) := by
  refine h.step_of_next hi hin hedge ?_ (.inr rfl)
  unfold Persona.trafficNext TrafficGenerator.nextState
  rw [h.traffic]
  refine if_neg ?_
  rw [atFinal_iff h.loaded, h.targetAddress]
  exact ha

theorem Sweeping.wait_step (h : Sweeping b f .wait a p) (hi : p.Runs i) (hin : Holds b f i)
    (hedge : ¬ p.StartEdge i) (hdone : p.ddrWrRd.done = false) :
    Sweeping b f .wait a (p.step i) := by
  have hnext : p.trafficNext i = .wait := by
    unfold Persona.trafficNext TrafficGenerator.nextState
    rw [h.traffic]
    refine if_neg ?_
    show ¬ (p.ddrWrRd.pass = true ∨ p.ddrWrRd.fail = true)
    rw [← Bool.or_eq_true_iff, show (p.ddrWrRd.pass || p.ddrWrRd.fail) = false from hdone]
    decide
  have hstep := h.step_of_next hi hin hedge hnext (.inr rfl)
  rwa [hdone] at hstep

theorem Sweeping.report_step (h : Sweeping b f .wait a p) (hi : p.Runs i)
    (hin : Holds b f i) (hedge : ¬ p.StartEdge i) (hdone : p.ddrWrRd.done = true) :
    Sweeping b f .active (a + 1) (p.step i) := by
  have hnext : p.trafficNext i = .active := by
    unfold Persona.trafficNext TrafficGenerator.nextState
    rw [h.traffic]
    refine if_pos ?_
    show p.ddrWrRd.pass = true ∨ p.ddrWrRd.fail = true
    exact Bool.or_eq_true_iff.mp hdone
  have hstep := h.step_of_next hi hin hedge hnext (.inl rfl)
  rwa [hdone] at hstep

/-- At the final address, which is not zero, the sweep ends. -/
theorem Sweeping.final_step (h : Sweeping b f .active (finalOf b f) p) (hi : p.Runs i)
    (hin : Holds b f i) (hedge : ¬ p.StartEdge i) (hdone : p.ddrWrRd.done = false)
    (hne : finalOf b f ≠ 0) : Ending b f (p.step i) := by
  obtain ⟨hstate, hcompleted, hstart, htarget⟩ := Persona.step_trafficGenerator hi
  obtain ⟨hpulse, hop⟩ := controller_stays hi hedge h.startPulse h.startOperation
  have haccess : p.memAccess.currState = .ddrAccess := by rw [h.memAccess]
  have hfinal : p.trafficGenerator.atFinal (p.trafficIn i) :=
    (atFinal_iff h.loaded).mpr h.targetAddress
  have hnext : p.trafficNext i = .idle := by
    unfold Persona.trafficNext TrafficGenerator.nextState
    rw [h.traffic]
    exact if_pos hfinal
  rw [hnext] at hstate hcompleted hstart
  refine ⟨h.loaded.step hi hin, hpulse, hop,
    Persona.memAccess_goes_on hi haccess h.ddrAccessCompleted, hstate, ?_, ?_, ?_,
    h.engine.step _⟩
  · rw [hcompleted, h.targetAddress]
    exact decide_eq_true ⟨rfl, hfinal, hne⟩
  · rw [hstart]
    decide
  · rw [htarget, h.startDdrWrRd, hdone, h.targetAddress]
    rfl

/-- A final address of zero does not end the sweep: `mem_access` never hears of it. -/
theorem Sweeping.zero_step (h : Sweeping b f .active (finalOf b f) p) (hi : p.Runs i)
    (hin : Holds b f i) (hedge : ¬ p.StartEdge i) (hzero : finalOf b f = 0) :
    Armed b f (p.step i) := by
  obtain ⟨hstate, hcompleted, hstart, htarget⟩ := Persona.step_trafficGenerator hi
  obtain ⟨hpulse, hop⟩ := controller_stays hi hedge h.startPulse h.startOperation
  have haccess : p.memAccess.currState = .ddrAccess := by rw [h.memAccess]
  have hnext : p.trafficNext i = .idle := by
    unfold Persona.trafficNext TrafficGenerator.nextState
    rw [h.traffic]
    exact if_pos ((atFinal_iff h.loaded).mpr h.targetAddress)
  rw [hnext] at hstate hcompleted hstart
  refine ⟨h.loaded.step hi hin, hpulse, hop,
    Persona.memAccess_goes_on hi haccess h.ddrAccessCompleted, hstate, ?_, ?_, ?_,
    h.engine.step _⟩
  · rw [hcompleted, h.targetAddress, hzero]
    exact decide_eq_false fun hne => hne.2.2 rfl
  · rw [hstart]
    decide
  · intro hfinal
    rw [hfinal, hzero]

theorem Ending.step (h : Ending b f p) (hi : p.Runs i) (hedge : ¬ p.StartEdge i)
    (hne : finalOf b f ≠ 0) : AtRest false false (p.step i) := by
  obtain ⟨hstate, -, hstart, -⟩ := Persona.step_trafficGenerator hi
  obtain ⟨hpulse, hop⟩ := controller_stays hi hedge h.startPulse h.startOperation
  have haccess : p.memAccess.currState = .ddrAccess := by rw [h.memAccess]
  have hmem := Persona.memAccess_ends hi haccess h.ddrAccessCompleted
  have hfinal : p.trafficGenerator.atFinal (p.trafficIn i) :=
    (atFinal_iff h.loaded).mpr h.targetAddress
  have hnext : p.trafficNext i = .idle := by
    unfold Persona.trafficNext TrafficGenerator.nextState
    rw [h.traffic]
    refine if_pos ⟨hfinal, ?_⟩
    rw [h.targetAddress]
    exact hne
  rw [hnext] at hstate hstart
  refine ⟨hpulse, hop, ?_, ?_, ?_, hstate, ?_, h.engine.step _⟩
  · rw [hmem]
  · rw [hmem]
  · rw [hmem]
  · rw [hstart]
    decide

theorem Ending.not_launches (h : Ending b f p) : ¬ p.launches i := by
  intro hlaunch
  exact absurd (h.startDdrWrRd.symm.trans ((launches_iff p i).mp hlaunch).2) (by decide)

/-! ## The engine during a sweep -/

/-- An idle engine is launched at the sweep's address. -/
theorem Sweeping.launch {state : TrafficState} (h : Sweeping b f state a p) (hi : p.Runs i)
    (hidle : p.ddrWrRd.currState = .idle) :
    p.marks i = [.launched a] ∧ p.ddrWrRd.done = false ∧
      (p.step i).ddrWrRd.currState = .write ∧ (p.step i).ddrWrRd.referenceAddr = a := by
  have hdone := h.engine.not_done hidle
  have hlaunch : p.launches i := (launches_iff p i).mpr ⟨hidle, h.startDdrWrRd⟩
  have hstep : (p.step i).ddrWrRd = _ := WrRd.step_start hi.wrRdIn hidle h.startDdrWrRd
  refine ⟨?_, hdone, ?_, ?_⟩
  · unfold Persona.marks
    rw [hdone, if_pos hlaunch, h.targetAddress]
    rfl
  · rw [hstep]
  · rw [hstep]
    exact h.targetAddress

theorem marks_of_busy (hbusy : p.ddrWrRd.currState ≠ .idle) :
    p.marks i = if p.ddrWrRd.done = true then [.reported p.ddrWrRd.referenceAddr] else [] := by
  have hno : ¬ p.launches i := fun hlaunch => hbusy ((launches_iff p i).mp hlaunch).1
  unfold Persona.marks
  rw [if_neg hno, List.append_nil]

end

end FpgaPartialReconfig.Ddr4
