/-
  Runs with one sweep.

  In a `SweepRun` the persona starts at rest, the host holds base and offset in its registers
  and sets the start bit in cycle `s`, once the final address has had time to come through.
  What comes in cycle `next`, if there is one, and after it, is left open: the next start
  edge, a clear, other values in the registers. A run without it goes on for ever, and every
  operation of the engine reports in the end, whatever the memory does.

  The start takes four cycles to reach the traffic generator: a pulse in `s + 1`, a start
  operation in `s + 2`, `mem_access` on in `s + 3`, ACTIVE in `s + 4`. With an offset of zero
  it gets there only if the base is zero, too.
-/
import FpgaPartialReconfig.Ddr4.OneEach
import FpgaPartialReconfig.Ddr4.Sweep

namespace FpgaPartialReconfig.Ddr4

open Clock

section
variable (p : Persona) (inp : Nat → PersonaIn)

/-- The persona in a cycle. -/
def Persona.at (t : Nat) : Persona := cycles Persona.step p inp t

/-- The marks of the cycles before `t`. -/
def Persona.marked (t : Nat) : List Mark := trace Persona.step p inp Persona.marks t

structure SweepRun (s : Nat) (b f : BitVec 32) (next : Option Nat) : Prop where
  rest : AtRest false false p
  runs : ∀ t, (∀ n ∈ next, t < n) → (p.at inp t).Runs (inp t)
  holds : ∀ t, s ≤ t + 2 → (∀ n ∈ next, t < n) → Holds b f (inp t)
  range : b.toNat + f.toNat < 2 ^ 25
  settled : 2 ≤ s
  start : (p.at inp s).StartEdge (inp s)
  later : ∀ n ∈ next, s < n
  only : ∀ t, t ≠ s → (∀ n ∈ next, t < n) → ¬ (p.at inp t).StartEdge (inp t)
  completes : next = none → ∀ t, s < t → (p.at inp t).ddrWrRd.currState ≠ .idle →
    ∃ u, t ≤ u ∧ (p.at inp u).ddrWrRd.done = true

end

section
variable {p : Persona} {inp : Nat → PersonaIn} {s : Nat} {b f : BitVec 32} {next : Option Nat}

theorem at_succ (t : Nat) : p.at inp (t + 1) = (p.at inp t).step (inp t) := rfl

theorem launched_succ (t : Nat) :
    launched (p.marked inp (t + 1)) =
      launched (p.marked inp t) ++ launched ((p.at inp t).marks (inp t)) := by
  rw [Persona.marked, trace_succ, launched_append]
  rfl

theorem launched_succ_of_not {t : Nat} (h : ¬ (p.at inp t).launches (inp t)) :
    launched (p.marked inp (t + 1)) = launched (p.marked inp t) := by
  rw [launched_succ, launched_marks_of_not h, List.append_nil]

theorem launched_mono (p : Persona) (inp : Nat → PersonaIn) {t u : Nat} (h : t ≤ u) :
    launched (p.marked inp t) <+: launched (p.marked inp u) :=
  (trace_mono Persona.step p inp Persona.marks h).filterMap _

theorem marked_succ (t : Nat) :
    p.marked inp (t + 1) = p.marked inp t ++ (p.at inp t).marks (inp t) := rfl

/-! ## The engine of the persona -/

theorem engine_at (t : Nat) : (p.at inp t).ddrWrRd =
    cycles WrRd.step p.ddrWrRd (fun t => (p.at inp t).wrRdIn (inp t)) t := by
  induction t with
  | zero => rfl
  | succ t ih =>
    show (p.at inp t).ddrWrRd.step ((p.at inp t).wrRdIn (inp t)) = _
    rw [ih]
    rfl

theorem wf_at (hwf : p.ddrWrRd.Wf) (t : Nat) : (p.at inp t).ddrWrRd.Wf :=
  cycles_inv (J := fun p => p.ddrWrRd.Wf) Persona.step p inp (fun p i h => h.step (p.wrRdIn i))
    hwf t

/-- With a memory that takes every command and answers the engine when it waits, every
    operation reports. -/
theorem reports_of_answers (hwf : p.ddrWrRd.Wf) (hruns : ∀ t, (p.at inp t).Runs (inp t))
    (htakes : ∀ t, ∃ u, t ≤ u ∧ (inp u).emifAvmmWaitrequest = false)
    (hreturns : ∀ t, (p.at inp t).ddrWrRd.currState = .waitReadDone →
      ∃ u, t ≤ u ∧ (inp u).emifAvmmReaddatavalid = true)
    {t : Nat} (hbusy : (p.at inp t).ddrWrRd.currState ≠ .idle) :
    ∃ u, t ≤ u ∧ (p.at inp u).ddrWrRd.done = true := by
  let engineInp := fun t => (p.at inp t).wrRdIn (inp t)
  have hengine : ∀ t, (engineInp t).Runs := fun t => (hruns t).wrRdIn
  have hverdict := leadsTo_verdict hwf hengine htakes fun t ht =>
    hreturns t (by rw [engine_at]; exact ht)
  rw [engine_at] at hbusy
  obtain ⟨u, htu, hverify⟩ := hverdict t hbusy
  refine ⟨u, htu, (wf_at hwf u).done.mpr ?_⟩
  rw [engine_at]
  exact hverify

/-! ## Addresses -/

theorem addresses_eq (b f : BitVec 32) :
    addresses b f = addressesFrom (b.setWidth 25) (f.toNat + 1) := by
  unfold addresses addressesFrom
  refine List.map_congr_left fun k _ => ?_
  apply BitVec.eq_of_toNat_eq
  simp

theorem finalOf_eq (b f : BitVec 32) : finalOf b f = BitVec.ofNat 25 (b.toNat + f.toNat) := by
  apply BitVec.eq_of_toNat_eq
  rw [finalOf, BitVec.toNat_setWidth, BitVec.toNat_add, BitVec.toNat_ofNat,
    Nat.mod_mod_of_dvd _ (by decide)]

theorem base_eq (b : BitVec 32) : b.setWidth 25 = BitVec.ofNat 25 b.toNat := by
  apply BitVec.eq_of_toNat_eq
  rw [BitVec.toNat_setWidth, BitVec.toNat_ofNat]

theorem ofNat_inj {m n : Nat} (hm : m < 2 ^ 25) (hn : n < 2 ^ 25) :
    BitVec.ofNat 25 m = BitVec.ofNat 25 n ↔ m = n := by
  constructor
  · intro h
    have h' := congrArg BitVec.toNat h
    rwa [BitVec.toNat_ofNat, BitVec.toNat_ofNat, Nat.mod_eq_of_lt hm, Nat.mod_eq_of_lt hn] at h'
  · intro h
    rw [h]

namespace SweepRun
variable (h : SweepRun p inp s b f next)
include h

theorem base_eq_final : b.setWidth 25 = finalOf b f ↔ f.toNat = 0 := by
  have hrange := h.range
  rw [base_eq, finalOf_eq, ofNat_inj (by omega) hrange]
  omega

theorem final_ne_zero (hf : f.toNat ≠ 0) : finalOf b f ≠ 0 := by
  have hrange := h.range
  rw [finalOf_eq]
  intro hzero
  have hsum : b.toNat + f.toNat = 0 := (ofNat_inj hrange (by decide)).mp hzero
  omega

/-! ## Up to the start edge -/

theorem at_rest {t : Nat} (ht : t ≤ s) : AtRest false false (p.at inp t) := by
  induction t with
  | zero => exact h.rest
  | succ t ih =>
    have hnext : ∀ n ∈ next, t < n := by
      intro n hn
      have := h.later n hn
      omega
    exact (ih (by omega)).quiet_step (h.runs t hnext) (h.only t (by omega) hnext)

theorem loaded {t : Nat} (hst : s ≤ t + 2) (hnext : ∀ n ∈ next, t + 2 < n) :
    Loaded b f (p.at inp (t + 3)) := by
  have hstep : ∀ u, t ≤ u → u ≤ t + 2 → (p.at inp (u + 1)).controller.memAddr = b ∧
      (p.at inp (u + 1)).controller.finalAddressQ0 = b + f ∧
      (p.at inp (u + 1)).controller.finalAddressQ1 =
        (p.at inp u).controller.finalAddressQ0 ∧
      (p.at inp (u + 1)).controller.finalAddress =
        (p.at inp u).controller.finalAddressQ1 := by
    intro u htu hut
    have hbefore : ∀ n ∈ next, u < n := fun n hn => by have := hnext n hn; omega
    have hholds := h.holds u (by omega) hbefore
    rw [at_succ, Persona.step_controller (h.runs u hbefore), hholds.base, hholds.offset]
    exact ⟨rfl, rfl, rfl, rfl⟩
  obtain ⟨-, hq0, -, -⟩ := hstep t (Nat.le_refl t) (by omega)
  obtain ⟨-, hq0', hq1, -⟩ := hstep (t + 1) (by omega) (by omega)
  obtain ⟨hmem, hq0'', hq1', hfinal⟩ := hstep (t + 2) (by omega) (Nat.le_refl _)
  exact ⟨hmem, hq0'', hq1'.trans hq0', hfinal.trans (hq1.trans hq0)⟩

/-- While nothing is started the target address is the base. -/
theorem target_of_not_started {t : Nat} (hst : s ≤ t + 2) (hnext : ∀ n ∈ next, t + 1 < n)
    (hstart : (p.at inp (t + 1)).trafficGenerator.startDdrWrRd = false) :
    (p.at inp (t + 2)).trafficGenerator.targetAddress = b.setWidth 25 := by
  have hbefore : ∀ n ∈ next, t < n := fun n hn => Nat.lt_of_succ_lt (hnext n hn)
  have hmem : (p.at inp (t + 1)).controller.memAddr = b := by
    rw [at_succ, Persona.step_controller (h.runs t hbefore)]
    exact (h.holds t hst hbefore).base
  rw [at_succ, (Persona.step_trafficGenerator (h.runs (t + 1) hnext)).2.2.2, if_pos hstart, hmem]

/-! ## From the start edge to the traffic generator -/

theorem pulse : AtRest true false (p.at inp (s + 1)) :=
  ((h.at_rest (Nat.le_refl s)).edge_step (h.runs s h.later) h.start).1

theorem operation (hnext : ∀ n ∈ next, s + 1 < n) :
    AtRest false true (p.at inp (s + 2)) ∧
      (p.at inp (s + 2)).memAccess.clearStartOperation = true :=
  h.pulse.pulse_step (h.runs (s + 1) hnext) (h.only (s + 1) (by omega) hnext)

/-- Nothing is launched before the fourth cycle. -/
theorem launched_start {t : Nat} (ht : t ≤ s + 4) (hnext : ∀ n ∈ next, t ≤ n) :
    launched (p.marked inp t) = [] := by
  induction t with
  | zero => rfl
  | succ t ih =>
    have hbefore : ¬ (p.at inp t).launches (inp t) := by
      rcases Nat.lt_or_ge s t with hst | hst
      · obtain rfl | rfl | rfl : t = s + 1 ∨ t = s + 2 ∨ t = s + 3 := by omega
        · exact h.pulse.not_launches
        · exact (h.operation fun n hn => by have := hnext n hn; omega).1.not_launches
        · intro hlaunch
          have hrest := (h.operation fun n hn => by have := hnext n hn; omega).1
          have hruns := h.runs (s + 2) fun n hn => by have := hnext n hn; omega
          have hlow : (p.at inp (s + 3)).trafficGenerator.startDdrWrRd = false :=
            hrest.startDdrWrRd_step hruns
          exact absurd (hlow.symm.trans ((launches_iff _ _).mp hlaunch).2) (by decide)
      · exact (h.at_rest hst).not_launches
    rw [launched_succ_of_not hbefore]
    exact ih (by omega) fun n hn => Nat.le_of_lt (hnext n hn)

/-- At rest, the end of a sweep is signalled exactly if base and final address are the same
    and not zero. -/
theorem completed_iff {t : Nat} {pulse operation : Bool} (hst : s ≤ t + 2)
    (hnext : ∀ n ∈ next, t + 3 < n)
    (hstart : (p.at inp (t + 2)).trafficGenerator.startDdrWrRd = false)
    (hrest : AtRest pulse operation (p.at inp (t + 3))) :
    (p.at inp (t + 4)).trafficGenerator.ddrAccessCompleted = true ↔
      f.toNat = 0 ∧ b.setWidth 25 ≠ (0 : Address) := by
  obtain ⟨-, hcompleted, -, -⟩ := Persona.step_trafficGenerator (h.runs (t + 3) hnext)
  have hbefore : ∀ n ∈ next, t + 2 < n := fun n hn => Nat.lt_of_succ_lt (hnext n hn)
  rw [at_succ, hcompleted, decide_eq_true_iff, hrest.trafficNext_idle,
    atFinal_iff (h.loaded hst hbefore), h.target_of_not_started (by omega) hbefore hstart,
    h.base_eq_final]
  simp

/-- The start operation of a sweep that begins. -/
theorem armed (hnext : ∀ n ∈ next, s + 2 < n)
    (hbegins : ¬ (f.toNat = 0 ∧ b.setWidth 25 ≠ (0 : Address))) :
    Armed b f (p.at inp (s + 3)) := by
  obtain ⟨hrest, hclear⟩ := h.operation fun n hn => by have := hnext n hn; omega
  obtain ⟨t, rfl⟩ : ∃ t, s = t + 2 := ⟨s - 2, by have := h.settled; omega⟩
  have hbefore : ∀ n ∈ next, t + 3 < n := fun n hn => Nat.lt_of_succ_lt (hnext n hn)
  have hcompleted₂ : (p.at inp (t + 4)).trafficGenerator.ddrAccessCompleted = false := by
    rw [← Bool.not_eq_true, h.completed_iff (Nat.le_refl _) hbefore
      (h.at_rest (Nat.le_refl _)).startDdrWrRd h.pulse]
    exact hbegins
  have hcompleted₃ : (p.at inp (t + 5)).trafficGenerator.ddrAccessCompleted = false := by
    rw [← Bool.not_eq_true, h.completed_iff (by omega) hnext h.pulse.startDdrWrRd hrest]
    exact hbegins
  have hruns := h.runs (t + 4) hnext
  have hedge := h.only (t + 4) (by omega) hnext
  refine ⟨h.loaded (by omega) hnext, startPulse_step_of_not hruns hedge, ?_,
    Persona.memAccess_starts hruns hrest.memAccess hrest.startOperation hcompleted₂,
    hrest.traffic_step hruns, hcompleted₃, hrest.startDdrWrRd_step hruns, ?_,
    hrest.engine.step _⟩
  · rw [at_succ, Persona.step_controller hruns]
    simp [hrest.startPulse, hclear]
  · rw [h.target_of_not_started (by omega) hnext hrest.startDdrWrRd, h.base_eq_final]
    intro hzero
    by_contra hne
    exact hbegins ⟨hzero, hne⟩

/-- A start operation that `mem_access` refuses leaves everything at rest. -/
theorem refused (hnext : ∀ n ∈ next, s + 2 < n) (hzero : f.toNat = 0)
    (hbase : b.setWidth 25 ≠ (0 : Address)) : AtRest false false (p.at inp (s + 3)) := by
  obtain ⟨hrest, -⟩ := h.operation fun n hn => by have := hnext n hn; omega
  obtain ⟨t, rfl⟩ : ∃ t, s = t + 2 := ⟨s - 2, by have := h.settled; omega⟩
  have hcompleted : (p.at inp (t + 4)).trafficGenerator.ddrAccessCompleted = true :=
    (h.completed_iff (Nat.le_refl _) (fun n hn => Nat.lt_of_succ_lt (hnext n hn))
      (h.at_rest (Nat.le_refl _)).startDdrWrRd h.pulse).mpr ⟨hzero, hbase⟩
  exact hrest.refused_step (h.runs (t + 4) hnext) (h.only (t + 4) (by omega) hnext) hcompleted

/-- The sweep is on in the fourth cycle after the edge. -/
theorem sweeping (hnext : ∀ n ∈ next, s + 3 < n)
    (hbegins : ¬ (f.toNat = 0 ∧ b.setWidth 25 ≠ (0 : Address))) :
    Sweeping b f .active (b.setWidth 25) (p.at inp (s + 4)) := by
  have harmed := h.armed (fun n hn => by have := hnext n hn; omega) hbegins
  exact harmed.step (h.runs (s + 3) hnext) (h.holds (s + 3) (by omega) hnext)
    (h.only (s + 3) (by omega) hnext)

/-- Once at rest after the start edge, always at rest until the next one. -/
theorem rest_forever {t u : Nat} (hst : s < t) (htu : t ≤ u) (hnext : ∀ n ∈ next, u ≤ n)
    (hrest : AtRest false false (p.at inp t)) : AtRest false false (p.at inp u) := by
  induction u, htu using Nat.le_induction with
  | base => exact hrest
  | succ u htu ih =>
    exact (ih fun n hn => Nat.le_of_lt (hnext n hn)).quiet_step (h.runs u hnext)
      (h.only u (by omega) hnext)

/-- Nothing is launched at rest. -/
theorem launched_rest {t u : Nat} (hst : s < t) (htu : t ≤ u) (hnext : ∀ n ∈ next, u ≤ n)
    (hrest : AtRest false false (p.at inp t)) :
    launched (p.marked inp u) = launched (p.marked inp t) := by
  induction u, htu using Nat.le_induction with
  | base => rfl
  | succ u htu ih =>
    have hbefore : ∀ n ∈ next, u ≤ n := fun n hn => by have := hnext n hn; omega
    rw [launched_succ_of_not (h.rest_forever hst htu hbefore hrest).not_launches]
    exact ih hbefore

end SweepRun

end

end FpgaPartialReconfig.Ddr4
