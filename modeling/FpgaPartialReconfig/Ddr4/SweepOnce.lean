/-
  What a started sweep covers.

  A sweep should launch the engine at `b, b + 1, …, b + f`, in that order and once each
  (`SweepsOnce`). With an offset of zero it never does: either `mem_access` refuses to start,
  because the end of the sweep is signalled all the time, or, at address zero, the end is
  never signalled and the one address is launched again and again. And an engine that is
  still at the last operation of an earlier sweep when the traffic generator becomes ACTIVE
  makes it skip the base. `sweeps_once_iff`: otherwise the sweep is right.
-/
import FpgaPartialReconfig.Ddr4.SweepPhases

namespace FpgaPartialReconfig.Ddr4

open Clock

/-- The launches up to the next start edge are those of the sweep, in order, and without a
    next start edge they are all made. -/
structure SweepsOnce (p : Persona) (inp : Nat → PersonaIn) (b f : BitVec 32)
    (next : Option Nat) : Prop where
  inOrder : ∀ t, (∀ n ∈ next, t ≤ n) → launched (p.marked inp t) <+: addresses b f
  complete : next = none → ∃ t, launched (p.marked inp t) = addresses b f

section
variable {p : Persona} {inp : Nat → PersonaIn} {s : Nat} {b f : BitVec 32} {next : Option Nat}

/-! ## The sweep that is right -/

theorem base_add (b : BitVec 32) (k : Nat) :
    b.setWidth 25 + BitVec.ofNat 25 k = BitVec.ofNat 25 (b.toNat + k) := by
  rw [base_eq, BitVec.ofNat_add]

theorem SweepRun.index_eq (h : SweepRun p inp s b f next) {k : Nat}
    (hk : k = 0 ∨ k - 1 < f.toNat) :
    b.setWidth 25 + BitVec.ofNat 25 k = finalOf b f ↔ k = f.toNat := by
  have hrange := h.range
  rw [base_add, finalOf_eq, ofNat_inj (by omega) hrange]
  omega

/-- From the fourth cycle after the start edge to the next one. -/
theorem SweepRun.phase (h : SweepRun p inp s b f next) (hf : f.toNat ≠ 0)
    (hidle : (p.at inp (s + 4)).ddrWrRd.currState = .idle) {t : Nat} (hst : s + 4 ≤ t)
    (hlater : ∀ n ∈ next, s + 3 < n) (hnext : ∀ n ∈ next, t ≤ n) :
    Phase p inp b f (b.setWidth 25) (p.marked inp (s + 4)) (fun k => k < f.toNat) t := by
  have hsweeping := h.sweeping hlater (fun hzero => hf hzero.1)
  have hstart : Phase p inp b f (b.setWidth 25) (p.marked inp (s + 4)) (fun k => k < f.toNat)
      (s + 4) := by
    refine .launching 0 (.inl rfl) ⟨?_, hidle⟩ (List.append_nil _).symm
    rw [show b.setWidth 25 + BitVec.ofNat 25 0 = b.setWidth 25 from BitVec.add_zero _]
    exact hsweeping
  refine h.phase_until hf ?_ (by omega) hst hnext hstart
  intro k hk hne
  rw [Ne, h.index_eq hk] at hne
  omega

theorem SweepRun.inOrder (h : SweepRun p inp s b f next) (hf : f.toNat ≠ 0)
    (hidle : (p.at inp (s + 4)).ddrWrRd.currState = .idle) (t : Nat)
    (hnext : ∀ n ∈ next, t ≤ n) : launched (p.marked inp t) <+: addresses b f := by
  rw [addresses_eq]
  rcases Nat.lt_or_ge (s + 4) t with hst | hst
  · have hphase := h.phase hf hidle (Nat.le_of_lt hst)
      (fun n hn => by have := hnext n hn; omega) hnext
    have hstart : launched (p.marked inp (s + 4)) = [] :=
      h.launched_start (Nat.le_refl _) fun n hn => by have := hnext n hn; omega
    have hrunning : ∀ k, launched (p.marked inp (s + 4) ++ (operationsFrom (b.setWidth 25) k ++
        [.launched (b.setWidth 25 + BitVec.ofNat 25 k)])) =
          addressesFrom (b.setWidth 25) (k + 1) := by
      intro k
      rw [launched_append, hstart, launched_append, launched_operationsFrom,
        addressesFrom_succ]
      rfl
    cases hphase with
    | launching k hk hl hmarks =>
      rw [hmarks, launched_append, hstart, launched_operationsFrom]
      exact addressesFrom_prefix _ (by omega)
    | running k hk hr hmarks =>
      rw [hmarks, hrunning]
      exact addressesFrom_prefix _ (by omega)
    | ending k hk hfinal hending hwrite hmarks =>
      rw [hmarks, hrunning]
      exact addressesFrom_prefix _ (by omega)
    | resting k hk hfinal hrest hlaunched =>
      rw [hlaunched, hstart, List.nil_append]
      exact addressesFrom_prefix _ (by omega)
  · rw [h.launched_start hst hnext]
    exact List.nil_prefix

theorem SweepRun.complete (h : SweepRun p inp s b f none) (hf : f.toNat ≠ 0)
    (hidle : (p.at inp (s + 4)).ddrWrRd.currState = .idle) :
    ∃ t, launched (p.marked inp t) = addresses b f := by
  have hstart : Launching p inp b f (b.setWidth 25) (s + 4) :=
    ⟨h.sweeping nofun (fun hzero => hf hzero.1), hidle⟩
  obtain ⟨u, hu, hl⟩ := h.leadsTo_final (by omega) hstart
  obtain ⟨k, hk, hfinal, hmarks⟩ := (h.phase hf hidle hu nofun nofun).at_final hl
  obtain rfl : k = f.toNat := (h.index_eq hk).mp hfinal
  refine ⟨u + 1, ?_⟩
  rw [h.launching_marks nofun hl, hmarks, launched_append, launched_append,
    h.launched_start (Nat.le_refl _) nofun, launched_operationsFrom, addresses_eq, addressesFrom_succ, hfinal]
  rfl

/-! ## The sweeps that are wrong -/

variable (h : SweepRun p inp s b f none)
include h

theorem SweepRun.refused_launched (hzero : f.toNat = 0) (hbase : b.setWidth 25 ≠ (0 : Address))
    (t : Nat) : launched (p.marked inp t) = [] := by
  rcases Nat.lt_or_ge t (s + 3) with hst | hst
  · exact h.launched_start (by omega) nofun
  · rw [h.launched_rest (by omega) hst nofun (h.refused nofun hzero hbase)]
    exact h.launched_start (by omega) nofun

omit h in
/-- With base and offset zero the traffic generator begins the sweep over and over. -/
theorem SweepRun.begins_again (h : SweepRun p inp s b f next) (hzero : f.toNat = 0)
    (hbase : b.setWidth 25 = (0 : Address)) {t : Nat} (hst : s + 3 ≤ t)
    (hnext : ∀ n ∈ next, t ≤ n) :
    Armed b f (p.at inp t) ∨ Sweeping b f .active (finalOf b f) (p.at inp t) := by
  have hfinal : b.setWidth 25 = finalOf b f := h.base_eq_final.mpr hzero
  induction t, hst using Nat.le_induction with
  | base => exact .inl (h.armed hnext (fun hne => hne.2 hbase))
  | succ t hst ih =>
    have hruns := h.runs t hnext
    have hholds := h.holds t (by omega) hnext
    have hedge := h.only t (by omega) hnext
    rcases ih fun n hn => Nat.le_of_lt (hnext n hn) with harmed | hsweeping
    · have hstep := harmed.step hruns hholds hedge
      rw [hfinal] at hstep
      exact .inr hstep
    · exact .inl (hsweeping.zero_step hruns hholds hedge (hfinal ▸ hbase))

theorem SweepRun.launches_again (hzero : f.toNat = 0) (hbase : b.setWidth 25 = (0 : Address))
    {t : Nat} (hst : s + 3 ≤ t) :
    ∃ u, t ≤ u ∧ (p.at inp u).launches (inp u) := by
  -- the engine gets idle, and then it takes at most one more cycle
  have hidle : ∃ u, t ≤ u ∧ (p.at inp u).ddrWrRd.currState = .idle := by
    by_cases hbusy : (p.at inp t).ddrWrRd.currState = .idle
    · exact ⟨t, Nat.le_refl t, hbusy⟩
    · obtain ⟨u, htu, hdone⟩ := h.completes rfl t (by omega) hbusy
      have hwf : (p.at inp u).ddrWrRd.Wf :=
        (h.begins_again hzero hbase (show s + 3 ≤ u by omega) nofun).elim Armed.engine Sweeping.engine
      have hverify := hwf.done.mp hdone
      have hnot : (p.at inp u).ddrWrRd.currState ≠ .idle := by
        rw [hverify]
        decide
      exact ⟨u + 1, by omega, (hwf.busy_step (h.runs u nofun).wrRdIn hnot).1.mpr hdone⟩
  obtain ⟨u, htu, hidle⟩ := hidle
  rcases h.begins_again hzero hbase (show s + 3 ≤ u by omega) nofun with harmed | hsweeping
  · have hfinal : b.setWidth 25 = finalOf b f := h.base_eq_final.mpr hzero
    have hnext := harmed.step (h.runs u nofun) (h.holds u (by omega) nofun)
      (h.no_edge (by omega))
    have hidle' : (p.at inp (u + 1)).ddrWrRd.currState = .idle := by
      have hstep : (p.at inp (u + 1)).ddrWrRd = _ :=
        WrRd.step_idle (h.runs u nofun).wrRdIn hidle harmed.startDdrWrRd
      rw [hstep]
      exact hidle
    exact ⟨u + 1, by omega, (launches_iff _ _).mpr ⟨hidle', hnext.startDdrWrRd⟩⟩
  · exact ⟨u, htu, (launches_iff _ _).mpr ⟨hidle, hsweeping.startDdrWrRd⟩⟩

omit h in
theorem launched_length_of_launches {t : Nat} (hl : (p.at inp t).launches (inp t)) :
    (launched (p.marked inp (t + 1))).length = (launched (p.marked inp t)).length + 1 := by
  have hmarks : launched ((p.at inp t).marks (inp t)) =
      [(p.at inp t).trafficGenerator.targetAddress] := by
    unfold Persona.marks
    rw [if_pos hl]
    split <;> rfl
  rw [launched_succ, hmarks, List.length_append]
  rfl

theorem SweepRun.launches_twice (hzero : f.toNat = 0) (hbase : b.setWidth 25 = (0 : Address)) :
    ∃ t, 2 ≤ (launched (p.marked inp t)).length := by
  obtain ⟨t, hst, hfirst⟩ := h.launches_again hzero hbase (Nat.le_refl (s + 3))
  obtain ⟨u, htu, hsecond⟩ := h.launches_again hzero hbase (show s + 3 ≤ t + 1 by omega)
  have hlength := launched_length_of_launches hfirst
  have hgrows := (launched_mono p inp htu).length_le
  have hlength' := launched_length_of_launches hsecond
  exact ⟨u + 1, by omega⟩

/-- After a skipped base the launches are not those of the sweep, which has its base first. -/
theorem SweepRun.not_complete_of_busy (hf : f.toNat ≠ 0)
    (hbusy : (p.at inp (s + 4)).ddrWrRd.currState ≠ .idle) (t : Nat) :
    launched (p.marked inp t) ≠ addresses b f := by
  obtain ⟨u, before, hsu, hbefore, hphase, -⟩ := h.skips_base hf hbusy
  have hlater : Phase p inp b f (b.setWidth 25 + 1) before (fun _ => True) (max t u) :=
    h.phase_until hf (fun _ _ _ => trivial) (by omega) (Nat.le_max_right t u) nofun hphase
  obtain ⟨k, hlaunched⟩ := hlater.launched_eq
  rw [hbefore, List.nil_append] at hlaunched
  intro hcomplete
  have hprefix := launched_mono p inp (Nat.le_max_left t u)
  rw [hcomplete, hlaunched, addresses_eq] at hprefix
  obtain ⟨rest, hrest⟩ := hprefix
  have hhead := congrArg List.head? hrest
  rw [List.head?_append, addressesFrom_head] at hhead
  cases k with
  | zero => cases hhead
  | succ k =>
    rw [addressesFrom_head] at hhead
    have hsame : b.setWidth 25 = b.setWidth 25 + 1 := Option.some.inj hhead
    bv_omega

end

/-! ## When a sweep covers its range once -/

/-- A sweep launches the engine at each address of its range once, in order, and not again
    before the next start edge, exactly if its offset is at least one and the engine has
    finished the sweep before when the traffic generator becomes ACTIVE. -/
theorem sweeps_once_iff (p : Persona) (inp : Nat → PersonaIn) (s : Nat) (b f : BitVec 32)
    (next : Option Nat) (h : SweepRun p inp s b f next) :
    (1 ≤ f.toNat ∧ (p.at inp (s + 4)).ddrWrRd.currState = .idle →
      SweepsOnce p inp b f next) ∧
    (next = none → SweepsOnce p inp b f next →
      1 ≤ f.toNat ∧ (p.at inp (s + 4)).ddrWrRd.currState = .idle) := by
  constructor
  · intro hparts
    obtain ⟨hf, hidle⟩ := hparts
    refine ⟨h.inOrder (by omega) hidle, ?_⟩
    intro hnext
    subst hnext
    exact h.complete (by omega) hidle
  · intro hnext honce
    subst hnext
    obtain ⟨t, hcomplete⟩ := honce.complete rfl
    have hlength : (addresses b f).length = f.toNat + 1 := by
      rw [addresses_eq, addressesFrom_length]
    by_cases hzero : f.toNat = 0
    · exfalso
      by_cases hbase : b.setWidth 25 = (0 : Address)
      · obtain ⟨u, htwice⟩ := h.launches_twice hzero hbase
        have hprefix := (honce.inOrder u nofun).length_le
        omega
      · rw [h.refused_launched hzero hbase t] at hcomplete
        rw [← hcomplete] at hlength
        exact absurd hlength (by simp)
    · refine ⟨by omega, ?_⟩
      by_contra hbusy
      exact h.not_complete_of_busy hzero hbusy t hcomplete

/-! ## Sweeps from reset -/

/-- The host holds base and offset and sets the start bit in cycle 2; the memory is never
    busy, and returns zeros in the cycles `answers`. -/
def hostSweep (b f : BitVec 32) (answers : Nat → Bool) (t : Nat) : PersonaIn where
  prLogicRst := false
  hostCntrlRegister := if t = 2 then 4#32 else 0#32
  hostPr k := if k = 0 then b else if k = 2 then f else 0#32
  emifAvmmWaitrequest := false
  emifAvmmReaddata := 0
  emifAvmmReaddatavalid := answers t

section
variable {b f : BitVec 32} {answers : Nat → Bool}

theorem runs_hostSweep (t : Nat) :
    (resetPersona.at (hostSweep b f answers) t).Runs (hostSweep b f answers t) := by
  refine Persona.runs_of_no_clear rfl (fun t => ⟨rfl, ?_⟩) t
  show (if t = 2 then 4#32 else 0#32).getLsbD 0 = false
  split <;> rfl

theorem no_edge_hostSweep {t : Nat} (ht : t ≠ 2) (p : Persona) :
    ¬ p.StartEdge (hostSweep b f answers t) := by
  intro hparts
  obtain ⟨-, hbit⟩ := hparts
  have hzero : (hostSweep b f answers t).hostCntrlRegister = 0#32 := if_neg ht
  rw [hzero] at hbit
  exact absurd hbit (by decide)

theorem wf_hostSweep (t : Nat) : (resetPersona.at (hostSweep b f answers) t).ddrWrRd.Wf :=
  wf_at isReset_resetPersona.ddrWrRd.wf t

theorem AtRest.of_isReset {p : Persona} (h : p.IsReset) : AtRest false false p := by
  obtain ⟨hcontroller, hmem, ⟨htraffic, -, hstart, -, -, -⟩, hengine, -⟩ := h
  refine ⟨?_, ?_, ?_, ?_, ?_, htraffic, hstart, hengine.wf⟩
  · rw [hcontroller]; rfl
  · rw [hcontroller]; rfl
  · rw [hmem]; rfl
  · rw [hmem]; rfl
  · rw [hmem]; rfl

theorem sweepRun_hostSweep (hrange : b.toNat + f.toNat < 2 ^ 25)
    (hcompletes : ∀ t, 2 < t →
      (resetPersona.at (hostSweep b f answers) t).ddrWrRd.currState ≠ .idle →
        ∃ u, t ≤ u ∧ (resetPersona.at (hostSweep b f answers) u).ddrWrRd.done = true) :
    SweepRun resetPersona (hostSweep b f answers) 2 b f none where
  rest := AtRest.of_isReset isReset_resetPersona
  runs t _ := runs_hostSweep t
  holds _ _ _ := ⟨rfl, rfl⟩
  range := hrange
  settled := by decide
  start := by
    have hbefore : (hostSweep b f answers 1).hostCntrlRegister.getLsbD 2 = false := by
      show (if 1 = 2 then 4#32 else 0#32).getLsbD 2 = false
      decide
    have hnow : (hostSweep b f answers 2).hostCntrlRegister.getLsbD 2 = true := by
      show (if 2 = 2 then 4#32 else 0#32).getLsbD 2 = true
      decide
    unfold Persona.StartEdge
    rw [show resetPersona.at (hostSweep b f answers) 2 = _ from at_succ 1,
      Persona.step_controller (runs_hostSweep 1)]
    exact ⟨hbefore, hnow⟩
  later := nofun
  only t ht _ := no_edge_hostSweep ht _
  completes _ := hcompletes

/-- Once the persona is at rest and the engine idle nothing happens any more. -/
theorem idle_hostSweep {n t : Nat} (hn : 2 < n) (hnt : n ≤ t)
    (hrest : AtRest false false (resetPersona.at (hostSweep b f answers) n))
    (hidle : (resetPersona.at (hostSweep b f answers) n).ddrWrRd.currState = .idle) :
    AtRest false false (resetPersona.at (hostSweep b f answers) t) ∧
      (resetPersona.at (hostSweep b f answers) t).ddrWrRd.currState = .idle := by
  induction t, hnt using Nat.le_induction with
  | base => exact ⟨hrest, hidle⟩
  | succ t hnt ih =>
    obtain ⟨hrest, hidle⟩ := ih
    have hruns : (resetPersona.at (hostSweep b f answers) t).Runs (hostSweep b f answers t) :=
      runs_hostSweep t
    refine ⟨hrest.quiet_step hruns (no_edge_hostSweep (by omega) _), ?_⟩
    have hstep : (resetPersona.at (hostSweep b f answers) (t + 1)).ddrWrRd = _ :=
      WrRd.step_idle hruns.wrRdIn hidle hrest.startDdrWrRd
    rw [hstep]
    exact hidle

end

/-! ## A sweep of two, and one without end -/

/-- The memory returns the data two cycles after each read. -/
def startedSweep : Nat → PersonaIn := hostSweep 0 1 fun t => t == 11 || t == 18

theorem rest_startedSweep : AtRest false false (resetPersona.at startedSweep 20) ∧
    (resetPersona.at startedSweep 20).ddrWrRd.currState = .idle := by
  refine ⟨⟨?_, ?_, ?_, ?_, ?_, ?_, ?_, wf_hostSweep 20⟩, ?_⟩ <;> decide +kernel

/-- The second operation is over in cycle 20. -/
theorem sweepRun_startedSweep : SweepRun resetPersona startedSweep 2 0 1 none := by
  refine sweepRun_hostSweep (by decide) fun t _ hbusy => ?_
  rcases Nat.lt_or_ge t 20 with ht | ht
  · have hreports : ∀ t < 20, (resetPersona.at startedSweep t).ddrWrRd.currState ≠ .idle →
        ∃ u < 20, t ≤ u ∧ (resetPersona.at startedSweep u).ddrWrRd.done = true := by
      decide +kernel
    obtain ⟨u, -, htu, hdone⟩ := hreports t ht hbusy
    exact ⟨u, htu, hdone⟩
  · exact absurd (idle_hostSweep (by decide) ht rest_startedSweep.1 rest_startedSweep.2).2 hbusy

theorem sweeps_once_startedSweep : SweepsOnce resetPersona startedSweep 0 1 none :=
  (sweeps_once_iff resetPersona startedSweep 2 0 1 none sweepRun_startedSweep).1
    ⟨by decide, by decide +kernel⟩

/-- Base and offset are zero, and the memory goes on answering, two cycles after each read. -/
def zeroSweep : Nat → PersonaIn := hostSweep 0 0 fun t => decide (11 ≤ t ∧ t % 7 = 4)

theorem sweepRun_zeroSweep : SweepRun resetPersona zeroSweep 2 0 0 none := by
  refine sweepRun_hostSweep (by decide) fun t _ hbusy => ?_
  refine reports_of_answers isReset_resetPersona.ddrWrRd.wf runs_hostSweep
    (fun t => ⟨t, Nat.le_refl t, rfl⟩) (fun t _ => ⟨7 * t + 11, by omega, ?_⟩) hbusy
  show decide (11 ≤ 7 * t + 11 ∧ (7 * t + 11) % 7 = 4) = true
  exact decide_eq_true (by omega)

/-- The address is launched a second time in cycle 14. -/
theorem sweeps_zero_twice :
    SweepRun resetPersona zeroSweep 2 0 0 none ∧ ¬ SweepsOnce resetPersona zeroSweep 0 0 none := by
  refine ⟨sweepRun_zeroSweep, fun honce => ?_⟩
  have htwice : launched (resetPersona.marked zeroSweep 15) = [0, 0] := by decide +kernel
  have hprefix := (honce.inOrder 15 nofun).length_le
  rw [htwice] at hprefix
  exact absurd hprefix (by decide)

end FpgaPartialReconfig.Ddr4
