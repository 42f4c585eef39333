/-
  What the host can conclude from a busy flag that is clear.

  The host polls `busy_reg` and then compares the performance counter with the number of
  operations of the sweep. It does not wait for the flag to rise: it writes the start bit,
  takes it back, both times with the driver's reading after the write, and gets to the flag
  in the third cycle after the start edge at the earliest, when it can be up.

  `busy_reg` follows the traffic generator, which is through with the sweep as soon as it has
  launched the engine at the final address: the last operation has then not even written. So
  the flag falls one operation too early in every sweep that ends (`busy_falls_early`). A
  sweep with an offset of zero does not begin, unless its base is zero, too: the host sees
  the flag clear at once, and a counter of zero (`refused_reading`). `BusyMeansBusy` is left
  with base and offset zero, where the flag never gets clear again.
-/
import FpgaPartialReconfig.Ddr4.SweepOnce

namespace FpgaPartialReconfig.Ddr4

open Clock

/-- `busy_reg` is high in cycle `t` and low in the next one. -/
def BusyFalls (p : Persona) (inp : Nat → PersonaIn) (t : Nat) : Prop :=
  (p.at inp t).memAccess.busyReg = true ∧ (p.at inp (t + 1)).memAccess.busyReg = false

/-- What a clear leaves that no sweep has followed yet: it resets counter and engine. -/
structure CounterCleared (p : Persona) : Prop where
  performanceCntr : p.performanceCntr = 0
  engine : p.ddrWrRd.currState = .idle

/-- When `busy_reg` falls all operations of the sweep have reported; and a host that sees it
    clear, once it can have risen, reads a counter of as many from then on, if it was cleared
    before the sweep and none has failed. -/
structure BusyMeansBusy (p : Persona) (inp : Nat → PersonaIn) (s : Nat) (b f : BitVec 32)
    (next : Option Nat) : Prop where
  reported : ∀ t, s ≤ t → (∀ n ∈ next, t < n) → BusyFalls p inp t →
    reported (p.marked inp (t + 1)) = addresses b f
  counted : CounterCleared (p.at inp s) → ∀ t, s + 3 ≤ t →
    (p.at inp t).prHost.2 = false → ∀ u, t ≤ u → (∀ n ∈ next, u ≤ n) →
    (∀ v, s ≤ v → v < u → (p.at inp v).ddrWrRd.fail = false) →
    (p.at inp u).prHost.1 = f + 1

section
variable {p : Persona} {inp : Nat → PersonaIn} {s : Nat} {b f : BitVec 32} {next : Option Nat}

/-! ## An offset of zero -/

/-- In the three cycles after the start edge `busy_reg` is not set yet. -/
theorem SweepRun.not_busy (h : SweepRun p inp s b f next) {t : Nat} (hst : s ≤ t)
    (hts : t < s + 3) (hnext : ∀ n ∈ next, t < n) :
    (p.at inp t).memAccess.busyReg = false := by
  obtain rfl | rfl | rfl : t = s ∨ t = s + 1 ∨ t = s + 2 := by omega
  · exact (h.at_rest (Nat.le_refl t)).busyReg
  · exact h.pulse.busyReg
  · have hrest := (h.operation fun n hn => by have := hnext n hn; omega).1
    exact hrest.busyReg

/-- With base and offset zero it is high from then on. -/
theorem SweepRun.always_busy (h : SweepRun p inp s b f next) (hzero : f.toNat = 0)
    (hbase : b.setWidth 25 = (0 : Address)) {t : Nat} (hst : s + 3 ≤ t)
    (hnext : ∀ n ∈ next, t ≤ n) : (p.at inp t).memAccess.busyReg = true := by
  rcases h.begins_again hzero hbase hst hnext with harmed | hsweeping
  · rw [harmed.memAccess]
  · rw [hsweeping.memAccess]

/-- With another base the persona is at rest again. -/
theorem SweepRun.never_busy (h : SweepRun p inp s b f next) (hzero : f.toNat = 0)
    (hbase : b.setWidth 25 ≠ (0 : Address)) {t : Nat} (hst : s + 3 ≤ t)
    (hnext : ∀ n ∈ next, t ≤ n) : AtRest false false (p.at inp t) :=
  h.rest_forever (by omega) hst hnext
    (h.refused (fun n hn => by have := hnext n hn; omega) hzero hbase)

theorem SweepRun.busy_never_falls (h : SweepRun p inp s b f next) (hzero : f.toNat = 0)
    {t : Nat} (hst : s ≤ t) (hnext : ∀ n ∈ next, t < n) : ¬ BusyFalls p inp t := by
  intro hparts
  obtain ⟨hbusy, hfalls⟩ := hparts
  rcases Nat.lt_or_ge t (s + 3) with hts | hts
  · exact absurd (hbusy.symm.trans (h.not_busy hst hts hnext)) (by decide)
  · by_cases hbase : b.setWidth 25 = (0 : Address)
    · have hon := h.always_busy hzero hbase (Nat.le_succ_of_le hts) hnext
      exact absurd (hon.symm.trans hfalls) (by decide)
    · have hrest := h.never_busy hzero hbase hts fun n hn => Nat.le_of_lt (hnext n hn)
      exact absurd (hbusy.symm.trans hrest.busyReg) (by decide)

/-- An idle engine that is not started leaves the counter alone. -/
theorem CounterCleared.step {p : Persona} {i : PersonaIn} (h : CounterCleared p) (hi : p.Runs i)
    (hlow : p.trafficGenerator.startDdrWrRd = false) (hwf : p.ddrWrRd.Wf) :
    CounterCleared (p.step i) := by
  have hnone := hwf.not_done h.engine
  unfold WrRd.done at hnone
  have hpass : p.ddrWrRd.pass = false := (Bool.or_eq_false_iff.mp hnone).1
  constructor
  · rw [Persona.step_performanceCntr hi, hpass, h.performanceCntr]
    rfl
  · have hengine : (p.step i).ddrWrRd = _ := WrRd.step_idle hi.wrRdIn h.engine hlow
    rw [hengine]
    exact h.engine

/-- What a host reads after a start that has been refused. -/
theorem SweepRun.refused_reading (h : SweepRun p inp s b f next) (hzero : f.toNat = 0)
    (hbase : b.setWidth 25 ≠ (0 : Address)) (hcleared : CounterCleared (p.at inp s)) {t : Nat}
    (hst : s ≤ t) (hnext : ∀ n ∈ next, t ≤ n) :
    CounterCleared (p.at inp t) ∧ (p.at inp t).ddrWrRd.fail = false := by
  have hrest : ∀ u, s ≤ u → (∀ n ∈ next, u ≤ n) → ∃ pulse operation,
      AtRest pulse operation (p.at inp u) := by
    intro u hsu hu
    obtain rfl | rfl | rfl | hlate : u = s ∨ u = s + 1 ∨ u = s + 2 ∨ s + 3 ≤ u := by omega
    · exact ⟨_, _, h.at_rest (Nat.le_refl u)⟩
    · exact ⟨_, _, h.pulse⟩
    · exact ⟨_, _, (h.operation fun n hn => by have := hu n hn; omega).1⟩
    · exact ⟨_, _, h.never_busy hzero hbase hlate hu⟩
  have hcounter : CounterCleared (p.at inp t) := by
    induction t, hst using Nat.le_induction with
    | base => exact hcleared
    | succ t hst ih =>
      have hbefore : ∀ n ∈ next, t ≤ n := fun n hn => Nat.le_of_lt (hnext n hn)
      obtain ⟨pulse, operation, hquiet⟩ := hrest t hst hbefore
      exact (ih hbefore).step (h.runs t hnext) hquiet.startDdrWrRd hquiet.engine
  obtain ⟨pulse, operation, hquiet⟩ := hrest t hst hnext
  have hnone := hquiet.engine.not_done hcounter.engine
  unfold WrRd.done at hnone
  exact ⟨hcounter, (Bool.or_eq_false_iff.mp hnone).2⟩

/-- It sees the flag clear, and the counter at zero. -/
theorem SweepRun.not_counted (h : SweepRun p inp s b f none) (hzero : f.toNat = 0)
    (hbase : b.setWidth 25 ≠ (0 : Address)) (hcleared : CounterCleared (p.at inp s)) :
    ¬ BusyMeansBusy p inp s b f none := by
  intro hbusy
  have hclear : (p.at inp (s + 3)).prHost.2 = false :=
    (h.never_busy hzero hbase (Nat.le_refl _) nofun).busyReg
  have hcount : (p.at inp (s + 3)).prHost.1 = f + 1 :=
    hbusy.counted hcleared (s + 3) (Nat.le_refl _) hclear (s + 3) (Nat.le_refl _) nofun
      fun v hsv _ => (h.refused_reading hzero hbase hcleared hsv nofun).2
  have hread : (p.at inp (s + 3)).prHost.1 = 0 :=
    (h.refused_reading hzero hbase hcleared (show s ≤ s + 3 by omega) nofun).1.performanceCntr
  have hf : f = 0 := BitVec.eq_of_toNat_eq hzero
  rw [hread, hf] at hcount
  exact absurd hcount (by decide)

/-! ## Any other offset -/

variable (h : SweepRun p inp s b f none)
include h

/-- Two cycles after the last launch `busy_reg` is low, and the engine is still in WRITE in
    the cycle between. -/
theorem SweepRun.falls_after_final {u : Nat} (hf : f.toNat ≠ 0) (hst : s < u)
    (hl : Launching p inp b f (finalOf b f) u) :
    BusyFalls p inp (u + 1) ∧
      p.marked inp (u + 2) = p.marked inp u ++ [.launched (finalOf b f)] := by
  have hne := h.final_ne_zero hf
  obtain ⟨hending, hwrite⟩ := h.launching_final hst nofun hl hne
  have hrest : AtRest false false (p.at inp (u + 2)) :=
    hending.step (h.runs (u + 1) nofun) (h.no_edge (by omega)) hne
  have hbusy : (p.at inp (u + 1)).memAccess.busyReg = true := by rw [hending.memAccess]
  have hdone : ¬ (p.at inp (u + 1)).ddrWrRd.done = true := by
    rw [hending.engine.done, hwrite]
    decide
  have hengine : (p.at inp (u + 1)).ddrWrRd.currState ≠ .idle := by
    rw [hwrite]
    decide
  refine ⟨⟨hbusy, hrest.busyReg⟩, ?_⟩
  rw [marked_succ, marks_of_busy hengine, if_neg hdone, List.append_nil,
    h.launching_marks nofun hl]

/-- The operations that have reported when `busy_reg` falls: those at the addresses from
    where the sweep set out up to the final one, without it. -/
theorem SweepRun.falls_of_phase {a : Address} {before : List Mark} {Goes : Nat → Prop} {u : Nat}
    (hf : f.toNat ≠ 0) (hst : s < u) (hbefore : launched before = [])
    (hp : Phase p inp b f a before Goes u) (hl : Launching p inp b f (finalOf b f) u) :
    ∃ k, a + BitVec.ofNat 25 k = finalOf b f ∧ BusyFalls p inp (u + 1) ∧
      reported (p.marked inp (u + 2)) = addressesFrom a k := by
  obtain ⟨k, -, hfinal, hmarks⟩ := hp.at_final hl
  obtain ⟨hfalls, hmarked⟩ := h.falls_after_final hf hst hl
  refine ⟨k, hfinal, hfalls, ?_⟩
  rw [hmarked, hmarks, ← hfinal, List.append_assoc, reported_append_of_not_launched _ hbefore,
    reported_operationsFrom]

/-- Every sweep with an offset of at least one ends with `busy_reg` falling while the last
    operation has not reported. -/
theorem SweepRun.busy_falls_early (hf : f.toNat ≠ 0) :
    ∃ t a k, s ≤ t ∧ BusyFalls p inp t ∧ a + BitVec.ofNat 25 k = finalOf b f ∧
      (a = b.setWidth 25 ∨ a = b.setWidth 25 + 1) ∧
      reported (p.marked inp (t + 1)) = addressesFrom a k := by
  by_cases hidle : (p.at inp (s + 4)).ddrWrRd.currState = .idle
  · have hstart : Launching p inp b f (b.setWidth 25) (s + 4) :=
      ⟨h.sweeping nofun (fun hzero => hf hzero.1), hidle⟩
    obtain ⟨u, hu, hl⟩ := h.leadsTo_final (by omega) hstart
    have hphase := h.phase hf hidle hu nofun nofun
    obtain ⟨k, hfinal, hfalls, hreported⟩ :=
      h.falls_of_phase hf (by omega) (h.launched_start (Nat.le_refl _) nofun) hphase hl
    exact ⟨u + 1, _, k, by omega, hfalls, hfinal, .inl rfl, hreported⟩
  · obtain ⟨t, before, hst, hbefore, hphase, u, hu, hl⟩ := h.skips_base hf hidle
    have hlater := h.phase_until hf (fun _ _ _ => trivial) (by omega) hu nofun hphase
    obtain ⟨k, hfinal, hfalls, hreported⟩ :=
      h.falls_of_phase hf (by omega) hbefore hlater hl
    exact ⟨u + 1, _, k, by omega, hfalls, hfinal, .inr rfl, hreported⟩

theorem SweepRun.not_busyMeansBusy (hf : f.toNat ≠ 0) :
    ¬ BusyMeansBusy p inp s b f none := by
  intro hbusy
  obtain ⟨t, a, k, hst, hfalls, hfinal, ha, hreported⟩ := h.busy_falls_early hf
  have hall := hbusy.reported t hst nofun hfalls
  rw [hreported, addresses_eq] at hall
  -- as many addresses as the sweep has, from where it set out, reach beyond the final one
  have hk : k = f.toNat + 1 := by
    rw [← addressesFrom_length a k, hall, addressesFrom_length]
  have hbeyond : ∃ d, d ≤ 1 ∧
      b.setWidth 25 + BitVec.ofNat 25 (f.toNat + 1 + d) = finalOf b f := by
    rw [hk] at hfinal
    rcases ha with rfl | rfl
    · exact ⟨0, by decide, hfinal⟩
    · refine ⟨1, Nat.le_refl 1, ?_⟩
      rw [← next_address, BitVec.add_assoc, BitVec.add_comm _ 1, ← BitVec.add_assoc]
      exact hfinal
  obtain ⟨d, hd, hsame⟩ := hbeyond
  have hrange := h.range
  rw [base_add, finalOf_eq] at hsame
  have hnat := congrArg BitVec.toNat hsame
  rw [BitVec.toNat_ofNat, BitVec.toNat_ofNat] at hnat
  omega

end

/-! ## When busy means busy -/

theorem base_eq_zero {b f : BitVec 32} (hrange : b.toNat + f.toNat < 2 ^ 25) :
    b.setWidth 25 = (0 : Address) ↔ b = 0 := by
  rw [base_eq, show (0 : Address) = BitVec.ofNat 25 0 from rfl,
    ofNat_inj (by omega) (by decide), ← BitVec.toNat_inj]
  rfl

/-- A clear busy flag says what it should of the sweeps with base and offset zero, where the
    host never sees it, and of no other; but without a clear before the sweep nothing is said
    about the counter, and then a sweep with offset zero will do. -/
theorem busy_means_busy_iff (p : Persona) (inp : Nat → PersonaIn) (s : Nat) (b f : BitVec 32)
    (next : Option Nat) (h : SweepRun p inp s b f next) :
    (f = 0 ∧ (b = 0 ∨ ¬ CounterCleared (p.at inp s)) → BusyMeansBusy p inp s b f next) ∧
      (next = none → BusyMeansBusy p inp s b f next →
        f = 0 ∧ (b = 0 ∨ ¬ CounterCleared (p.at inp s))) := by
  have hbase := base_eq_zero h.range
  constructor
  · intro hparts
    obtain ⟨rfl, hzero⟩ := hparts
    constructor
    · intro t hst hnext hfalls
      exact absurd hfalls (h.busy_never_falls rfl hst hnext)
    · intro hcleared t hst hclear u htu hnext
      have hb : b = 0 := hzero.resolve_right fun hnot => hnot hcleared
      have hon := h.always_busy rfl (hbase.mpr hb) hst fun n hn => Nat.le_trans htu (hnext n hn)
      exact absurd (hon.symm.trans hclear) (by decide)
  · intro hnext hbusy
    subst hnext
    have hf : f.toNat = 0 := by
      by_contra hf
      exact h.not_busyMeansBusy hf hbusy
    refine ⟨BitVec.eq_of_toNat_eq hf, ?_⟩
    by_contra hnot
    rw [not_or, not_not] at hnot
    exact h.not_counted hf (fun hb => hnot.1 (hbase.mp hb)) hnot.2 hbusy

theorem busy_means_busy_zeroSweep : BusyMeansBusy resetPersona zeroSweep 2 0 0 none :=
  (busy_means_busy_iff resetPersona zeroSweep 2 0 0 none sweepRun_zeroSweep).1 ⟨rfl, .inl rfl⟩

/-- The busy flag falls between the cycles 14 and 15, and the second operation reports in
    cycle 19. -/
theorem busy_falls_startedSweep :
    SweepRun resetPersona startedSweep 2 0 1 none ∧
      ¬ BusyMeansBusy resetPersona startedSweep 2 0 1 none := by
  refine ⟨sweepRun_startedSweep, fun hbusy => ?_⟩
  have hfalls : BusyFalls resetPersona startedSweep 14 := by
    constructor <;> decide +kernel
  have hreported := hbusy.reported 14 (by decide) nofun hfalls
  have hone : reported (resetPersona.marked startedSweep 15) = [0] := by decide +kernel
  rw [hone] at hreported
  exact absurd hreported (by decide)

end FpgaPartialReconfig.Ddr4
