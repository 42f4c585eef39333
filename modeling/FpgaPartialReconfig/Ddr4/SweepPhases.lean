/-
  The phases of a sweep that is under way.

  From the fourth cycle after the start edge on, traffic generator and engine take turns: at
  an address the engine is launched (`Launching`) and runs (`Running`) until it reports, and
  the address counts up, until the final one is launched (`Ending`). `Phase` ties this to the
  marks of the run so far, `phase_until` keeps it up to the next start edge, and
  `leadsTo_final` says that the final address is reached, from whatever address the sweep
  set out.
-/
import FpgaPartialReconfig.Ddr4.SweepRun

namespace FpgaPartialReconfig.Ddr4

open Clock

section
variable (p : Persona) (inp : Nat → PersonaIn) (b f : BitVec 32)

/-- The engine is about to enter WRITE at `a`. -/
structure Launching (a : Address) (t : Nat) : Prop where
  sweeping : Sweeping b f .active a (p.at inp t)
  idle : (p.at inp t).ddrWrRd.currState = .idle

/-- The engine is at its operation at `a`. -/
structure Running (a : Address) (t : Nat) : Prop where
  sweeping : Sweeping b f .wait a (p.at inp t)
  busy : (p.at inp t).ddrWrRd.currState ≠ .idle
  address : (p.at inp t).ddrWrRd.referenceAddr = a

/-- A sweep that set out from `a` after the marks `before`, and the `k`-th address from
    there. `Goes k` is what the addresses it runs at satisfy. -/
inductive Phase (a : Address) (before : List Mark) (Goes : Nat → Prop) (t : Nat) : Prop where
  | launching (k : Nat) (hk : k = 0 ∨ Goes (k - 1))
      (h : Launching p inp b f (a + BitVec.ofNat 25 k) t)
      (hmarks : p.marked inp t = before ++ operationsFrom a k)
  | running (k : Nat) (hk : Goes k) (h : Running p inp b f (a + BitVec.ofNat 25 k) t)
      (hmarks : p.marked inp t =
        before ++ (operationsFrom a k ++ [.launched (a + BitVec.ofNat 25 k)]))
  | ending (k : Nat) (hk : k = 0 ∨ Goes (k - 1)) (hfinal : a + BitVec.ofNat 25 k = finalOf b f)
      (h : Ending b f (p.at inp t)) (hwrite : (p.at inp t).ddrWrRd.currState = .write)
      (hmarks : p.marked inp t =
        before ++ (operationsFrom a k ++ [.launched (a + BitVec.ofNat 25 k)]))
  | resting (k : Nat) (hk : k = 0 ∨ Goes (k - 1)) (hfinal : a + BitVec.ofNat 25 k = finalOf b f)
      (h : AtRest false false (p.at inp t))
      (hlaunched : launched (p.marked inp t) = launched before ++ addressesFrom a (k + 1))

end

section
variable {p : Persona} {inp : Nat → PersonaIn} {s : Nat} {b f : BitVec 32} {next : Option Nat}
  {a : Address} {t : Nat}

theorem next_address (a : Address) (k : Nat) :
    a + BitVec.ofNat 25 k + 1 = a + BitVec.ofNat 25 (k + 1) := by
  rw [BitVec.ofNat_add, BitVec.add_assoc]
  rfl

namespace SweepRun
variable (h : SweepRun p inp s b f next)
include h

/-! ## One cycle -/

theorem launching_marks (hnext : ∀ n ∈ next, t < n) (hl : Launching p inp b f a t) :
    p.marked inp (t + 1) = p.marked inp t ++ [.launched a] := by
  rw [marked_succ, (hl.sweeping.launch (h.runs t hnext) hl.idle).1]

theorem launching_step (hst : s < t) (hnext : ∀ n ∈ next, t < n)
    (hl : Launching p inp b f a t) (ha : a ≠ finalOf b f) :
    Running p inp b f a (t + 1) := by
  obtain ⟨-, hdone, hwrite, haddress⟩ := hl.sweeping.launch (h.runs t hnext) hl.idle
  have hwait := hl.sweeping.active_step (h.runs t hnext) (h.holds t (by omega) hnext)
    (h.only t (by omega) hnext) ha
  rw [hdone] at hwait
  refine ⟨hwait, ?_, haddress⟩
  rw [at_succ, hwrite]
  decide

theorem launching_final (hst : s < t) (hnext : ∀ n ∈ next, t < n)
    (hl : Launching p inp b f (finalOf b f) t) (hne : finalOf b f ≠ 0) :
    Ending b f (p.at inp (t + 1)) ∧ (p.at inp (t + 1)).ddrWrRd.currState = .write := by
  obtain ⟨-, hdone, hwrite, -⟩ := hl.sweeping.launch (h.runs t hnext) hl.idle
  exact ⟨hl.sweeping.final_step (h.runs t hnext) (h.holds t (by omega) hnext)
    (h.only t (by omega) hnext) hdone hne, hwrite⟩

omit h in
theorem running_marks (hr : Running p inp b f a t) :
    p.marked inp (t + 1) = p.marked inp t ++
      if (p.at inp t).ddrWrRd.done = true then [.reported a] else [] := by
  rw [marked_succ, marks_of_busy hr.busy, hr.address]

theorem running_wait (hst : s < t) (hnext : ∀ n ∈ next, t < n) (hr : Running p inp b f a t)
    (hdone : (p.at inp t).ddrWrRd.done = false) :
    Running p inp b f a (t + 1) := by
  obtain ⟨hidle, haddress⟩ := hr.sweeping.engine.busy_step (h.runs t hnext).wrRdIn hr.busy
  refine ⟨hr.sweeping.wait_step (h.runs t hnext) (h.holds t (by omega) hnext)
    (h.only t (by omega) hnext) hdone, ?_, haddress.trans hr.address⟩
  intro hgone
  exact absurd (hdone.symm.trans (hidle.mp hgone)) (by decide)

theorem running_report (hst : s < t) (hnext : ∀ n ∈ next, t < n) (hr : Running p inp b f a t)
    (hdone : (p.at inp t).ddrWrRd.done = true) :
    Launching p inp b f (a + 1) (t + 1) := by
  obtain ⟨hidle, -⟩ := hr.sweeping.engine.busy_step (h.runs t hnext).wrRdIn hr.busy
  exact ⟨hr.sweeping.report_step (h.runs t hnext) (h.holds t (by omega) hnext)
    (h.only t (by omega) hnext) hdone, hidle.mpr hdone⟩

/-! ## Up to the next start edge -/

variable {before : List Mark} {Goes : Nat → Prop}

theorem phase_step (hf : f.toNat ≠ 0)
    (hgoes : ∀ k, (k = 0 ∨ Goes (k - 1)) → a + BitVec.ofNat 25 k ≠ finalOf b f → Goes k)
    (hst : s < t) (hnext : ∀ n ∈ next, t < n) (hp : Phase p inp b f a before Goes t) :
    Phase p inp b f a before Goes (t + 1) := by
  have hne := h.final_ne_zero hf
  cases hp with
  | launching k hk hl hmarks =>
    have hmore : p.marked inp (t + 1) =
        before ++ (operationsFrom a k ++ [.launched (a + BitVec.ofNat 25 k)]) := by
      rw [h.launching_marks hnext hl, hmarks, List.append_assoc]
    by_cases hfinal : a + BitVec.ofNat 25 k = finalOf b f
    · have hl' := hl
      rw [hfinal] at hl'
      obtain ⟨hending, hwrite⟩ := h.launching_final hst hnext hl' hne
      exact .ending k hk hfinal hending hwrite hmore
    · exact .running k (hgoes k hk hfinal) (h.launching_step hst hnext hl hfinal) hmore
  | running k hk hr hmarks =>
    have hmore := running_marks hr
    cases hdone : (p.at inp t).ddrWrRd.done with
    | false =>
      rw [hdone, hmarks] at hmore
      exact .running k hk (h.running_wait hst hnext hr hdone) (hmore.trans (List.append_nil _))
    | true =>
      have hlaunching := h.running_report hst hnext hr hdone
      rw [next_address] at hlaunching
      rw [hdone, hmarks] at hmore
      refine .launching (k + 1) (.inr hk) hlaunching ?_
      rw [hmore, operationsFrom_succ]
      simp
  | ending k hk hfinal hending hwrite hmarks =>
    refine .resting k hk hfinal (hending.step (h.runs t hnext) (h.only t (by omega) hnext) hne) ?_
    rw [launched_succ_of_not hending.not_launches, hmarks, launched_append, launched_append,
      launched_operationsFrom, addressesFrom_succ]
    rfl
  | resting k hk hfinal hrest hlaunched =>
    refine .resting k hk hfinal (hrest.quiet_step (h.runs t hnext) (h.only t (by omega) hnext)) ?_
    rw [launched_succ_of_not hrest.not_launches, hlaunched]

theorem phase_until {u : Nat} (hf : f.toNat ≠ 0)
    (hgoes : ∀ k, (k = 0 ∨ Goes (k - 1)) → a + BitVec.ofNat 25 k ≠ finalOf b f → Goes k)
    (hst : s < t) (htu : t ≤ u) (hnext : ∀ n ∈ next, u ≤ n)
    (hp : Phase p inp b f a before Goes t) : Phase p inp b f a before Goes u := by
  induction u, htu using Nat.le_induction with
  | base => exact hp
  | succ u htu ih =>
    exact h.phase_step hf hgoes (by omega) hnext (ih fun n hn => Nat.le_of_lt (hnext n hn))

end SweepRun

/-! ## Getting to the end -/

theorem distance_lt {x y : Address} (h : x ≠ y) : (y - (x + 1)).toNat < (y - x).toNat := by
  have hne : x.toNat ≠ y.toNat := fun heq => h (BitVec.eq_of_toNat_eq heq)
  bv_omega

variable (h : SweepRun p inp s b f none)
include h

theorem SweepRun.no_edge (hst : s < t) : ¬ (p.at inp t).StartEdge (inp t) :=
  h.only t (by omega) nofun

/-- Where the engine runs, it is launched at the next address. -/
theorem SweepRun.leadsTo_launching (hst : s < t) (hr : Running p inp b f a t) :
    ∃ u, t < u ∧ Launching p inp b f (a + 1) u := by
  have hwait : LeadsTo (fun t => s < t ∧ Running p inp b f a t)
      fun t => Launching p inp b f (a + 1) (t + 1) := by
    refine leadsTo_of_wait (G := fun t => (p.at inp t).ddrWrRd.done = true) ?_ ?_ ?_
    · intro t hparts hdone
      obtain ⟨hst, hr⟩ := hparts
      exact ⟨by omega, h.running_wait hst nofun hr (by simpa using hdone)⟩
    · intro t hparts hdone
      obtain ⟨hst, hr⟩ := hparts
      exact h.running_report hst nofun hr hdone
    · intro t hparts
      obtain ⟨hst, hr⟩ := hparts
      exact h.completes rfl t hst hr.busy
  obtain ⟨u, htu, hlaunching⟩ := hwait t ⟨hst, hr⟩
  exact ⟨u + 1, by omega, hlaunching⟩

/-- From every address the sweep gets to the final one. -/
theorem SweepRun.leadsTo_final (hst : s < t) (hl : Launching p inp b f a t) :
    ∃ u, t ≤ u ∧ Launching p inp b f (finalOf b f) u := by
  have hround : LeadsTo (fun t => s < t ∧ ∃ a, Launching p inp b f a t)
      fun t => Launching p inp b f (finalOf b f) t := by
    refine leadsTo_of_measure
      (fun t => (finalOf b f - (p.at inp t).trafficGenerator.targetAddress).toNat) ?_
    intro t hparts hnot
    obtain ⟨hst, a, hl⟩ := hparts
    have ha : a ≠ finalOf b f := by
      intro ha
      rw [ha] at hl
      exact hnot hl
    have hr := h.launching_step hst nofun hl ha
    obtain ⟨u, htu, hlaunching⟩ := h.leadsTo_launching (by omega) hr
    refine ⟨u, by omega, ⟨by omega, a + 1, hlaunching⟩, ?_⟩
    rw [hlaunching.sweeping.targetAddress, hl.sweeping.targetAddress]
    exact distance_lt ha
  exact hround t ⟨hst, a, hl⟩

omit h in
/-- The launches go on from the address the sweep set out from. -/
theorem Phase.launched_eq {before : List Mark} {Goes : Nat → Prop}
    (hp : Phase p inp b f a before Goes t) :
    ∃ k, launched (p.marked inp t) = launched before ++ addressesFrom a k := by
  cases hp with
  | launching k hk hl hmarks =>
    refine ⟨k, ?_⟩
    rw [hmarks, launched_append, launched_operationsFrom]
  | running k hk hr hmarks =>
    refine ⟨k + 1, ?_⟩
    rw [hmarks, launched_append, launched_append, launched_operationsFrom, addressesFrom_succ]
    rfl
  | ending k hk hfinal hending hwrite hmarks =>
    refine ⟨k + 1, ?_⟩
    rw [hmarks, launched_append, launched_append, launched_operationsFrom, addressesFrom_succ]
    rfl
  | resting k hk hfinal hrest hlaunched => exact ⟨k + 1, hlaunched⟩

omit h in
/-- A phase in which the engine is launched at the final address. -/
theorem Phase.at_final {before : List Mark} {Goes : Nat → Prop}
    (hp : Phase p inp b f a before Goes t) (hl : Launching p inp b f (finalOf b f) t) :
    ∃ k, (k = 0 ∨ Goes (k - 1)) ∧ a + BitVec.ofNat 25 k = finalOf b f ∧
      p.marked inp t = before ++ operationsFrom a k := by
  have hactive := hl.sweeping.traffic
  cases hp with
  | launching k hk hl' hmarks =>
    exact ⟨k, hk, hl'.sweeping.targetAddress.symm.trans hl.sweeping.targetAddress, hmarks⟩
  | running k hk hr => exact absurd (hactive.symm.trans hr.sweeping.traffic) (by decide)
  | ending k hk hfinal hending => exact absurd (hactive.symm.trans hending.traffic) (by decide)
  | resting k hk hfinal hrest => exact absurd (hactive.symm.trans hrest.traffic) (by decide)

/-! ## An engine that is still busy -/

omit h in
theorem launched_succ_of_busy (hbusy : (p.at inp t).ddrWrRd.currState ≠ .idle) :
    launched (p.marked inp (t + 1)) = launched (p.marked inp t) := by
  refine launched_succ_of_not ?_
  intro hlaunch
  exact hbusy ((launches_iff _ _).mp hlaunch).1

/-- The engine is busy with an earlier operation while the traffic generator waits at `base`;
    nothing has been launched by the sweep. -/
structure Overtaking (p : Persona) (inp : Nat → PersonaIn) (b f : BitVec 32) (base : Address)
    (t : Nat) : Prop where
  sweeping : Sweeping b f .wait base (p.at inp t)
  busy : (p.at inp t).ddrWrRd.currState ≠ .idle
  launched : launched (p.marked inp t) = []

/-- The report that ends the wait is that of the earlier operation. -/
theorem SweepRun.overtaking_ends (hst : s < t)
    (hwaiting : Overtaking p inp b f (b.setWidth 25) t) :
    ∃ u, t ≤ u ∧ Launching p inp b f (b.setWidth 25 + 1) (u + 1) ∧
      launched (p.marked inp (u + 1)) = [] := by
  have hleads : LeadsTo (fun t => s < t ∧ Overtaking p inp b f (b.setWidth 25) t)
      fun t => Launching p inp b f (b.setWidth 25 + 1) (t + 1) ∧
        launched (p.marked inp (t + 1)) = [] := by
    refine leadsTo_of_wait (G := fun t => (p.at inp t).ddrWrRd.done = true) ?_ ?_ ?_
    · intro t hparts hnot
      obtain ⟨hst, hw⟩ := hparts
      have hnotdone : (p.at inp t).ddrWrRd.done = false := by simpa using hnot
      obtain ⟨hiff, -⟩ := hw.sweeping.engine.busy_step (h.runs t nofun).wrRdIn hw.busy
      refine ⟨by omega, ?_, fun hnext => hnot (hiff.mp hnext), ?_⟩
      · exact hw.sweeping.wait_step (h.runs t nofun) (h.holds t (by omega) nofun)
          (h.no_edge hst) hnotdone
      · rw [launched_succ_of_busy hw.busy, hw.launched]
    · intro t hparts hdone
      obtain ⟨hst, hw⟩ := hparts
      obtain ⟨hiff, -⟩ := hw.sweeping.engine.busy_step (h.runs t nofun).wrRdIn hw.busy
      refine ⟨⟨?_, hiff.mpr hdone⟩, ?_⟩
      · exact hw.sweeping.report_step (h.runs t nofun) (h.holds t (by omega) nofun)
          (h.no_edge hst) hdone
      · rw [launched_succ_of_busy hw.busy, hw.launched]
    · intro t hparts
      obtain ⟨hst, hw⟩ := hparts
      exact h.completes rfl t hst hw.busy
  exact hleads t ⟨hst, hwaiting⟩

/-- The report comes while the traffic generator is ACTIVE: it counts on, and the engine is
    launched at the address after the base. -/
theorem SweepRun.runs_after_base (hst : s < t)
    (hwait : Sweeping b f .wait (b.setWidth 25 + 1) (p.at inp t))
    (hidle : (p.at inp t).ddrWrRd.currState = .idle) :
    Running p inp b f (b.setWidth 25 + 1) (t + 1) ∧
      p.marked inp (t + 1) = p.marked inp t ++ [.launched (b.setWidth 25 + 1)] := by
  obtain ⟨hmarks, hdone, hwrite, haddress⟩ :=
    Sweeping.launch (p := p.at inp t) hwait (h.runs t nofun) hidle
  refine ⟨⟨?_, ?_, haddress⟩, ?_⟩
  · exact Sweeping.wait_step (p := p.at inp t) hwait (h.runs t nofun)
      (h.holds t (by omega) nofun) (h.no_edge hst) hdone
  · rw [at_succ, hwrite]
    decide
  · rw [marked_succ, hmarks]

/-- The traffic generator takes the report of an earlier operation for that at the base. -/
theorem SweepRun.skips_base (hf : f.toNat ≠ 0)
    (hbusy : (p.at inp (s + 4)).ddrWrRd.currState ≠ .idle) :
    ∃ (t : Nat) (before : List Mark), s + 4 ≤ t ∧ launched before = [] ∧
      Phase p inp b f (b.setWidth 25 + 1) before (fun _ => True) t ∧
      ∃ u, t ≤ u ∧ Launching p inp b f (finalOf b f) u := by
  have hsweeping := h.sweeping nofun (fun hzero => hf hzero.1)
  have hbase : b.setWidth 25 ≠ finalOf b f := fun heq => hf (h.base_eq_final.mp heq)
  have hwait := hsweeping.active_step (h.runs (s + 4) nofun) (h.holds (s + 4) (by omega) nofun)
    (h.no_edge (by omega)) hbase
  obtain ⟨hidle, -⟩ := hsweeping.engine.busy_step (h.runs (s + 4) nofun).wrRdIn hbusy
  have hnone : launched (p.marked inp (s + 5)) = [] := by
    rw [launched_succ_of_busy hbusy, h.launched_start (Nat.le_refl _) nofun]
  have hzero : b.setWidth 25 + 1 + BitVec.ofNat 25 0 = b.setWidth 25 + 1 := BitVec.add_zero _
  cases hdone : (p.at inp (s + 4)).ddrWrRd.done with
  | true =>
    rw [hdone] at hwait
    obtain ⟨hrunning, hmarks⟩ := h.runs_after_base (t := s + 5) (by omega) hwait
      (hidle.mpr hdone)
    obtain ⟨u, hu, hlaunching⟩ := h.leadsTo_launching (by omega) hrunning
    obtain ⟨v, hv, hfinal⟩ := h.leadsTo_final (by omega) hlaunching
    refine ⟨s + 6, p.marked inp (s + 5), by omega, hnone, .running 0 trivial ?_ ?_, v,
      by omega, hfinal⟩
    · rw [hzero]
      exact hrunning
    · rw [hmarks, hzero]
      rfl
  | false =>
    rw [hdone] at hwait
    have hbusy₅ : (p.at inp (s + 5)).ddrWrRd.currState ≠ .idle := by
      intro hnext
      exact absurd (hdone.symm.trans (hidle.mp hnext)) (by decide)
    obtain ⟨u, hu, hlaunching, hl⟩ := h.overtaking_ends (t := s + 5) (by omega)
      ⟨hwait, hbusy₅, hnone⟩
    obtain ⟨v, hv, hfinal⟩ := h.leadsTo_final (by omega) hlaunching
    refine ⟨u + 1, p.marked inp (u + 1), by omega, hl, .launching 0 (.inl rfl) ?_ ?_, v, hv,
      hfinal⟩
    · rw [hzero]
      exact hlaunching
    · exact (List.append_nil _).symm

end

end FpgaPartialReconfig.Ddr4
