/-
  Whether the comparator loses a pair or blocks.

  Responses of one type may run ahead of what is expected by as many as fit in their FIFO. One
  more, and the sorter waits with it in its hands, while behind it is the response that the
  comparator waits for. So all is well exactly if no response has more than 10 responses of the
  other type before it that are not expected before it, and nothing is idle
  (`never_loses_iff`). The order in which the processes take their turns does not matter.
-/
import FpgaPartialReconfig.Scoreboard.Comparator

namespace FpgaPartialReconfig.Scoreboard

open Clock Processes

section
variable {T : Type} (U : BlockingFifo T) (R : RspType T) (E M : List T) (sched : Nat → Process)

/-- After `t` turns of the schedule, with `E` to be expected and `M` to be seen. -/
def afterTurns (t : Nat) : SbComparator U.Fifo T :=
  cycles (turn (act U R)) (buildPhase U E M) sched t

/-- Every transaction is compared once and with its own response, and the sorter is never
    blocked for good. -/
structure NeverLoses : Prop where
  own : ∀ t, ∃ n, (afterTurns U R E M sched t).tests.map (fun r => (r.exp, r.mon)) =
    (E.take n).map fun e => (e, e)
  all : ∃ t, (afterTurns U R E M sched t).tests.map SimReport.exp = E
  sorter : ∀ t, ∃ u, t ≤ u ∧ (afterTurns U R E M sched u).sorterTr = none

end

/-! ## Only reads and writes are compared -/

section
variable {T : Type} {U : BlockingFifo T} {R : RspType T}

/-- What is in the two FIFOs and what comes from them. -/
structure Typed (R : RspType T) (s : SbComparator U.Fifo T) : Prop where
  read : ∀ m ∈ U.contents s.monfifoRead, R.request m ≠ .idle
  write : ∀ m ∈ U.contents s.monfifoWrite, R.request m ≠ .idle
  monTr : ∀ m, s.monTr = some m → R.request m ≠ .idle
  tests : ∀ r ∈ s.tests, R.request r.mon ≠ .idle

theorem typed_addTest {s : SbComparator U.Fifo T} {e m : T} (h : Typed R s)
    (hm : R.request m ≠ .idle) : Typed R (addTest U R s e m) where
  read := h.read
  write := h.write
  monTr m' hm' := by
    rw [← Option.some.inj hm']
    exact hm
  tests r hr := by
    rcases List.mem_append.mp hr with hr | hr
    · exact h.tests r hr
    · rw [List.mem_singleton.mp hr]
      exact hm

theorem typed_sortResponses {s s' : SbComparator U.Fifo T} (h : Typed R s)
    (hact : sortResponses U R s = some s') : Typed R s' := by
  unfold sortResponses at hact
  split at hact
  · obtain ⟨mf, -, rfl⟩ := Option.map_eq_some_iff.mp hact
    exact ⟨h.read, h.write, h.monTr, h.tests⟩
  · rename_i m hholding
    split at hact
    · rename_i hrequest
      obtain ⟨f, hput, rfl⟩ := Option.map_eq_some_iff.mp hact
      refine ⟨h.read, ?_, h.monTr, h.tests⟩
      intro m' hm'
      simp only [BlockingFifo.contents_of_put hput, List.mem_append, List.mem_singleton] at hm'
      rcases hm' with hm' | rfl
      · exact h.write m' hm'
      · rw [hrequest]
        exact Request.noConfusion
    · rename_i hrequest
      obtain ⟨f, hput, rfl⟩ := Option.map_eq_some_iff.mp hact
      refine ⟨?_, h.write, h.monTr, h.tests⟩
      intro m' hm'
      simp only [BlockingFifo.contents_of_put hput, List.mem_append, List.mem_singleton] at hm'
      rcases hm' with hm' | rfl
      · exact h.read m' hm'
      · rw [hrequest]
        exact Request.noConfusion
    · rw [← Option.some.inj hact]
      exact ⟨h.read, h.write, h.monTr, h.tests⟩

theorem typed_runPhase {s s' : SbComparator U.Fifo T} (h : Typed R s)
    (hact : runPhase U R s = some s') : Typed R s' := by
  unfold runPhase at hact
  split at hact
  · obtain ⟨ef, -, rfl⟩ := Option.map_eq_some_iff.mp hact
    exact ⟨h.read, h.write, h.monTr, h.tests⟩
  · rename_i e hwaiting
    split at hact
    · obtain ⟨mf, hget, rfl⟩ := Option.map_eq_some_iff.mp hact
      have hfront := BlockingFifo.contents_of_get hget
      have hwrite := h.write
      rw [hfront] at hwrite
      refine typed_addTest ⟨h.read, ?_, h.monTr, h.tests⟩ (hwrite _ List.mem_cons_self)
      intro m hm
      exact hwrite m (List.mem_cons_of_mem _ hm)
    · obtain ⟨mf, hget, rfl⟩ := Option.map_eq_some_iff.mp hact
      have hfront := BlockingFifo.contents_of_get hget
      have hread := h.read
      rw [hfront] at hread
      refine typed_addTest ⟨?_, h.write, h.monTr, h.tests⟩ (hread _ List.mem_cons_self)
      intro m hm
      exact hread m (List.mem_cons_of_mem _ hm)
    · split at hact
      · rw [← Option.some.inj hact]
        exact ⟨h.read, h.write, h.monTr, h.tests⟩
      · rename_i m hm
        rw [← Option.some.inj hact]
        exact typed_addTest h (h.monTr m hm)

theorem typed_act (p : Process) (s s' : SbComparator U.Fifo T) (h : Typed R s)
    (hact : act U R p s = some s') : Typed R s' := by
  unfold act at hact
  split at hact
  · exact nomatch hact
  · cases p with
    | predictor =>
      simp only at hact
      split at hact
      · exact nomatch hact
      · obtain ⟨f, -, rfl⟩ := Option.map_eq_some_iff.mp hact
        exact ⟨h.read, h.write, h.monTr, h.tests⟩
    | monitor =>
      simp only at hact
      split at hact
      · exact nomatch hact
      · obtain ⟨f, -, rfl⟩ := Option.map_eq_some_iff.mp hact
        exact ⟨h.read, h.write, h.monTr, h.tests⟩
    | sorter => exact typed_sortResponses h hact
    | comparator => exact typed_runPhase h hact

theorem typed_afterTurns (E M : List T) (sched : Nat → Process) (t : Nat) :
    Typed R (afterTurns U R E M sched t) := by
  have hempty : ∀ m ∈ U.contents (U.new 10), R.request m ≠ .idle := by
    intro m hm
    rw [U.contents_new] at hm
    exact absurd hm List.not_mem_nil
  apply cycles_inv _ _ _ (turn_inv (act U R) typed_act)
  exact ⟨hempty, hempty, fun _ hm => (nomatch hm),
    fun r hr => absurd hr List.not_mem_nil⟩

theorem not_idle_of_neverLoses {E M : List T} {sched : Nat → Process}
    (h : NeverLoses U R E M sched) : ∀ e ∈ E, R.request e ≠ .idle := by
  intro e he
  obtain ⟨t, ht⟩ := h.all
  obtain ⟨n, hn⟩ := h.own t
  rw [← ht] at he
  obtain ⟨r, hr, rfl⟩ := List.mem_map.mp he
  have hpair : (r.exp, r.mon) ∈ (E.take n).map fun e => (e, e) := by
    rw [← hn]
    exact List.mem_map_of_mem hr
  obtain ⟨e, -, hsame⟩ := List.mem_map.mp hpair
  obtain ⟨hexp, hmon⟩ := Prod.mk.inj hsame
  rw [← hexp, hmon]
  exact (typed_afterTurns E M sched t).tests r hr

/-! ## Runs without idle transactions -/

variable {E M : List T} {sched : Nat → Process}

/-- The turns of the sorter that the comparator is. -/
def sorterTurns (R : RspType T) (E M : List T) (sched : Nat → Process) (t : Nat) :
    Sorter Request T :=
  cycles (turn (Sorter.act R.request 10)) (Sorter.start E M) sched t

theorem view_afterTurns (hE : ∀ e ∈ E, R.request e ≠ .idle) (hM : ∀ m ∈ M, R.request m ≠ .idle)
    (t : Nat) : view U (afterTurns U R E M sched t) = sorterTurns R E M sched t := by
  unfold afterTurns sorterTurns
  rw [cycles_view sound_act act_view (sound_buildPhase hE hM), view_buildPhase]

/-- Same reads, same writes and nothing idle. -/
theorem ofKey_eq (hE : ∀ e ∈ E, R.request e ≠ .idle) (hM : ∀ m ∈ M, R.request m ≠ .idle)
    (hreads : Sorter.ofKey R.request .read M = Sorter.ofKey R.request .read E)
    (hwrites : Sorter.ofKey R.request .write M = Sorter.ofKey R.request .write E) (k : Request) :
    Sorter.ofKey R.request k M = Sorter.ofKey R.request k E := by
  have hnone : ∀ ts : List T, (∀ t ∈ ts, R.request t ≠ .idle) →
      Sorter.ofKey R.request .idle ts = [] := by
    intro ts hts
    unfold Sorter.ofKey
    rw [List.filter_eq_nil_iff]
    intro t ht
    rw [decide_eq_true_iff]
    exact hts t ht
  cases k with
  | read => exact hreads
  | write => exact hwrites
  | idle => rw [hnone M hM, hnone E hE]

theorem inv_sorterTurns (hkeys : ∀ k, Sorter.ofKey R.request k M = Sorter.ofKey R.request k E)
    (t : Nat) : Sorter.Inv R.request 10 E M (sorterTurns R E M sched t) :=
  cycles_inv _ _ _ (turn_inv _ (Sorter.inv_act hkeys)) Sorter.inv_start t

theorem done_view (s : SbComparator U.Fifo T) : (view U s).done = s.tests.map SimReport.exp := by
  unfold Sorter.done view
  rw [List.map_map]
  rfl

theorem neverLoses_of_withinReach (hE : ∀ e ∈ E, R.request e ≠ .idle)
    (hM : ∀ m ∈ M, R.request m ≠ .idle)
    (hkeys : ∀ k, Sorter.ofKey R.request k M = Sorter.ofKey R.request k E) (hfair : Fair sched)
    (hreach : Sorter.WithinReach R.request 10 E M) : NeverLoses U R E M sched := by
  have hview := @view_afterTurns T U R E M sched hE hM
  have hinv := @inv_sorterTurns T R E M sched hkeys
  obtain ⟨last, hstuck⟩ := eventually_stuck
    (@Sorter.measure_act Request T _ R.request 10) (Sorter.start E M) hfair
  obtain ⟨hdone, hholding⟩ := Sorter.finished_of_stuck (by decide) hkeys hreach (hinv last) hstuck
  constructor
  · intro t
    refine ⟨(sorterTurns R E M sched t).done.length, ?_⟩
    have hmatched : (afterTurns U R E M sched t).tests.map (fun r => (r.exp, r.mon)) =
        (sorterTurns R E M sched t).matched := congrArg Sorter.matched (hview t)
    rw [hmatched, (hinv t).matched_eq]
    exact congrArg _ (hinv t).done_eq_take
  · refine ⟨last, ?_⟩
    rw [← done_view, hview]
    exact hdone
  · intro t
    refine ⟨max last t, Nat.le_max_right last t, ?_⟩
    have hstays : sorterTurns R E M sched (max last t) = sorterTurns R E M sched last :=
      stuck_stays _ hstuck (Nat.le_max_left last t)
    have hsorter : (afterTurns U R E M sched (max last t)).sorterTr =
        (sorterTurns R E M sched (max last t)).holding := congrArg Sorter.holding (hview _)
    rw [hsorter, hstays]
    exact hholding

theorem withinReach_of_neverLoses (hM : ∀ m ∈ M, R.request m ≠ .idle)
    (hkeys : ∀ k, Sorter.ofKey R.request k M = Sorter.ofKey R.request k E)
    (h : NeverLoses U R E M sched) : Sorter.WithinReach R.request 10 E M := by
  intro done e rest front back hdone hfront hown k _
  by_contra hfar
  have hE := not_idle_of_neverLoses h
  have hbound : ∀ t, (sorterTurns R E M sched t).matched.length ≤ done.length := by
    intro t
    refine (cycles_inv (J := fun s => Sorter.Inv R.request 10 E M s ∧
      s.matched.length ≤ done.length) _ _ _ (turn_inv _ ?_) ⟨Sorter.inv_start, ?_⟩ t).2
    · intro p s s' hs hact
      exact ⟨Sorter.inv_act hkeys p s s' hs.1 hact,
        Sorter.matched_le hdone hfront hown (Nat.lt_of_not_le hfar) p s s' hs.1 hs.2 hact⟩
    · exact Nat.zero_le _
  obtain ⟨t, ht⟩ := h.all
  have hlength := hbound t
  rw [← @view_afterTurns T U R E M sched hE hM, view, List.length_map] at hlength
  have hall := congrArg List.length ht
  have hlonger := congrArg List.length hdone
  rw [List.length_map] at hall
  rw [List.length_append, List.length_cons] at hlonger
  omega

end

/-! ## How far the responses may run ahead -/

/-- Transactions by their type and a number. -/
def numbered : RspType (Request × Nat) where
  request := Prod.fst
  ignoreComparison _ := false
  compare e m := e == m

def processOf : Nat → Process
  | 0 => .predictor
  | 1 => .monitor
  | 2 => .sorter
  | _ => .comparator

/-- One turn of each process, again and again. -/
def roundRobin (t : Nat) : Process := processOf (t % 4)

theorem fair_roundRobin : Fair roundRobin := by
  have hturn : ∀ i < 4, ∀ t, roundRobin (4 * t + i) = processOf i := by
    intro i hi t
    have hmod : (4 * t + i) % 4 = i := by omega
    exact congrArg processOf hmod
  intro p t
  cases p with
  | predictor => exact ⟨4 * t + 0, by omega, hturn 0 (by decide) t⟩
  | monitor => exact ⟨4 * t + 1, by omega, hturn 1 (by decide) t⟩
  | sorter => exact ⟨4 * t + 2, by omega, hturn 2 (by decide) t⟩
  | comparator => exact ⟨4 * t + 3, by omega, hturn 3 (by decide) t⟩

def elevenReads : List (Request × Nat) := (List.range 11).map fun n => (.read, n)

/-- Eleven reads come back before the write that is expected first. -/
theorem blocked_by_reads :
    (elevenReads ++ [(Request.write, 0)]).Perm ((Request.write, 0) :: elevenReads) ∧
      (∀ k, Sorter.ofKey numbered.request k (elevenReads ++ [(Request.write, 0)]) =
        Sorter.ofKey numbered.request k ((Request.write, 0) :: elevenReads)) ∧
      Fair roundRobin ∧
      ¬ NeverLoses (BlockingFifo.lists (Request × Nat)) numbered
        ((Request.write, 0) :: elevenReads) (elevenReads ++ [(Request.write, 0)]) roundRobin := by
  have hkeys : ∀ k, Sorter.ofKey numbered.request k (elevenReads ++ [(Request.write, 0)]) =
      Sorter.ofKey numbered.request k ((Request.write, 0) :: elevenReads) := by
    intro k
    cases k <;> decide
  refine ⟨List.perm_append_singleton _ _, hkeys, fair_roundRobin, ?_⟩
  intro hnever
  have hreach := withinReach_of_neverLoses (by decide) hkeys hnever [] (Request.write, 0)
    elevenReads elevenReads [] rfl rfl (by decide) .read (by decide)
  exact absurd hreach (by decide)

theorem never_loses_iff {T : Type} (U : BlockingFifo T) (R : RspType T) (E M : List T)
    (hperm : M.Perm E)
    (hreads : Sorter.ofKey R.request .read M = Sorter.ofKey R.request .read E)
    (hwrites : Sorter.ofKey R.request .write M = Sorter.ofKey R.request .write E)
    (sched : Nat → Process) (hfair : Fair sched) :
    NeverLoses U R E M sched ↔
      (∀ e ∈ E, R.request e ≠ .idle) ∧ Sorter.WithinReach R.request 10 E M := by
  have hresponses : (∀ e ∈ E, R.request e ≠ .idle) → ∀ m ∈ M, R.request m ≠ .idle :=
    fun hE m hm => hE m (hperm.subset hm)
  constructor
  · intro hnever
    have hE := not_idle_of_neverLoses hnever
    have hkeys := ofKey_eq hE (hresponses hE) hreads hwrites
    exact ⟨hE, withinReach_of_neverLoses (hresponses hE) hkeys hnever⟩
  · intro hcond
    obtain ⟨hE, hreach⟩ := hcond
    have hkeys := ofKey_eq hE (hresponses hE) hreads hwrites
    exact neverLoses_of_withinReach hE (hresponses hE) hkeys hfair hreach

/-- Two reads come back before the write that is expected first. -/
theorem never_loses_two_reads :
    NeverLoses (BlockingFifo.lists (Request × Nat)) numbered
      [(Request.write, 0), (Request.read, 0), (Request.read, 1)]
      [(Request.read, 0), (Request.read, 1), (Request.write, 0)] roundRobin := by
  refine (never_loses_iff _ numbered _ _ (by decide) (by decide) (by decide) roundRobin
    fair_roundRobin).mpr ⟨by decide, ?_⟩
  intro done e rest front back _ hfront _ k _
  have hlength := congrArg List.length hfront
  have hfilter : (Sorter.ofKey numbered.request k front).length ≤ front.length :=
    List.length_filter_le _ _
  simp only [List.length_append, List.length_cons, List.length_nil] at hlength
  omega

end FpgaPartialReconfig.Scoreboard
