/-
  The DDR4 persona as a memory test.

  A `MemoryTest` is a run from reset with one start, on a memory that serves the persona: at
  the end the memory has taken one word for each address of the sweep, in order, once or
  twice; each of these addresses holds what its cell makes of its word, every other address
  what it held before, and the performance counter is the number of words that came back
  (`memory_test`).

  That the run comes to an end is part of it: the only start comes while the engine is idle,
  so no write is disturbed (`MemoryTest.keepsData`), and a memory that takes every command
  and answers every read lets the engine finish (`MemoryTest.completes`). From there on it is
  a `SweepRun`.
-/
import FpgaPartialReconfig.Ddr4.Memory
import FpgaPartialReconfig.Ddr4.SweepOnce
import Mathlib.Data.List.Nodup

namespace FpgaPartialReconfig.Ddr4

open Clock

structure MemoryTest (cell : Cells) (M : Memory) (p : Persona) (inp : Nat → PersonaIn) (s : Nat)
    (b f : BitVec 32) : Prop where
  reset : p.IsReset
  runs : ∀ t, (p.at inp t).Runs (inp t)
  holds : ∀ t, Holds b f (inp t)
  range : b.toNat + f.toNat < 2 ^ 25
  offset : 1 ≤ f.toNat
  settled : 2 ≤ s
  start : (p.at inp s).StartEdge (inp s)
  only : ∀ t, t ≠ s → ¬ (p.at inp t).StartEdge (inp t)
  owed : M.owed = []
  serves : Serves cell M p inp

/-! ## `mem_access` and its start -/

/-- `start_traffic_generator` is high exactly in `DDR_ACCESS`. -/
def MemAccess.Shape (m : MemAccess) : Prop :=
  m.currState = .idle ∧ m.startTrafficGenerator = false ∨
    m.currState = .ddrAccess ∧ m.startTrafficGenerator = true

theorem shape_step {p : Persona} {i : PersonaIn} (hi : p.Runs i) (h : p.memAccess.Shape) :
    (p.step i).memAccess.Shape := by
  rcases h with ⟨hstate, -⟩ | ⟨hstate, -⟩
  · by_cases hgo : p.controller.startOperation = true ∧
      p.trafficGenerator.ddrAccessCompleted = false
    · rw [Persona.memAccess_starts hi hstate hgo.1 hgo.2]
      exact .inr ⟨rfl, rfl⟩
    · rw [Persona.memAccess_stays_idle hi hstate ?_]
      · exact .inl ⟨rfl, rfl⟩
      · cases hop : p.controller.startOperation with
        | false => exact .inl rfl
        | true => exact .inr (by simpa [hop] using hgo)
  · cases hcompleted : p.trafficGenerator.ddrAccessCompleted with
    | false =>
      rw [Persona.memAccess_goes_on hi hstate hcompleted]
      exact .inr ⟨rfl, rfl⟩
    | true =>
      rw [Persona.memAccess_ends hi hstate hcompleted]
      exact .inl ⟨rfl, rfl⟩

/-- A start of the traffic generator is the work of a start operation. -/
theorem operation_of_starts {p : Persona} {i next : PersonaIn} (hi : p.Runs i)
    (h : p.memAccess.Shape)
    (hstarts : (p.step i).trafficGenerator.starts ((p.step i).trafficIn next)) :
    p.controller.startOperation = true := by
  obtain ⟨hnow, hbefore⟩ := hstarts
  have hq : (p.step i).trafficGenerator.startTrafficGeneratorQ =
      p.memAccess.startTrafficGenerator := by
    show (!(i.prLogicRst || p.controller.clrIoReg) && p.memAccess.startTrafficGenerator) = _
    rw [hi.1, hi.2]
    rfl
  rw [hq] at hbefore
  rcases h with ⟨hstate, -⟩ | ⟨-, hhigh⟩
  · by_contra hno
    have hidle := Persona.memAccess_stays_idle hi hstate (.inl (by simpa using hno))
    have hlow : (p.step i).memAccess.startTrafficGenerator = true := hnow
    rw [hidle] at hlow
    cases hlow
  · exact absurd (hhigh.symm.trans hbefore) (by decide)

namespace MemoryTest
variable {cell : Cells} {M : Memory} {p : Persona} {inp : Nat → PersonaIn} {s : Nat}
  {b f : BitVec 32}

section
variable (h : MemoryTest cell M p inp s b f)
include h

theorem at_rest {t : Nat} (ht : t ≤ s) : AtRest false false (p.at inp t) := by
  induction t with
  | zero => exact AtRest.of_isReset h.reset
  | succ t ih => exact (ih (by omega)).quiet_step (h.runs t) (h.only t (by omega))

theorem pulse : AtRest true false (p.at inp (s + 1)) :=
  ((h.at_rest (Nat.le_refl s)).edge_step (h.runs s) h.start).1

theorem operation : AtRest false true (p.at inp (s + 2)) ∧
    (p.at inp (s + 2)).memAccess.clearStartOperation = true :=
  h.pulse.pulse_step (h.runs (s + 1)) (h.only (s + 1) (by omega))

/-- Before its cycle there is no start operation, and after it neither. -/
theorem startOperation_iff (t : Nat) :
    (p.at inp t).controller.startOperation = true ↔ t = s + 2 := by
  have hlater : ∀ t, (p.at inp (s + 3 + t)).controller.startPulse = false ∧
      (p.at inp (s + 3 + t)).controller.startOperation = false := by
    intro t
    induction t with
    | zero =>
      obtain ⟨hrest, hclear⟩ := h.operation
      have hedge := h.only (s + 2) (by omega)
      refine ⟨startPulse_step_of_not (h.runs (s + 2)) hedge, ?_⟩
      rw [show p.at inp (s + 3 + 0) = _ from at_succ (s + 2),
        Persona.step_controller (h.runs (s + 2))]
      simp [hrest.startPulse, hclear]
    | succ t ih =>
      exact controller_stays (h.runs (s + 3 + t)) (h.only (s + 3 + t) (by omega)) ih.1 ih.2
  constructor
  · intro hop
    by_contra hne
    rcases Nat.lt_or_ge t (s + 2) with hlt | hge
    · have hlow : (p.at inp t).controller.startOperation = false := by
        rcases Nat.lt_or_ge s t with hst | hst
        · obtain rfl : t = s + 1 := by omega
          exact h.pulse.startOperation
        · exact (h.at_rest hst).startOperation
      exact absurd (hop.symm.trans hlow) (by decide)
    · obtain ⟨d, rfl⟩ : ∃ d, t = s + 3 + d := ⟨t - (s + 3), by omega⟩
      exact absurd (hop.symm.trans (hlater d).2) (by decide)
  · rintro rfl
    exact h.operation.1.startOperation

theorem shape (t : Nat) : (p.at inp t).memAccess.Shape := by
  induction t with
  | zero =>
    show p.memAccess.Shape
    rw [h.reset.memAccess]
    exact .inl ⟨rfl, rfl⟩
  | succ t ih => exact shape_step (h.runs t) ih

/-- Nothing is launched before the sweep, so the engine is idle. -/
theorem engine_idle {t : Nat} (ht : t ≤ s + 3) : (p.at inp t).ddrWrRd.currState = .idle := by
  induction t with
  | zero => exact h.reset.ddrWrRd.1
  | succ t ih =>
    have hlow : (p.at inp t).trafficGenerator.startDdrWrRd = false := by
      rcases Nat.lt_or_ge s t with hst | hst
      · obtain rfl | rfl : t = s + 1 ∨ t = s + 2 := by omega
        · exact h.pulse.startDdrWrRd
        · exact h.operation.1.startDdrWrRd
      · exact (h.at_rest hst).startDdrWrRd
    have hidle := ih (by omega)
    have hstep : (p.at inp (t + 1)).ddrWrRd = _ := WrRd.step_idle (h.runs t).wrRdIn hidle hlow
    rw [hstep]
    exact hidle

theorem wf (t : Nat) : (p.at inp t).ddrWrRd.Wf := wf_at h.reset.ddrWrRd.wf t

/-- The one start comes before anything is launched. -/
theorem keepsData (t : Nat) : KeepsData (p.at inp t) (inp t) := by
  intro hwrites hstarts
  cases t with
  | zero =>
    have hlow : p.memAccess.startTrafficGenerator = false := by
      rw [h.reset.memAccess]
      rfl
    exact absurd (hlow.symm.trans hstarts.1) (by decide)
  | succ t =>
    have hop := operation_of_starts (h.runs t) (h.shape t) hstarts
    obtain rfl := (h.startOperation_iff t).mp hop
    have hidle := h.engine_idle (Nat.le_refl (s + 3))
    have hlow : (p.at inp (s + 3)).trafficGenerator.startDdrWrRd = false :=
      h.operation.1.startDdrWrRd_step (h.runs (s + 2))
    unfold Writes WrRd.nextState at hwrites
    rw [show (p.at inp (s + 2 + 1)).ddrWrRd.currState = .idle from hidle,
      show ((p.at inp (s + 2 + 1)).wrRdIn (inp (s + 2 + 1))).startDdrWrRd = false from hlow]
      at hwrites
    rcases hwrites with hwrites | hwrites <;> cases hwrites

theorem tested (t : Nat) : ∃ tests, Tested cell p inp M t tests :=
  serving_at h.reset.ddrWrRd.1 h.reset.ddrWrRd.2 h.owed h.runs h.keepsData h.serves t

/-! ## Getting done -/

/-- In `WAIT_READ_DONE` an answer is owed. -/
theorem owes {t : Nat} (hwait : (p.at inp t).ddrWrRd.currState = .waitReadDone) :
    (M.at cell p inp t).owed ≠ [] := by
  obtain ⟨tests, hserving, -, -⟩ := h.tested t
  cases hserving with
  | idle hstate => rw [hstate] at hwait; cases hwait
  | writing hstate => rcases hstate with hstate | hstate <;> rw [hstate] at hwait <;> cases hwait
  | written hstate => rw [hstate] at hwait; cases hwait
  | reading hstate => rcases hstate with hstate | hstate <;> rw [hstate] at hwait <;> cases hwait
  | accepted _ _ _ howed =>
    rw [howed]
    exact List.cons_ne_nil _ _
  | verifying hstate => rw [hstate] at hwait; cases hwait

/-- A busy engine comes to its verdict. -/
theorem completes (t : Nat) (hbusy : (p.at inp t).ddrWrRd.currState ≠ .idle) :
    ∃ u, t ≤ u ∧ (p.at inp u).ddrWrRd.done = true :=
  reports_of_answers h.reset.ddrWrRd.wf h.runs h.serves.takes
    (fun t hwait => h.serves.returnsAll t (h.owes hwait)) hbusy

theorem sweepRun : SweepRun p inp s b f none where
  rest := AtRest.of_isReset h.reset
  runs t _ := h.runs t
  holds t _ _ := h.holds t
  range := h.range
  settled := h.settled
  start := h.start
  later := nofun
  only t ht _ := h.only t ht
  completes _ t _ := h.completes t

/-! ## The end -/

/-- The launches are those of the sweep, and no more. -/
theorem launched_all : ∃ u, ∀ t, u ≤ t → launched (p.marked inp t) = addresses b f := by
  have hf : f.toNat ≠ 0 := by have := h.offset; omega
  have hidle : (p.at inp (s + 4)).ddrWrRd.currState = .idle := by
    have hlow : (p.at inp (s + 3)).trafficGenerator.startDdrWrRd = false :=
      h.operation.1.startDdrWrRd_step (h.runs (s + 2))
    have hbefore := h.engine_idle (Nat.le_refl (s + 3))
    have hstep : (p.at inp (s + 4)).ddrWrRd = _ :=
      WrRd.step_idle (h.runs (s + 3)).wrRdIn hbefore hlow
    rw [hstep]
    exact hbefore
  obtain ⟨u, hu⟩ := h.sweepRun.complete hf hidle
  refine ⟨u, fun t hut => ?_⟩
  have hgrown := launched_mono p inp hut
  rw [hu] at hgrown
  exact (hgrown.eq_of_length_le (h.sweepRun.inOrder hf hidle t nofun).length_le).symm

/-- From some cycle on the engine is idle for good. -/
theorem idle_forever : ∃ u, ∀ t, u ≤ t →
    launched (p.marked inp t) = addresses b f ∧ (p.at inp t).ddrWrRd.currState = .idle := by
  obtain ⟨u, hall⟩ := h.launched_all
  have hidle : ∃ v, u ≤ v ∧ (p.at inp v).ddrWrRd.currState = .idle := by
    by_cases hbusy : (p.at inp u).ddrWrRd.currState = .idle
    · exact ⟨u, Nat.le_refl u, hbusy⟩
    · obtain ⟨v, huv, hdone⟩ := h.completes u hbusy
      have hverify : (p.at inp v).ddrWrRd.currState ≠ .idle := by
        rw [(h.wf v).done.mp hdone]
        decide
      exact ⟨v + 1, by omega, ((h.wf v).busy_step (h.runs v).wrRdIn hverify).1.mpr hdone⟩
  obtain ⟨v, huv, hv⟩ := hidle
  refine ⟨v, fun t hvt => ⟨hall t (by omega), ?_⟩⟩
  induction t, hvt using Nat.le_induction with
  | base => exact hv
  | succ t hvt ih =>
    have hlow : (p.at inp t).trafficGenerator.startDdrWrRd = false := by
      by_contra hhigh
      have hlaunch : (p.at inp t).launches (inp t) :=
        (launches_iff _ _).mpr ⟨ih, by simpa using hhigh⟩
      have hlength := launched_length_of_launches hlaunch
      rw [hall t (by omega), hall (t + 1) (by omega)] at hlength
      omega
    have hstep : (p.at inp (t + 1)).ddrWrRd = _ := WrRd.step_idle (h.runs t).wrRdIn ih hlow
    rw [hstep]
    exact ih

/-- Then it writes no more. -/
theorem written_idle {u t : Nat} (hut : u ≤ t)
    (hidle : ∀ t, u ≤ t → (p.at inp t).ddrWrRd.currState = .idle) :
    p.written inp t = p.written inp u := by
  induction t, hut using Nat.le_induction with
  | base => rfl
  | succ t hut ih =>
    have hlow : ¬ ((p.at inp t).ddrWrRd.emifAvmmWrite = true ∧
        (inp t).emifAvmmWaitrequest = false) := by
      intro hparts
      rcases (h.wf t).write hparts.1 with hstate | hstate <;>
        rw [hidle t hut] at hstate <;> cases hstate
    have hnone : (p.at inp t).writes (inp t) = [] := if_neg hlow
    rw [Persona.written, trace_succ, ← Persona.written, ih]
    exact (congrArg (p.written inp u ++ ·) hnone).trans (List.append_nil _)

end

end MemoryTest

/-- The `k`-th address of the sweep. -/
def addressAt (b : BitVec 32) (k : Nat) : Address := BitVec.ofNat 25 (b.toNat + k)

theorem tests_eq {tests : List Test} {b f : BitVec 32}
    (h : tests.map Test.address = addresses b f) :
    ∃ data : Nat → Word,
      tests = (List.range (f.toNat + 1)).map fun k => ⟨addressAt b k, data k⟩ := by
  have hlength : tests.length = f.toNat + 1 := by
    have hlengths := congrArg List.length h
    simpa [addresses] using hlengths
  refine ⟨fun k => (tests.getD k ⟨0, 0⟩).data, List.ext_getElem (by simp [hlength]) fun k hk _ => ?_⟩
  have haddress : tests[k].address = addressAt b k := by
    have hat : (tests.map Test.address)[k]? = (addresses b f)[k]? := by rw [h]
    rw [addresses, List.getElem?_map, List.getElem?_map, List.getElem?_range (by omega),
      List.getElem?_eq_getElem hk] at hat
    exact Option.some.inj hat
  have hdata : tests.getD k ⟨0, 0⟩ = tests[k] := List.getD_eq_getElem _ _ hk
  rw [List.getElem_map, List.getElem_range, ← haddress]
  exact congrArg (fun test => (⟨tests[k].address, test.data⟩ : Test)) hdata.symm

theorem addresses_nodup {b f : BitVec 32} (hrange : b.toNat + f.toNat < 2 ^ 25) :
    (addresses b f).Nodup := by
  refine List.Nodup.map_on ?_ List.nodup_range
  intro j hj k hk hsame
  rw [List.mem_range] at hj hk
  have hnat := (ofNat_inj (by omega) (by omega)).mp hsame
  omega

/-- At the end of the sweep, for good: the tests are one for each address, in order; the memory
    has taken each one's word once or twice, and nothing else; each address holds what its cell
    made of its word, every other address what it held before; and the counter shows how many
    words came back. -/
theorem memory_test (cell : Cells) (M : Memory) (p : Persona) (inp : Nat → PersonaIn) (s : Nat)
    (b f : BitVec 32) (h : MemoryTest cell M p inp s b f) :
    ∃ (data : Nat → Word) (times : Nat → Nat) (u : Nat), (∀ k, times k = 1 ∨ times k = 2) ∧
      ∀ t, u ≤ t →
        p.tested inp t = (List.range (f.toNat + 1)).map (fun k => ⟨addressAt b k, data k⟩) ∧
        p.written inp t = (List.range (f.toNat + 1)).flatMap
          (fun k => List.replicate (times k) ⟨addressAt b k, data k⟩) ∧
        (∀ k ≤ f.toNat,
          (M.at cell p inp t).contents (addressAt b k) = cell (addressAt b k) (data k)) ∧
        (∀ a ∉ addresses b f, (M.at cell p inp t).contents a = M.contents a) ∧
        (p.at inp t).performanceCntr.toNat = (List.range (f.toNat + 1)).countP fun k =>
          cell (addressAt b k) (data k) = data k := by
  obtain ⟨u, hend⟩ := h.idle_forever
  obtain ⟨data, htests⟩ := tests_eq ((tested_addresses p inp u).trans (hend u (Nat.le_refl u)).1)
  have hsame : ∀ t, u ≤ t → p.tested inp t = p.tested inp u := by
    intro t hut
    refine ((trace_mono Persona.step p inp Persona.tests hut).eq_of_length ?_).symm
    have hlengths := congrArg List.length
      ((hend t hut).1.trans (hend u (Nat.le_refl u)).1.symm)
    rw [← tested_addresses, ← tested_addresses, List.length_map, List.length_map] at hlengths
    exact hlengths.symm
  -- all tests are over
  have hover : ∀ t, u ≤ t → Tested cell p inp M t
      ((List.range (f.toNat + 1)).map fun k => ⟨addressAt b k, data k⟩) := by
    intro t hut
    obtain ⟨tests, htested⟩ := h.tested t
    have hall := htested.tested
    rw [hsame t hut, htests, underWay_idle (hend t hut).2, List.append_nil] at hall
    rwa [hall]
  obtain ⟨ws, hws, n, -, hwritten⟩ := (hover u (Nat.le_refl u)).written
  rw [underWay_idle (hend u (Nat.le_refl u)).2, List.flatten_replicate_nil, List.append_nil]
    at hwritten
  obtain ⟨times, htimes, htaken⟩ := hws.times rfl
  refine ⟨data, times, u, htimes, fun t hut => ?_⟩
  have hidle := (hend t hut).2
  have hcontents := (hover t hut).serving.contents_idle hidle
  have haddresses : ((List.range (f.toNat + 1)).map
      fun k => (⟨addressAt b k, data k⟩ : Test)).map Test.address = addresses b f := by
    rw [List.map_map]
    rfl
  refine ⟨(hsame t hut).trans htests, ?_, ?_, ?_, ?_⟩
  · rw [h.written_idle hut fun v huv => (hend v huv).2, hwritten, htaken]
  · intro k hk
    rw [hcontents]
    have hmem : (⟨addressAt b k, data k⟩ : Test) ∈ (List.range (f.toNat + 1)).map
        fun k => (⟨addressAt b k, data k⟩ : Test) :=
      List.mem_map_of_mem (List.mem_range.mpr (by omega))
    exact stored_tested (by rw [haddresses]; exact addresses_nodup h.range) hmem
  · intro a ha
    rw [hcontents, stored_other]
    rwa [haddresses]
  · have hrange := h.range
    have hzero : ∀ n, (0 : BitVec 32) + BitVec.ofNat 32 n = BitVec.ofNat 32 n :=
      fun n => BitVec.zero_add _
    rw [(hover t hut).counter, h.reset.performanceCntr, hzero, BitVec.toNat_ofNat,
      List.countP_map]
    refine Nat.mod_eq_of_lt (Nat.lt_of_le_of_lt List.countP_le_length ?_)
    rw [List.length_range]
    omega

/-! ## A memory of zeros -/

def zeroCells : Cells := fun _ _ => 0

def zeroMemory : Memory := ⟨fun _ => 0, []⟩

/-- What was owed has been answered in cycle 18. -/
theorem owed_startedSweep {t : Nat} (ht : 20 ≤ t) :
    (zeroMemory.at zeroCells resetPersona startedSweep t).owed = [] := by
  induction t, ht using Nat.le_induction with
  | base => decide +kernel
  | succ t ht ih =>
    obtain ⟨hnext, hstate⟩ : AtRest false false (resetPersona.at startedSweep t) ∧
        (resetPersona.at startedSweep t).ddrWrRd.currState = .idle :=
      idle_hostSweep (by decide) ht rest_startedSweep.1 rest_startedSweep.2
    have hread : (resetPersona.at startedSweep t).ddrWrRd.emifAvmmRead = false := by
      by_contra hhigh
      have hreads := hnext.engine.read (by simpa using hhigh)
      rw [hstate] at hreads
      rcases hreads with hreads | hreads <;> cases hreads
    have hvalid : (startedSweep t).emifAvmmReaddatavalid = false := by
      have h11 : t ≠ 11 := by omega
      have h18 : t ≠ 18 := by omega
      simp [startedSweep, hostSweep, h11, h18]
    show (Memory.step _ _ _ _).owed = []
    rw [Memory.step_owed, ih, hvalid, hread]
    rfl

theorem serves_startedSweep : Serves zeroCells zeroMemory resetPersona startedSweep := by
  have hvalid : ∀ t, (startedSweep t).emifAvmmReaddatavalid = true → t = 11 ∨ t = 18 := by
    intro t hvalid
    simpa [startedSweep, hostSweep] using hvalid
  refine ⟨?_, ?_, fun t => ⟨t, Nat.le_refl t, rfl⟩, ?_⟩
  · intro t ht
    rcases hvalid t ht with rfl | rfl <;> decide +kernel
  · intro t hstate _
    refine ⟨rfl, ?_⟩
    by_contra hhigh
    rcases hvalid t (by simpa using hhigh) with rfl | rfl
    · exact absurd hstate (by decide +kernel)
    · exact absurd hstate (by decide +kernel)
  · intro t howed
    rcases Nat.lt_or_ge t 19 with hlt | hge
    · exact ⟨18, by omega, rfl⟩
    · rcases Nat.lt_or_ge t 20 with hlt | hge
      · obtain rfl : t = 19 := by omega
        exact absurd howed (by decide +kernel)
      · exact absurd (owed_startedSweep hge) howed

theorem memory_test_startedSweep :
    ∃ (data : Nat → Word) (times : Nat → Nat) (u : Nat), (∀ k, times k = 1 ∨ times k = 2) ∧
      ∀ t, u ≤ t →
        resetPersona.tested startedSweep t =
          (List.range 2).map (fun k => ⟨addressAt 0 k, data k⟩) ∧
        resetPersona.written startedSweep t = (List.range 2).flatMap
          (fun k => List.replicate (times k) ⟨addressAt 0 k, data k⟩) ∧
        (∀ k ≤ 1, (zeroMemory.at zeroCells resetPersona startedSweep t).contents
          (addressAt 0 k) = 0) ∧
        (∀ a ∉ addresses 0 1,
          (zeroMemory.at zeroCells resetPersona startedSweep t).contents a = 0) ∧
        (resetPersona.at startedSweep t).performanceCntr.toNat =
          (List.range 2).countP fun k => (0 : Word) = data k :=
  memory_test zeroCells zeroMemory resetPersona startedSweep 2 0 1
    { reset := isReset_resetPersona
      runs := runs_hostSweep
      holds := fun _ => ⟨rfl, rfl⟩
      range := by decide
      offset := by decide
      settled := by decide
      start := sweepRun_startedSweep.start
      only := fun _ ht => no_edge_hostSweep ht _
      owed := rfl
      serves := serves_startedSweep }

end FpgaPartialReconfig.Ddr4
