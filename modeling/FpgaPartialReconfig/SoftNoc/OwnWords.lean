/-
  Whether an island stores the word that belongs to its strobe.

  Strobe and word go through pipes of their own. Where the control and the FIFO have the same
  stage they arrive together. In the eight pairs of `late_islands` the strobe arrives a cycle
  before its word, and what is stored is the word that was on the lanes the cycle before. There
  the strobe is itself one of the data lanes (`strobe_eq_of_late`), so already the first word
  is a wrong one: such an island is right only as long as nothing is written to it
  (`stores_own_words_iff`).
-/
import FpgaPartialReconfig.SoftNoc.Top

namespace FpgaPartialReconfig.SoftNoc

/-- In every cycle the FIFO holds the strobed words that have arrived, the `k`-th one at
    address `k` modulo 32, and nothing else has been written to it. -/
def StoresOwnWords (top : Top) (inp : Nat → Buses) (p : Island) : Prop :=
  ∀ t, (top.at inp t).mem p =
    fill (top.mem p) (strobed p inp (fun s => p.word (inp s)) (t - p.latency))

section
variable {top : Top} {p : Island} {inp : Nat → Buses}

theorem strobed_congr {w w' : Nat → BitVec 20}
    (h : ∀ s, p.strobe (inp s) = true → w s = w' s) (t : Nat) :
    strobed p inp w t = strobed p inp w' t := by
  unfold strobed
  apply List.map_congr_left
  intro s hs
  exact h s (List.mem_filter.mp hs).2

theorem storesOwnWords_iff_arriving (h : top.Fresh p) :
    StoresOwnWords top inp p ↔
      ∀ t, p.strobe (inp t) = true → arriving top p inp t = p.word (inp t) := by
  constructor
  · intro hstores t hstrobe
    have hcycle : t + 1 + p.latency - p.latency = t + 1 := by omega
    have hown := hstores (t + 1 + p.latency)
    have hmem := (@fifo_at top p inp h (t + 1 + p.latency)).2
    rw [hcycle, strobed_succ_of_strobe hstrobe] at hown hmem
    -- both lists have the same length, so the last words are at the same address
    have hlast := congrFun (hmem.symm.trans hown)
      (BitVec.ofNat 5 (strobed p inp (arriving top p inp) t).length)
    rw [fill_concat_last, length_strobed fun s => p.word (inp s), fill_concat_last] at hlast
    exact hlast
  · intro harriving t
    rw [(fifo_at h t).2, strobed_congr harriving]

/-! ## Two latencies -/

theorem arriving_of_eq (hstage : p.control.stage = p.ingress.stage) (t : Nat) :
    arriving top p inp t = p.word (inp t) := by
  have hcycle : t + p.latency = t + 1 + p.ingress.pipeDepth := by
    unfold Island.latency Record.pipeDepth
    omega
  unfold arriving
  rw [hcycle, busWdata_at]
  rfl

theorem arriving_of_late (hstage : p.control.stage + 1 = p.ingress.stage) (t : Nat) :
    arriving top p inp t = p.word (previous top inp t) := by
  have hcycle : t + p.latency = t + p.ingress.pipeDepth := by
    unfold Island.latency Record.pipeDepth
    omega
  unfold arriving
  rw [hcycle, busWdata_at]

/-! ## The late islands -/

/-- The control is a stage nearer, and takes its strobe from the FIFO's first place. -/
structure Island.Late (p : Island) : Prop where
  stage : p.control.stage + 1 = p.ingress.stage
  busName : p.control.busName = p.ingress.busName
  controlBus : p.control.controlBus = p.ingress.bus0

theorem late_of_ne (p : Island) (hstage : p.control.stage ≠ p.ingress.stage) : p.Late := by
  have hlate : p.val ∈ (islands records).filter fun q => q.1.stage ≠ q.2.stage :=
    List.mem_filter.mpr ⟨p.property, decide_eq_true hstage⟩
  rw [late_islands] at hlate
  have hall : ∀ q ∈ [lateIsland 165 (2, 40) (2, 39), lateIsland 149 (2, 24) (2, 23),
      lateIsland 133 (2, 8) (2, 7), lateIsland 116 (1, 32) (1, 31), lateIsland 100 (1, 16) (1, 15),
      lateIsland 83 (0, 40) (0, 39), lateIsland 67 (0, 24) (0, 23), lateIsland 51 (0, 8) (0, 7)],
      q.1.stage + 1 = q.2.stage ∧ q.1.busName = q.2.busName ∧ q.1.controlBus = q.2.bus0 := by
    decide
  obtain ⟨hnext, hname, hbus⟩ := hall p.val hlate
  exact ⟨hnext, hname, hbus⟩

/-- The strobe is bit 9 of the word. -/
theorem strobe_eq_of_late (h : p.Late) (b : Buses) : p.strobe b = (p.word b).getLsbD 9 :=
  (p.strobes_eq_bits h.busName h.controlBus b).1

theorem late_stores_iff (hfresh : top.Fresh p) (h : p.Late) :
    StoresOwnWords top inp p ↔ ∀ t, p.strobe (inp t) = false := by
  rw [storesOwnWords_iff_arriving hfresh]
  constructor
  · intro harriving
    -- no strobe in a cycle, so none in the next one: its word would be another one
    have hnone : ∀ t, p.strobe (previous top inp t) = false := by
      intro t
      induction t with
      | zero => exact hfresh.inReg
      | succ t ih =>
        by_contra hstrobe
        have hword := harriving t (Bool.eq_true_of_not_eq_false hstrobe)
        rw [arriving_of_late h.stage] at hword
        rw [strobe_eq_of_late h, hword, ← strobe_eq_of_late h] at ih
        exact hstrobe ih
    intro t
    exact hnone (t + 1)
  · intro hnone t hstrobe
    rw [hnone t] at hstrobe
    exact absurd hstrobe Bool.false_ne_true

end

/-! ## A word for each strobe -/

/-- All registers as they are after power-up. -/
def powerUp : Top where
  inReg _ _ _ := 0
  island _ := ⟨fun _ => false, fun _ => false, ⟨0, 0⟩, fun _ => 0, ⟨fun _ => 0⟩⟩

theorem fresh_powerUp (p : Island) : powerUp.Fresh p := by
  refine ⟨rfl, fun _ => rfl, ?_⟩
  show (0#11).getLsbD 0 = false
  rfl

/-- A one on all lanes in the first cycle. -/
def oneWord (t : Nat) : Buses := fun _ _ _ => if t = 0 then 1#11 else 0#11

def islandX206Y165 : Island := ⟨lateIsland 165 (2, 40) (2, 39), by decide +kernel⟩

/-- The first word strobed into a late island is not the one that is stored. -/
theorem first_word_lost :
    powerUp.Fresh islandX206Y165 ∧ ¬ StoresOwnWords powerUp oneWord islandX206Y165 := by
  refine ⟨fresh_powerUp _, ?_⟩
  have hlate : islandX206Y165.Late := ⟨rfl, rfl, rfl⟩
  rw [late_stores_iff (fresh_powerUp _) hlate]
  intro hnone
  exact absurd (hnone 0) (by decide)

theorem stores_own_words_iff (top : Top) (inp : Nat → Buses) (p : Island) (h : top.Fresh p) :
    StoresOwnWords top inp p ↔
      p.control.stage = p.ingress.stage ∨ ∀ t, p.strobe (inp t) = false := by
  by_cases hstage : p.control.stage = p.ingress.stage
  · refine iff_of_true ?_ (.inl hstage)
    rw [storesOwnWords_iff_arriving h]
    intro t _
    exact arriving_of_eq hstage t
  · rw [late_stores_iff h (late_of_ne p hstage)]
    exact ⟨.inr, fun hcond => hcond.resolve_left hstage⟩

def islandX104Y165 : Island :=
  ⟨(⟨.C, (105, 165), .E, (2, 40), (2, 39), 4⟩, ⟨.I, (104, 165), .E, (2, 40), (2, 39), 4⟩),
    by decide +kernel⟩

theorem stores_own_words_islandX104Y165 : StoresOwnWords powerUp oneWord islandX104Y165 :=
  (stores_own_words_iff powerUp oneWord islandX104Y165 (fresh_powerUp _)).mpr (.inl rfl)

end FpgaPartialReconfig.SoftNoc
