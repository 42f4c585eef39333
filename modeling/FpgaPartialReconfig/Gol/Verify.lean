/-
  The host's reference: `calculate_neighbors`, `apply_gol_rules` and `run_gol_verify`.

  The host counts the neighbours of all cells into an array of 64 words, and then builds the
  next board from the array, clearing it as it goes; it exits if it ever finds the array not
  cleared. Each round of the two loops is the automaton's next board
  (`hostNext_computes`), and the exit is never taken (`runGolVerify_eq`).

  The array is a function of the index. That `calloc` may return nothing is left out, and so
  are the messages and the timer.
-/
import FpgaPartialReconfig.Gol.Life

namespace FpgaPartialReconfig.Gol

open Automaton Function

/-! ## The source's functions -/

abbrev Neighbors := Nat → BitVec 32

def getbit (value : BitVec 64) (position : Nat) : BitVec 32 :=
  ((value >>> position) &&& 1#64).setWidth 32

def calculateCoord (x y : Int) : Nat := wrap x + wrap y * 8

/-- `neighbors[k] += bits`. -/
def addTo (neighbors : Neighbors) (k : Nat) (bits : BitVec 32) : Neighbors :=
  update neighbors k (neighbors k + bits)

/-- One round of the inner loop of `calculate_neighbors`. -/
def calculateNeighborsAt (currentBoard : BitVec 64) (i j : Nat) (neighbors : Neighbors) :
    Neighbors :=
  let c := calculateCoord i j
  let neighbors := update neighbors c 0
  let neighbors := addTo neighbors c (getbit currentBoard (calculateCoord (i + 1) (j + 1)))
  let neighbors := addTo neighbors c (getbit currentBoard (calculateCoord (i + 1) j))
  let neighbors := addTo neighbors c (getbit currentBoard (calculateCoord (i + 1) (j - 1)))
  let neighbors := addTo neighbors c (getbit currentBoard (calculateCoord i (j - 1)))
  let neighbors := addTo neighbors c (getbit currentBoard (calculateCoord i (j + 1)))
  let neighbors := addTo neighbors c (getbit currentBoard (calculateCoord (i - 1) (j + 1)))
  let neighbors := addTo neighbors c (getbit currentBoard (calculateCoord (i - 1) j))
  addTo neighbors c (getbit currentBoard (calculateCoord (i - 1) (j - 1)))

def calculateNeighbors (currentBoard : BitVec 64) (neighbors : Neighbors) : Neighbors :=
  (List.range 8).foldl (fun neighbors i =>
    (List.range 8).foldl (fun neighbors j => calculateNeighborsAt currentBoard i j neighbors)
      neighbors) neighbors

/-- One round of the loop of `apply_gol_rules`. -/
def applyGolRulesAt (currentBoard : BitVec 64) (s : BitVec 64 × Neighbors) (i : Nat) :
    BitVec 64 × Neighbors :=
  let (returnBoard, neighbors) := s
  let returnBoard :=
    if getbit currentBoard i = 1#32 then
      if neighbors i = 2#32 ∨ neighbors i = 3#32 then returnBoard ||| (1#64 <<< i)
      else returnBoard
    else
      if neighbors i = 3#32 then returnBoard ||| (1#64 <<< i)
      else returnBoard
  (returnBoard, update neighbors i 0)

def applyGolRules (currentBoard : BitVec 64) (neighbors : Neighbors) : BitVec 64 × Neighbors :=
  (List.range 64).foldl (applyGolRulesAt currentBoard) (0, neighbors)

/-- The rounds of `run_gol_verify` that are left; nothing comes of an exit. -/
def golRuns : Nat → BitVec 64 → Neighbors → Option (BitVec 64)
  | 0, currentBoard, _ => some currentBoard
  | left + 1, currentBoard, neighbors =>
    if (List.range 64).any (fun j => neighbors j != 0) = true then none
    else
      let neighbors := calculateNeighbors currentBoard neighbors
      let (nextBoard, neighbors) := applyGolRules currentBoard neighbors
      golRuns left nextBoard neighbors

def runGolVerify (board : BitVec 64) (numberOfRuns : BitVec 32) : Option (BitVec 64) :=
  golRuns numberOfRuns.toNat board fun _ => 0

/-! ## `calculate_neighbors` -/

theorem getbit_eq (value : BitVec 64) (position : Nat) :
    getbit value position = bit 32 (value.getLsbD position) := by
  unfold getbit bit
  apply BitVec.eq_of_getLsbD_eq
  intro k hk
  cases k with
  | zero => simp
  | succ k => simp [BitVec.getLsbD_one]

/-- The sum that a cell gets. -/
def neighborSum (currentBoard : BitVec 64) (i j : Nat) : BitVec 32 :=
  0 + getbit currentBoard (calculateCoord (i + 1) (j + 1)) +
    getbit currentBoard (calculateCoord (i + 1) j) +
    getbit currentBoard (calculateCoord (i + 1) (j - 1)) +
    getbit currentBoard (calculateCoord i (j - 1)) +
    getbit currentBoard (calculateCoord i (j + 1)) +
    getbit currentBoard (calculateCoord (i - 1) (j + 1)) +
    getbit currentBoard (calculateCoord (i - 1) j) +
    getbit currentBoard (calculateCoord (i - 1) (j - 1))

theorem addTo_update (neighbors : Neighbors) (k : Nat) (sum bits : BitVec 32) :
    addTo (update neighbors k sum) k bits = update neighbors k (sum + bits) := by
  unfold addTo
  rw [update_self, update_idem]

theorem calculateNeighborsAt_eq (currentBoard : BitVec 64) (i j : Nat) (neighbors : Neighbors) :
    calculateNeighborsAt currentBoard i j neighbors =
      update neighbors (calculateCoord i j) (neighborSum currentBoard i j) := by
  unfold calculateNeighborsAt neighborSum
  simp only [addTo_update]

theorem neighborSum_toNat (currentBoard : BitVec 64) (x : Cell) :
    (neighborSum currentBoard x.1.val x.2.val).toNat =
      alive hostOffsets (view currentBoard) x := by
  obtain ⟨i, j⟩ := x
  have hadd : ∀ b₀ b₁ b₂ b₃ b₄ b₅ b₆ b₇ : Bool,
      (0 + bit 32 b₀ + bit 32 b₁ + bit 32 b₂ + bit 32 b₃ + bit 32 b₄ + bit 32 b₅ + bit 32 b₆ +
        bit 32 b₇).toNat =
          [b₀.toNat, b₁.toNat, b₂.toNat, b₃.toNat, b₄.toNat, b₅.toNat, b₆.toNat,
            b₇.toNat].sum := by
    decide +kernel
  unfold neighborSum calculateCoord
  simp only [getbit_eq, wrap_self, wrap_succ, wrap_pred]
  rw [hadd]
  simp [alive, hostOffsets, view, index]

section
variable {α κ ν : Type} [DecidableEq κ] {key : α → κ} {val : α → ν} {g : κ → ν}

/-- Writes that agree with `g` keep what agrees with it, -/
theorem foldl_update_keep {l : List α} (hval : ∀ a ∈ l, val a = g (key a)) {f : κ → ν} {k : κ}
    (hf : f k = g k) : l.foldl (fun f a => update f (key a) (val a)) f k = g k := by
  induction l generalizing f with
  | nil => exact hf
  | cons b l ih =>
    refine ih (fun a ha => hval a (List.mem_cons_of_mem b ha)) ?_
    show update f (key b) (val b) k = g k
    by_cases hk : k = key b
    · rw [hk, update_self, hval b List.mem_cons_self]
    · rw [update_of_ne hk, hf]

/-- and leave the values of `g` behind where they write. -/
theorem foldl_update_of_mem {l : List α} (hval : ∀ a ∈ l, val a = g (key a)) {a : α}
    (ha : a ∈ l) (f : κ → ν) :
    l.foldl (fun f a => update f (key a) (val a)) f (key a) = g (key a) := by
  induction l generalizing f with
  | nil => cases ha
  | cons b l ih =>
    have hrest : ∀ a ∈ l, val a = g (key a) := fun a ha => hval a (List.mem_cons_of_mem b ha)
    rcases List.mem_cons.mp ha with rfl | hmem
    · refine foldl_update_keep hrest ?_
      show update f (key a) (val a) (key a) = g (key a)
      rw [update_self, hval a List.mem_cons_self]
    · exact ih hrest hmem _

end

/-- The cells in the order of the two loops. -/
def cells : List Cell := (List.finRange 8).flatMap fun i => (List.finRange 8).map fun j => (i, j)

theorem calculateNeighbors_eq (currentBoard : BitVec 64) (neighbors : Neighbors) :
    calculateNeighbors currentBoard neighbors =
      cells.foldl (fun neighbors x =>
        update neighbors (index x) (neighborSum currentBoard x.1.val x.2.val)) neighbors := by
  have hrange : List.range 8 = (List.finRange 8).map Fin.val := by decide
  unfold calculateNeighbors cells
  simp only [hrange, List.foldl_map, List.foldl_flatMap, calculateNeighborsAt_eq,
    calculateCoord, wrap_self]
  rfl

theorem calculateNeighbors_index (currentBoard : BitVec 64) (neighbors : Neighbors) (x : Cell) :
    calculateNeighbors currentBoard neighbors (index x) =
      neighborSum currentBoard x.1.val x.2.val := by
  have hmem : x ∈ cells := by
    obtain ⟨i, j⟩ := x
    exact List.mem_flatMap.mpr ⟨i, List.mem_finRange i,
      List.mem_map.mpr ⟨j, List.mem_finRange j, rfl⟩⟩
  have hval : ∀ y ∈ cells, neighborSum currentBoard y.1.val y.2.val =
      neighborSum currentBoard (index y % 8) (index y / 8) := by
    intro y _
    have hi : index y % 8 = y.1.val := congrArg (fun c : Cell => c.1.val) (cellOf_index y)
    have hj : index y / 8 = y.2.val := congrArg (fun c : Cell => c.2.val) (cellOf_index y)
    rw [hi, hj]
  rw [calculateNeighbors_eq, hval x hmem]
  exact foldl_update_of_mem (g := fun k => neighborSum currentBoard (k % 8) (k / 8)) hval hmem
    neighbors

/-! ## `apply_gol_rules` -/

theorem applyGolRulesAt_eq (currentBoard returnBoard : BitVec 64) (neighbors : Neighbors)
    (i : Nat) :
    applyGolRulesAt currentBoard (returnBoard, neighbors) i =
      (if lifeRule (currentBoard.getLsbD i) (neighbors i).toNat = true
        then returnBoard ||| (1#64 <<< i) else returnBoard, update neighbors i 0) := by
  have htwo : neighbors i = 2#32 ↔ (neighbors i).toNat = 2 := BitVec.toNat_inj.symm
  have hthree : neighbors i = 3#32 ↔ (neighbors i).toNat = 3 := BitVec.toNat_inj.symm
  unfold applyGolRulesAt lifeRule
  rw [getbit_eq]
  cases currentBoard.getLsbD i <;> simp [bit, htwo, hthree]

theorem getLsbD_or_shift (board : BitVec 64) {i k : Nat} (hk : k < 64) :
    (board ||| (1#64 <<< i)).getLsbD k = (board.getLsbD k || decide (k = i)) := by
  rw [BitVec.getLsbD_or, BitVec.getLsbD_shiftLeft, BitVec.getLsbD_one, decide_eq_true hk]
  congr 1
  by_cases hki : k = i
  · simp [hki]
  · have hdiff : k < i ∨ k - i ≠ 0 := by omega
    rcases hdiff with hlt | hne
    · simp [hki, hlt]
    · simp [hki, hne]

/-- After some rounds: the bits of the cells so far are set, and their words cleared. -/
structure Applied (currentBoard : BitVec 64) (neighbors : Neighbors) (rounds : Nat)
    (s : BitVec 64 × Neighbors) : Prop where
  board : ∀ k < 64, s.1.getLsbD k =
    (decide (k < rounds) && lifeRule (currentBoard.getLsbD k) (neighbors k).toNat)
  cleared : ∀ k < rounds, s.2 k = 0
  rest : ∀ k, rounds ≤ k → s.2 k = neighbors k

theorem Applied.step {currentBoard : BitVec 64} {neighbors : Neighbors} {rounds : Nat}
    {s : BitVec 64 × Neighbors} (h : Applied currentBoard neighbors rounds s) :
    Applied currentBoard neighbors (rounds + 1) (applyGolRulesAt currentBoard s rounds) := by
  obtain ⟨returnBoard, words⟩ := s
  obtain ⟨hboard, hcleared, hrest⟩ := h
  have hword : words rounds = neighbors rounds := hrest rounds (Nat.le_refl _)
  rw [applyGolRulesAt_eq, hword]
  refine ⟨?_, ?_, ?_⟩
  · intro k hk
    have hbit := hboard k hk
    show (if lifeRule (currentBoard.getLsbD rounds) (neighbors rounds).toNat = true
      then returnBoard ||| (1#64 <<< rounds) else returnBoard).getLsbD k = _
    rcases Nat.lt_trichotomy k rounds with hlt | rfl | hgt
    · have hne : k ≠ rounds := by omega
      have hlt' : k < rounds + 1 := by omega
      split
      · rw [getLsbD_or_shift _ hk, hbit]
        simp [hlt, hlt', hne]
      · rw [hbit]
        simp [hlt, hlt']
    · split
      · rename_i hrule
        rw [getLsbD_or_shift _ hk, hrule]
        simp
      · rename_i hrule
        rw [hbit, Bool.eq_false_of_not_eq_true hrule]
        simp
    · have hne : k ≠ rounds := by omega
      have hge : ¬ k < rounds := by omega
      have hge' : ¬ k < rounds + 1 := by omega
      split
      · rw [getLsbD_or_shift _ hk, hbit]
        simp [hge, hge', hne]
      · rw [hbit]
        simp [hge, hge']
  · intro k hk
    show update words rounds 0 k = 0
    by_cases heq : k = rounds
    · rw [heq, update_self]
    · rw [update_of_ne heq]
      exact hcleared k (by omega)
  · intro k hk
    show update words rounds 0 k = neighbors k
    rw [update_of_ne (by omega)]
    exact hrest k (by omega)

theorem applyGolRules_applied (currentBoard : BitVec 64) (neighbors : Neighbors) :
    Applied currentBoard neighbors 64 (applyGolRules currentBoard neighbors) := by
  have hrounds : ∀ rounds, Applied currentBoard neighbors rounds
      ((List.range rounds).foldl (applyGolRulesAt currentBoard) (0, neighbors)) := by
    intro rounds
    induction rounds with
    | zero => exact ⟨fun k _ => by simp, nofun, fun _ _ => rfl⟩
    | succ rounds ih =>
      rw [List.range_succ, List.foldl_append]
      exact ih.step
  exact hrounds 64

/-! ## `run_gol_verify` -/

/-- The next board of a round that starts with a cleared array. -/
def hostNext (currentBoard : BitVec 64) : BitVec 64 :=
  (applyGolRules currentBoard (calculateNeighbors currentBoard fun _ => 0)).1

theorem view_round (currentBoard : BitVec 64) (neighbors : Neighbors) (x : Cell) :
    view (applyGolRules currentBoard (calculateNeighbors currentBoard neighbors)).1 x =
      next hostOffsets lifeRule (view currentBoard) x := by
  have hbit := (applyGolRules_applied currentBoard
    (calculateNeighbors currentBoard neighbors)).board (index x) (index_lt x)
  rw [decide_eq_true (index_lt x), Bool.true_and, calculateNeighbors_index,
    neighborSum_toNat] at hbit
  exact hbit

theorem hostNext_computes : Computes hostOffsets lifeRule view hostNext := by
  intro currentBoard x
  exact view_round currentBoard _ x

/-- What is in the array before a round does not matter to its board. -/
theorem round_eq (currentBoard : BitVec 64) (neighbors : Neighbors) :
    (applyGolRules currentBoard (calculateNeighbors currentBoard neighbors)).1 =
      hostNext currentBoard := by
  apply view_injective
  funext x
  rw [view_round, hostNext_computes currentBoard x]

theorem golRuns_eq (left : Nat) (currentBoard : BitVec 64) (neighbors : Neighbors)
    (hcleared : ∀ k < 64, neighbors k = 0) :
    golRuns left currentBoard neighbors = some (hostNext^[left] currentBoard) := by
  induction left generalizing currentBoard neighbors with
  | zero => rfl
  | succ left ih =>
    have hgo : (List.range 64).any (fun j => neighbors j != 0) = false := by
      rw [List.any_eq_false]
      intro k hk
      rw [hcleared k (List.mem_range.mp hk)]
      decide
    have happlied := applyGolRules_applied currentBoard
      (calculateNeighbors currentBoard neighbors)
    unfold golRuns
    rw [hgo, iterate_succ_apply, ← round_eq currentBoard neighbors]
    exact ih _ _ happlied.cleared

/-- The reference never exits, and runs the automaton as often as it is told. -/
theorem runGolVerify_eq (board : BitVec 64) (numberOfRuns : BitVec 32) :
    runGolVerify board numberOfRuns = some (hostNext^[numberOfRuns.toNat] board) :=
  golRuns_eq _ board _ fun _ _ => rfl

end FpgaPartialReconfig.Gol
