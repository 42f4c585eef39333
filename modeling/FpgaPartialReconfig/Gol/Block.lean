/-
  The board of the persona: `gol_cell`, `block` and `gol_block_wrapper`.

  A cell counts the live ones among its eight neighbour wires with an adder of four bits.
  `block` is 64 cells, wired on the torus; while its clock is enabled its step is the next
  board of the automaton (`nextBoard_computes`). `gol_block_wrapper` has one board and copies
  it, a cycle later, into the result register, which a start clears.

  A step is what an edge of the clock does. The reset is asynchronous and has no need of one:
  what is seen of the registers while it is high is for `Moderator.settle` to say.
-/
import FpgaPartialReconfig.Gol.Life

namespace FpgaPartialReconfig.Gol

open Automaton

/-! ## `gol_cell` -/

structure GolCellIn where
  rst : Bool
  clkEn : Bool
  init : Bool
  neighbors : Nat → Bool
  startingVal : Bool

def numOnes (neighbors : Nat → Bool) : BitVec 4 :=
  bit 4 (neighbors 7) + bit 4 (neighbors 6) + bit 4 (neighbors 5) + bit 4 (neighbors 4) +
    bit 4 (neighbors 3) + bit 4 (neighbors 2) + bit 4 (neighbors 1) + bit 4 (neighbors 0)

def myStatusNext (myStatusLocal : Bool) (neighbors : Nat → Bool) : Bool :=
  if myStatusLocal = false then
    if numOnes neighbors = 3#4 then true else false
  else
    if numOnes neighbors = 2#4 ∨ numOnes neighbors = 3#4 then true else false

/-- The cell's register. -/
def golCellStep (myStatusReg : Bool) (i : GolCellIn) : Bool :=
  if i.rst = true then false
  else if i.init = true then i.startingVal
  else if i.clkEn = true then myStatusNext myStatusReg i.neighbors
  else myStatusReg

/-! ## `block` -/

/-- The wires from its neighbours to the cell at `i` and `j`. -/
def neighborWire (golBoard : BitVec 64) (i j : Nat) : Nat → Bool
  | 0 => golBoard.getLsbD (wrap (i + 1) + j * 8)
  | 1 => golBoard.getLsbD (wrap (i - 1) + j * 8)
  | 2 => golBoard.getLsbD (i + wrap (j + 1) * 8)
  | 3 => golBoard.getLsbD (i + wrap (j - 1) * 8)
  | 4 => golBoard.getLsbD (wrap (i + 1) + wrap (j + 1) * 8)
  | 5 => golBoard.getLsbD (wrap (i + 1) + wrap (j - 1) * 8)
  | 6 => golBoard.getLsbD (wrap (i - 1) + wrap (j + 1) * 8)
  | 7 => golBoard.getLsbD (wrap (i - 1) + wrap (j - 1) * 8)
  | _ => false

structure BlockIn where
  clkEn : Bool
  init : Bool
  rst : Bool
  boardInitial : BitVec 64

/-- The 64 cells' registers; the cell with index `i + j * 8` is the one at `i` and `j`. -/
def blockStep (golBoard : BitVec 64) (inp : BlockIn) : BitVec 64 :=
  ofCells fun k => golCellStep (golBoard.getLsbD k.val)
    { rst := inp.rst
      clkEn := inp.clkEn
      init := inp.init
      neighbors := neighborWire golBoard (k.val % 8) (k.val / 8)
      startingVal := inp.boardInitial.getLsbD k.val }

/-- The board after an enabled cycle. -/
def nextBoard (golBoard : BitVec 64) : BitVec 64 :=
  ofCells fun k =>
    myStatusNext (golBoard.getLsbD k.val) (neighborWire golBoard (k.val % 8) (k.val / 8))

theorem ofCells_getLsbD (board : BitVec 64) :
    ofCells (fun k => board.getLsbD k.val) = board := by
  apply BitVec.eq_of_getLsbD_eq
  intro k hk
  exact getLsbD_ofCells _ ⟨k, hk⟩

theorem blockStep_eq (golBoard : BitVec 64) (inp : BlockIn) :
    blockStep golBoard inp =
      if inp.rst = true then 0#64
      else if inp.init = true then inp.boardInitial
      else if inp.clkEn = true then nextBoard golBoard
      else golBoard := by
  unfold blockStep golCellStep
  by_cases hrst : inp.rst = true
  · simp only [if_pos hrst]
    rw [← ofCells_getLsbD 0#64]
    simp
  · by_cases hinit : inp.init = true
    · simp only [if_neg hrst, if_pos hinit]
      exact ofCells_getLsbD inp.boardInitial
    · by_cases hclk : inp.clkEn = true
      · simp only [if_neg hrst, if_neg hinit, if_pos hclk]
        rfl
      · simp only [if_neg hrst, if_neg hinit, if_neg hclk]
        exact ofCells_getLsbD golBoard

/-! ## The board is the automaton's -/

theorem neighborWire_eq (golBoard : BitVec 64) (x : Cell) (n : Fin 8) :
    neighborWire golBoard x.1.val x.2.val n.val = view golBoard (x + wireOffset n) := by
  obtain ⟨i, j⟩ := x
  unfold view index
  have hi := wrap_succ i
  have hi' := wrap_pred i
  have hj := wrap_succ j
  have hj' := wrap_pred j
  match n with
  | 0 => simp [neighborWire, wireOffset, hi]
  | 1 => simp [neighborWire, wireOffset, hi']
  | 2 => simp [neighborWire, wireOffset, hj]
  | 3 =>
    show golBoard.getLsbD (i.val + wrap (j.val - 1) * 8) = _
    simp [wireOffset, hj']
  | 4 =>
    show golBoard.getLsbD (wrap (i.val + 1) + wrap (j.val + 1) * 8) = _
    simp [wireOffset, hi, hj]
  | 5 =>
    show golBoard.getLsbD (wrap (i.val + 1) + wrap (j.val - 1) * 8) = _
    simp [wireOffset, hi, hj']
  | 6 =>
    show golBoard.getLsbD (wrap (i.val - 1) + wrap (j.val + 1) * 8) = _
    simp [wireOffset, hi', hj]
  | 7 =>
    show golBoard.getLsbD (wrap (i.val - 1) + wrap (j.val - 1) * 8) = _
    simp [wireOffset, hi', hj']

theorem alive_wires (golBoard : BitVec 64) (x : Cell) :
    alive wireOffsets (view golBoard) x =
      ((List.finRange 8).map fun n =>
        (neighborWire golBoard x.1.val x.2.val n.val).toNat).sum := by
  unfold alive wireOffsets
  rw [List.map_map]
  congr 2
  funext n
  rw [neighborWire_eq]
  rfl

/-- Four bits are enough for eight neighbours. -/
theorem numOnes_toNat (neighbors : Nat → Bool) :
    (numOnes neighbors).toNat = ((List.finRange 8).map fun n => (neighbors n.val).toNat).sum := by
  have hadd : ∀ b₀ b₁ b₂ b₃ b₄ b₅ b₆ b₇ : Bool,
      (bit 4 b₇ + bit 4 b₆ + bit 4 b₅ + bit 4 b₄ + bit 4 b₃ + bit 4 b₂ + bit 4 b₁ +
        bit 4 b₀).toNat =
          [b₀.toNat, b₁.toNat, b₂.toNat, b₃.toNat, b₄.toNat, b₅.toNat, b₆.toNat,
            b₇.toNat].sum := by
    decide +kernel
  exact hadd _ _ _ _ _ _ _ _

theorem myStatusNext_eq (myStatusLocal : Bool) (neighbors : Nat → Bool) :
    myStatusNext myStatusLocal neighbors =
      lifeRule myStatusLocal ((List.finRange 8).map fun n => (neighbors n.val).toNat).sum := by
  have htwo : numOnes neighbors = 2#4 ↔ (numOnes neighbors).toNat = 2 :=
    BitVec.toNat_inj.symm
  have hthree : numOnes neighbors = 3#4 ↔ (numOnes neighbors).toNat = 3 :=
    BitVec.toNat_inj.symm
  unfold myStatusNext lifeRule
  rw [← numOnes_toNat]
  cases myStatusLocal <;> simp [htwo, hthree]

theorem nextBoard_computes : Computes wireOffsets lifeRule view nextBoard := by
  intro golBoard x
  have hcell : cellOf ⟨index x, index_lt x⟩ = x := cellOf_index x
  have hi : index x % 8 = x.1.val := congrArg (fun c : Cell => c.1.val) hcell
  have hj : index x / 8 = x.2.val := congrArg (fun c : Cell => c.2.val) hcell
  unfold nextBoard next
  rw [view_ofCells, myStatusNext_eq]
  show lifeRule (view golBoard x)
    ((List.finRange 8).map fun n =>
      (neighborWire golBoard (index x % 8) (index x / 8) n.val).toNat).sum = _
  rw [hi, hj, alive_wires]

/-! ## `gol_block_wrapper` -/

structure GolBlockWrapper where
  golBoard : BitVec 64
  boardFinalReg : BitVec 64
  deriving DecidableEq, Repr

namespace GolBlockWrapper

def reset : GolBlockWrapper := ⟨0, 0⟩

def step (m : GolBlockWrapper) (inp : BlockIn) : GolBlockWrapper where
  golBoard := blockStep m.golBoard inp
  boardFinalReg :=
    if inp.rst = true then 0
    else if inp.init = true then 0
    else m.golBoard

/-- In a reset the edge has nothing to add. -/
theorem step_of_rst {m : GolBlockWrapper} {inp : BlockIn} (hrst : inp.rst = true) :
    m.step inp = reset := by
  unfold step reset
  rw [blockStep_eq, if_pos hrst, if_pos hrst]
  rfl

end GolBlockWrapper

end FpgaPartialReconfig.Gol
