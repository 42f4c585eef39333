/-
  The Game of Life on a board of 64 bits.

  Persona and host keep the board in 64 bits, with row and column of a cell mixed into an
  index and the neighbours found by index arithmetic that wraps around at the edges. Here is
  what both stand for: an automaton on the torus of 8 by 8 cells, a view of 64 bits as such a
  board, and what the index arithmetic means on the torus.
-/
import FpgaPartialReconfig.Lib.Automaton
import Mathlib.Algebra.Group.Prod

namespace FpgaPartialReconfig.Gol

open Automaton

/-! ## The automaton -/

/-- A cell of the board: its `i` and its `j`. -/
abbrev Cell := Fin 8 × Fin 8

/-- A live cell goes on with two or three live neighbours, and a dead one comes alive with
    three. -/
def lifeRule (cell : Bool) (neighbors : Nat) : Bool :=
  if cell = true then decide (neighbors = 2 ∨ neighbors = 3) else decide (neighbors = 3)

/-! ## Neighbours -/

/-- The neighbour at the other end of a wire of a cell of the persona. -/
def wireOffset : Fin 8 → Cell
  | 0 => (1, 0)
  | 1 => (-1, 0)
  | 2 => (0, 1)
  | 3 => (0, -1)
  | 4 => (1, 1)
  | 5 => (1, -1)
  | 6 => (-1, 1)
  | 7 => (-1, -1)

def wireOffsets : List Cell := (List.finRange 8).map wireOffset

/-- The neighbours in the order in which the host adds them up. -/
def hostOffsets : List Cell :=
  [(1, 1), (1, 0), (1, -1), (0, -1), (0, 1), (-1, 1), (-1, 0), (-1, -1)]

theorem offsets_perm : wireOffsets.Perm hostOffsets := by
  decide

/-! ## Boards of 64 bits -/

def index (x : Cell) : Nat := x.1.val + x.2.val * 8

/-- The cell with an index. -/
def cellOf (k : Fin 64) : Cell := (⟨k.val % 8, by omega⟩, ⟨k.val / 8, by omega⟩)

theorem index_cellOf (k : Fin 64) : index (cellOf k) = k.val := by
  show k.val % 8 + k.val / 8 * 8 = k.val
  omega

theorem index_lt (x : Cell) : index x < 64 := by
  unfold index
  omega

theorem cellOf_index (x : Cell) : cellOf ⟨index x, index_lt x⟩ = x := by
  apply Prod.ext
  · apply Fin.ext
    show (x.1.val + x.2.val * 8) % 8 = x.1.val
    omega
  · apply Fin.ext
    show (x.1.val + x.2.val * 8) / 8 = x.2.val
    omega

/-- The board that 64 bits stand for. -/
def view (board : BitVec 64) (x : Cell) : Bool := board.getLsbD (index x)

theorem view_injective : Function.Injective view := by
  intro board board' h
  apply BitVec.eq_of_getLsbD_eq
  intro k hk
  have hcell := congrFun h (cellOf ⟨k, hk⟩)
  unfold view at hcell
  rwa [index_cellOf] at hcell

/-- 64 bits, each from its own cell. -/
def ofCells (cell : Fin 64 → Bool) : BitVec 64 := BitVec.ofNat 64 (Nat.ofBits cell)

theorem getLsbD_ofCells (cell : Fin 64 → Bool) (k : Fin 64) :
    (ofCells cell).getLsbD k.val = cell k := by
  unfold ofCells
  rw [BitVec.getLsbD_ofNat, Nat.testBit_ofBits_lt cell k.val k.isLt]
  simp

theorem view_ofCells (cell : Fin 64 → Bool) (x : Cell) :
    view (ofCells cell) x = cell ⟨index x, index_lt x⟩ :=
  getLsbD_ofCells cell ⟨index x, index_lt x⟩

/-- A bit as a word. -/
def bit (w : Nat) (b : Bool) : BitVec w := (BitVec.ofBool b).setWidth w

/-! ## Index arithmetic -/

/-- `(x + 8) % 8`, with the sign of the language's remainder. -/
def wrap (x : Int) : Nat := ((x + 8).tmod 8).toNat

theorem wrap_self (i : Fin 8) : wrap i.val = i.val := by
  revert i
  decide

theorem wrap_succ (i : Fin 8) : wrap (i.val + 1) = (i + 1).val := by
  revert i
  decide

theorem wrap_pred (i : Fin 8) : wrap (i.val - 1) = (i + -1).val := by
  revert i
  decide

end FpgaPartialReconfig.Gol
