/-
  Cellular automata.

  The cells of a board are the elements of `G`, and each is alive or dead. The next board
  gives each cell a rule's verdict on the cell and on how many of its neighbours are alive;
  the neighbours are reached by a list of offsets, in whatever order (`alive_perm`).

  A machine that keeps the board in a representation of its own `Computes` the automaton when
  its step is the next board, seen through a view. Then its runs are those of the automaton,
  and two machines that compute the same automaton through the same injective view agree.
-/
import Mathlib.Data.Nat.Bitwise
import Mathlib.Logic.Function.Iterate

namespace FpgaPartialReconfig.Automaton

variable {G S : Type} [Add G]

/-- How many of the neighbours of a cell are alive. -/
def alive (offsets : List G) (board : G → Bool) (x : G) : Nat :=
  (offsets.map fun d => (board (x + d)).toNat).sum

theorem alive_perm {offsets offsets' : List G} (h : offsets.Perm offsets') (board : G → Bool)
    (x : G) : alive offsets board x = alive offsets' board x :=
  (h.map _).sum_nat

def next (offsets : List G) (rule : Bool → Nat → Bool) (board : G → Bool) : G → Bool :=
  fun x => rule (board x) (alive offsets board x)

theorem next_perm {offsets offsets' : List G} (h : offsets.Perm offsets')
    (rule : Bool → Nat → Bool) : next offsets rule = next offsets' rule := by
  funext board x
  unfold next
  rw [alive_perm h]

/-! ## Machines -/

variable (offsets : List G) (rule : Bool → Nat → Bool)

/-- A step of the machine is a step of the automaton, seen through `view`. -/
def Computes (view : S → G → Bool) (step : S → S) : Prop :=
  ∀ s x, view (step s) x = next offsets rule (view s) x

variable {offsets rule} {view : S → G → Bool} {step step' : S → S}

theorem Computes.semiconj (h : Computes offsets rule view step) :
    Function.Semiconj view step (next offsets rule) := by
  intro s
  funext x
  exact h s x

theorem Computes.iterate (h : Computes offsets rule view step) (n : Nat) (s : S) :
    view (step^[n] s) = (next offsets rule)^[n] (view s) :=
  h.semiconj.iterate_right n s

/-- Whatever the order in which they visit the neighbours, two machines agree. -/
theorem Computes.agree {offsets' : List G} (h : Computes offsets rule view step)
    (h' : Computes offsets' rule view step') (hperm : offsets.Perm offsets')
    (hview : Function.Injective view) (n : Nat) (s : S) : step^[n] s = step'^[n] s := by
  apply hview
  rw [h.iterate, h'.iterate, next_perm hperm]

end FpgaPartialReconfig.Automaton
