/-
  Trees that are written down as a sequence of tokens.

  A node is written as an opening sequence for its label, the subtrees in their order, and a
  closing sequence (`flat`). A reader goes over the sequence from left to right. If it picks
  up one thing at each opening sequence and nothing at a closing one (`Reads`), it picks up
  the labels of the tree in preorder, each once (`Reads.flat`), whatever comes behind the
  tree.

  A reader may have to know where the opening sequence ends: `stops` says of what comes next
  that it does not go on with it.
-/
import Mathlib.Data.List.Basic

namespace FpgaPartialReconfig.Flatten

universe u v w

inductive Rose (α : Type u) where
  | node (label : α) (children : List (Rose α))

variable {α : Type u} {τ : Type v} {ρ : Type w}

mutual

/-- The label of a node before those of its subtrees. -/
def Rose.preorder : Rose α → List α
  | .node a children => a :: preorderAll children

def preorderAll : List (Rose α) → List α
  | [] => []
  | t :: ts => t.preorder ++ preorderAll ts

end

mutual

def Rose.flat (opening : α → List τ) (closing : List τ) : Rose α → List τ
  | .node a children => opening a ++ (flatAll opening closing children ++ closing)

def flatAll (opening : α → List τ) (closing : List τ) : List (Rose α) → List τ
  | [] => []
  | t :: ts => t.flat opening closing ++ flatAll opening closing ts

end

/-- The reader `read` picks up `pick a` at the opening sequence of `a`. -/
structure Reads (opening : α → List τ) (closing : List τ) (stops : List τ → Prop)
    (read : List τ → List ρ) (pick : α → ρ) : Prop where
  opens : ∀ a rest, stops rest → read (opening a ++ rest) = pick a :: read rest
  closes : ∀ rest, read (closing ++ rest) = read rest
  stops_opening : ∀ a rest, stops (opening a ++ rest)
  stops_closing : ∀ rest, stops (closing ++ rest)

variable {opening : α → List τ} {closing : List τ} {stops : List τ → Prop}
  {read : List τ → List ρ} {pick : α → ρ}

theorem stops_flat (h : Reads opening closing stops read pick) (t : Rose α) (rest : List τ) :
    stops (t.flat opening closing ++ rest) := by
  cases t with
  | node a children =>
    rw [Rose.flat, List.append_assoc]
    exact h.stops_opening a _

theorem stops_flatAll (h : Reads opening closing stops read pick) (ts : List (Rose α))
    (rest : List τ) : stops (flatAll opening closing ts ++ (closing ++ rest)) := by
  cases ts with
  | nil => exact h.stops_closing rest
  | cons t ts =>
    rw [flatAll, List.append_assoc]
    exact stops_flat h t _

mutual

/-- What is picked up from a tree, and then from what comes behind it. -/
theorem Reads.flat (h : Reads opening closing stops read pick) :
    (t : Rose α) → (rest : List τ) →
      read (t.flat opening closing ++ rest) = t.preorder.map pick ++ read rest
  | .node a children, rest => by
    have hchildren := Reads.flatAll h children (closing ++ rest)
    have hstops := stops_flatAll h children rest
    rw [Rose.flat, Rose.preorder, List.append_assoc, List.append_assoc, h.opens a _ hstops,
      hchildren, h.closes rest, List.map_cons, List.cons_append]

theorem Reads.flatAll (h : Reads opening closing stops read pick) :
    (ts : List (Rose α)) → (rest : List τ) →
      read (flatAll opening closing ts ++ rest) = (preorderAll ts).map pick ++ read rest
  | [], _ => by rw [Flatten.flatAll, preorderAll, List.map_nil, List.nil_append, List.nil_append]
  | t :: ts, rest => by
    rw [Flatten.flatAll, preorderAll, List.append_assoc, Reads.flat h t, Reads.flatAll h ts,
      List.map_append, List.append_assoc]

end

end FpgaPartialReconfig.Flatten
