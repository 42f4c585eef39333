/-
  Counting loops.

  `forLoop first last body` runs `body` with the counter at `first`, …, `last`; it does
  nothing where `last` is less than `first`. An invariant may speak of the counter
  (`forLoop_inv`); what every turn keeps is there at the end if one turn brings it about
  (`forLoop_of_turn`).
-/
import Mathlib.Data.Int.Init

namespace FpgaPartialReconfig

variable {S : Type}

section
variable (body : Int → S → S)

/-- `n` turns, the first one with the counter at `x`. -/
def turns : Nat → Int → S → S
  | 0, _, s => s
  | n + 1, x, s => turns n (x + 1) (body x s)

def forLoop (first last : Int) (s : S) : S := turns body (last + 1 - first).toNat first s

theorem forLoop_first {first last : Int} (h : first ≤ last) (s : S) :
    forLoop body first last s = forLoop body (first + 1) last (body first s) := by
  have hturns : (last + 1 - first).toNat = (last + 1 - (first + 1)).toNat + 1 := by omega
  unfold forLoop
  rw [hturns]
  rfl

end

variable {body : Int → S → S} {first last : Int}

theorem turns_inv {P : Int → S → Prop} {n : Nat} {x : Int} {s : S}
    (hstep : ∀ y s, x ≤ y → y < x + n → P y s → P (y + 1) (body y s)) (h : P x s) :
    P (x + n) (turns body n x s) := by
  induction n generalizing x s with
  | zero =>
    have hcounter : x + ((0 : Nat) : Int) = x := Int.add_zero x
    rw [hcounter]
    exact h
  | succ n ih =>
    have hfirst : P (x + 1) (body x s) := hstep x s (Int.le_refl x) (by omega) h
    have hrest : P (x + 1 + n) (turns body n (x + 1) (body x s)) := by
      refine ih ?_ hfirst
      intro y s hlow hhigh
      exact hstep y s (by omega) (by omega)
    have hcounter : x + ((n + 1 : Nat) : Int) = x + 1 + n := by omega
    rw [hcounter]
    exact hrest

theorem forLoop_inv {P : Int → S → Prop} {s : S} (hle : first ≤ last + 1)
    (hstep : ∀ x s, first ≤ x → x ≤ last → P x s → P (x + 1) (body x s)) (h : P first s) :
    P (last + 1) (forLoop body first last s) := by
  have hcounter : first + (last + 1 - first).toNat = last + 1 := by omega
  have hinv := @turns_inv S body P (last + 1 - first).toNat first s
    (fun y s hlow hhigh => hstep y s hlow (by omega)) h
  rw [hcounter] at hinv
  exact hinv

variable {Q : S → Prop}

theorem turns_keeps (hkeep : ∀ x s, Q s → Q (body x s)) (n : Nat) (x : Int) {s : S} (h : Q s) :
    Q (turns body n x s) := by
  induction n generalizing x s with
  | zero => exact h
  | succ n ih => exact ih (x + 1) (hkeep x s h)

theorem forLoop_keeps (hkeep : ∀ x s, Q s → Q (body x s)) {s : S} (h : Q s) :
    Q (forLoop body first last s) := turns_keeps hkeep _ first h

theorem turns_of_turn (hkeep : ∀ x s, Q s → Q (body x s)) {n : Nat} {x y : Int}
    (hlow : x ≤ y) (hhigh : y < x + n) (hturn : ∀ s, Q (body y s)) (s : S) :
    Q (turns body n x s) := by
  induction n generalizing x s with
  | zero => omega
  | succ n ih =>
    by_cases hnow : x = y
    · subst hnow
      exact turns_keeps hkeep n (x + 1) (hturn s)
    · exact ih (by omega) (by omega) (body x s)

/-- One turn brings `Q` about, and all keep it. -/
theorem forLoop_of_turn (hkeep : ∀ x s, Q s → Q (body x s)) {y : Int} (hlow : first ≤ y)
    (hhigh : y ≤ last) (hturn : ∀ s, Q (body y s)) (s : S) : Q (forLoop body first last s) :=
  turns_of_turn hkeep hlow (by omega) hturn s

end FpgaPartialReconfig
