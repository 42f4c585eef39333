/-
  Programs that make calls, one at a time or many interleaved.

  A `Prog` makes calls of type `Q`, each answered by a value of type `R`, and ends with an
  `α`. A handler runs one call on a shared state; it answers `none` when the call never
  returns. `Prog.run` runs a program alone. A `Pool` holds one program for each client over
  one shared state: a step lets one client make its next call, whole, and a schedule is any
  list of clients. The pool keeps the history of the calls made.

  `Pool.run_inv` is the invariant rule: what every call of the clients preserves holds after
  every schedule, where the history may be assumed to satisfy a condition.
-/
import FpgaPartialReconfig.Lib.Act
import Mathlib.Data.List.Induction

namespace FpgaPartialReconfig

inductive Prog (Q R α : Type) where
  | ret (a : α)
  | call (q : Q) (k : R → Prog Q R α)

namespace Prog

variable {S Q R α : Type} (h : Q → Act S (Option R))

/-- Run a program alone; `none` when one of its calls never returns. -/
def run : Prog Q R α → Act S (Option α)
  | .ret a => pure (some a)
  | .call q k => do
    let r ← h q
    match r with
    | none => pure none
    | some r => run (k r)

/-- The calls a program makes when run alone from `s`. -/
def issued : Prog Q R α → S → List Q
  | .ret _, _ => []
  | .call q k, s =>
    match h q s with
    | (none, _) => [q]
    | (some r, s') => q :: issued (k r) s'

theorem run_call_none {q : Q} {s : S} (k : R → Prog Q R α) (hq : (h q s).1 = none) :
    run h (.call q k) s = (none, (h q s).2) := by
  simp only [run, Act.bind_apply, hq, Act.pure_apply]

theorem run_call_some {q : Q} {r : R} {s : S} (k : R → Prog Q R α) (hq : (h q s).1 = some r) :
    run h (.call q k) s = run h (k r) (h q s).2 := by
  simp only [run, Act.bind_apply, hq]

theorem issued_call_none {q : Q} {s : S} (k : R → Prog Q R α) (hq : (h q s).1 = none) :
    issued h (.call q k) s = [q] := by
  unfold issued
  split <;> simp_all

theorem issued_call_some {q : Q} {r : R} {s : S} (k : R → Prog Q R α)
    (hq : (h q s).1 = some r) :
    issued h (.call q k) s = q :: issued h (k r) (h q s).2 := by
  rw [issued]
  split <;> simp_all

/-- A program that makes one call and ends. -/
theorem call_last {q : Q} {k : R → Prog Q R α} (hk : ∀ r, ∃ a, k r = .ret a) (s : S) :
    (run h (.call q k) s).2 = (h q s).2 ∧ issued h (.call q k) s = [q] := by
  cases hq : (h q s).1 with
  | none => exact ⟨by rw [run_call_none h k hq], issued_call_none h k hq⟩
  | some r =>
    obtain ⟨a, ha⟩ := hk r
    rw [run_call_some h k hq, issued_call_some h k hq, ha]
    exact ⟨rfl, rfl⟩

/-- Every call the program can make is in `P`. -/
def OnlyCalls (P : Q → Prop) : Prog Q R α → Prop
  | .ret _ => True
  | .call q k => P q ∧ ∀ r, OnlyCalls P (k r)

end Prog

/-! ## Interleaving -/

/-- A call made by a client, with its answer. -/
structure Event (ι Q R : Type) where
  client : ι
  call : Q
  answer : Option R

/-- Clients over one shared state. `prog i` is what client `i` still has to do, and `none`
    once it is in a call that never returns. -/
structure Pool (S ι Q R α : Type) where
  shared : S
  prog : ι → Option (Prog Q R α)
  history : List (Event ι Q R)

namespace Pool

variable {S ι Q R α : Type} [DecidableEq ι] (h : Q → Act S (Option R))

/-- All clients at their beginning. -/
def start (s : S) (prog : ι → Prog Q R α) : Pool S ι Q R α := ⟨s, fun i => some (prog i), []⟩

/-- Client `i` makes its next call, if it has one. -/
def step (p : Pool S ι Q R α) (i : ι) : Pool S ι Q R α :=
  match p.prog i with
  | some (.call q k) =>
    { shared := (h q p.shared).2
      prog := Function.update p.prog i ((h q p.shared).1.map k)
      history := p.history ++ [⟨i, q, (h q p.shared).1⟩] }
  | _ => p

def run (p : Pool S ι Q R α) (schedule : List ι) : Pool S ι Q R α := schedule.foldl (step h) p

theorem step_cases (p : Pool S ι Q R α) (i : ι) :
    step h p i = p ∨ ∃ q k, p.prog i = some (.call q k) ∧ step h p i =
      { shared := (h q p.shared).2
        prog := Function.update p.prog i ((h q p.shared).1.map k)
        history := p.history ++ [⟨i, q, (h q p.shared).1⟩] } := by
  unfold step
  split
  · rename_i q k hq
    exact .inr ⟨q, k, hq, rfl⟩
  · exact .inl rfl

theorem run_append (p : Pool S ι Q R α) (xs ys : List ι) :
    run h p (xs ++ ys) = run h (run h p xs) ys :=
  List.foldl_append

/-- The invariant rule. `P` is what the clients' calls are like, and `C` a condition on
    histories that passes to earlier ones. -/
theorem run_inv {P : Q → Prop} {C : List (Event ι Q R) → Prop}
    (hC : ∀ xs ys, C (xs ++ ys) → C xs) {I : S → List (Event ι Q R) → Prop} {s : S}
    {prog : ι → Prog Q R α} (hprog : ∀ i, (prog i).OnlyCalls P) (h0 : I s [])
    (hstep : ∀ s hist i q, I s hist → P q → C (hist ++ [⟨i, q, (h q s).1⟩]) →
      I (h q s).2 (hist ++ [⟨i, q, (h q s).1⟩])) (schedule : List ι) :
    C (run h (start s prog) schedule).history →
      I (run h (start s prog) schedule).shared (run h (start s prog) schedule).history := by
  have hgo : (∀ i p, (run h (start s prog) schedule).prog i = some p → p.OnlyCalls P) ∧
      (C (run h (start s prog) schedule).history →
        I (run h (start s prog) schedule).shared (run h (start s prog) schedule).history) := by
    induction schedule using List.reverseRecOn with
    | nil =>
      refine ⟨fun i p hp => ?_, fun _ => h0⟩
      obtain rfl : prog i = p := Option.some.inj hp
      exact hprog i
    | append_singleton xs i ih =>
      obtain ⟨hcalls, hinv⟩ := ih
      have hlast : run h (start s prog) (xs ++ [i]) = step h (run h (start s prog) xs) i :=
        run_append h _ xs [i]
      rw [hlast]
      rcases step_cases h (run h (start s prog) xs) i with heq | ⟨q, k, hq, heq⟩
      · rw [heq]
        exact ⟨hcalls, hinv⟩
      · rw [heq]
        have hcall := hcalls i _ hq
        refine ⟨fun j p hp => ?_, fun hc => hstep _ _ i q (hinv (hC _ _ hc)) hcall.1 hc⟩
        dsimp only at hp
        by_cases hji : j = i
        · subst hji
          rw [Function.update_self] at hp
          obtain ⟨r, -, rfl⟩ := Option.map_eq_some_iff.mp hp
          exact hcall.2 r
        · rw [Function.update_of_ne hji] at hp
          exact hcalls j p hp
  exact hgo.2

end Pool

end FpgaPartialReconfig
