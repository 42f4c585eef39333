/-
  Runs of a step function over a list of inputs.

  `run step s ws` is the state after the inputs `ws`. An invariant that every step keeps
  holds after every run (`run_inv`). `holds_along_iff` is for a property that only some
  steps keep: where every step outside `Allowed` breaks it at once, it holds all along a
  run exactly if every step of the run is allowed. `holds_after_iff` is for one that does not
  come back once it is lost.
-/
import Mathlib.Data.List.Basic
import Mathlib.Data.List.Induction

namespace FpgaPartialReconfig

variable {S I : Type} (step : S → I → S)

/-- The state after the inputs `ws`. -/
def run (s : S) (ws : List I) : S := ws.foldl step s

@[simp] theorem run_nil (s : S) : run step s [] = s := rfl

@[simp] theorem run_cons (s : S) (w : I) (ws : List I) :
    run step s (w :: ws) = run step (step s w) ws := rfl

theorem run_snoc (s : S) (ws : List I) (w : I) :
    run step s (ws ++ [w]) = step (run step s ws) w := by
  unfold run
  rw [List.foldl_append]
  rfl

/-- What holds at each step of a run with one more step at its end. -/
theorem forall_steps_snoc {Q : List I → I → Prop} {ws : List I} {w : I} :
    (∀ before w' after, ws ++ [w] = before ++ w' :: after → Q before w') ↔
      (∀ before w' after, ws = before ++ w' :: after → Q before w') ∧ Q ws w := by
  constructor
  · intro h
    refine ⟨fun before w' after heq => ?_, h ws w [] rfl⟩
    exact h before w' (after ++ [w]) (by rw [heq, List.append_assoc, List.cons_append])
  · rintro ⟨h, hlast⟩ before w' after heq
    rcases List.eq_nil_or_concat after with rfl | ⟨after, last, rfl⟩
    · obtain ⟨rfl, hw⟩ := List.append_inj' heq rfl
      obtain rfl := List.singleton_inj.mp hw
      exact hlast
    · rw [List.concat_eq_append, ← List.cons_append, ← List.append_assoc] at heq
      exact h before w' after (List.append_inj' heq rfl).1

variable {step} {Inv P : S → Prop} {Allowed : S → I → Prop}

theorem run_inv (hstep : ∀ s w, Inv s → Inv (step s w)) {s : S} (h : Inv s) (ws : List I) :
    Inv (run step s ws) := by
  induction ws generalizing s with
  | nil => exact h
  | cons w ws ih => exact ih (hstep s w h)

/-- An invariant that the allowed steps keep, along a run of allowed steps. -/
theorem run_inv_of_allowed (hstep : ∀ s w, Inv s → Allowed s w → Inv (step s w)) {s : S}
    (h : Inv s) (ws : List I)
    (hallowed : ∀ before w after, ws = before ++ w :: after → Allowed (run step s before) w) :
    Inv (run step s ws) := by
  induction ws generalizing s with
  | nil => exact h
  | cons w ws ih =>
    have hw : Allowed s w := hallowed [] w ws rfl
    have hnext : Inv (step s w) := hstep s w h hw
    refine ih hnext ?_
    intro before w' after hws
    exact hallowed (w :: before) w' after (by rw [hws]; rfl)

/-- Where a step outside `Allowed` breaks `P`, whatever came before it, `P` holds all along a
    run exactly if every step of it is allowed. -/
theorem holds_along_iff {J : S → Prop} (hinv : ∀ s w, Inv s → Allowed s w → Inv (step s w))
    (hP : ∀ s, Inv s → P s) (hJ : ∀ s w, J s → J (step s w))
    (hbreak : ∀ s w, J s → ¬ Allowed s w → ¬ P (step s w)) {s : S} (h : Inv s) (hj : J s)
    (ws : List I) :
    (∀ before after, ws = before ++ after → P (run step s before)) ↔
      ∀ before w after, ws = before ++ w :: after → Allowed (run step s before) w := by
  constructor
  · intro hold before w after hws
    by_contra hnot
    have hbefore : J (run step s before) := run_inv hJ hj before
    have hafter : P (run step s (before ++ [w])) :=
      hold (before ++ [w]) after (by rw [hws, List.append_assoc]; rfl)
    rw [run_snoc] at hafter
    exact hbreak _ w hbefore hnot hafter
  · intro hallowed before after hws
    have hbefore : Inv (run step s before) := by
      refine run_inv_of_allowed hinv h before ?_
      intro earlier w later hb
      exact hallowed earlier w (later ++ after) (by rw [hws, hb, List.append_assoc]; rfl)
    exact hP _ hbefore

/-- Where a property once lost stays lost, it holds after a run exactly if every step of it is
    allowed. `Input` is what the steps of the run may be, and `J` what they all keep. -/
theorem holds_after_iff {J : S → Prop} {Input : S → I → Prop}
    (hJ : ∀ s w, Input s w → J s → J (step s w))
    (hkeep : ∀ s w, Input s w → J s → Allowed s w → P s → P (step s w))
    (hbreak : ∀ s w, Input s w → J s → ¬ Allowed s w → ¬ P (step s w))
    (hlost : ∀ s w, Input s w → J s → ¬ P s → ¬ P (step s w)) {s : S} (hj : J s) (hp : P s)
    (ws : List I)
    (hws : ∀ before w after, ws = before ++ w :: after → Input (run step s before) w) :
    J (run step s ws) ∧ (P (run step s ws) ↔
      ∀ before w after, ws = before ++ w :: after → Allowed (run step s before) w) := by
  induction ws using List.reverseRecOn with
  | nil => exact ⟨hj, fun _ before w after h => absurd h.symm (by simp), fun _ => hp⟩
  | append_singleton ws w ih =>
    obtain ⟨hearlier, hw⟩ := forall_steps_snoc.mp hws
    obtain ⟨hbefore, ih⟩ := ih hearlier
    rw [run_snoc, forall_steps_snoc, ← ih]
    refine ⟨hJ _ w hw hbefore, ?_, ?_⟩
    · intro hafter
      constructor
      · by_contra hnot
        exact hlost _ w hw hbefore hnot hafter
      · by_contra hnot
        exact hbreak _ w hw hbefore hnot hafter
    · rintro ⟨hholds, hallowed⟩
      exact hkeep _ w hw hbefore hallowed hholds

end FpgaPartialReconfig
