/-
  Clocked machines.

  A machine is a step function; under an input stream it has a state in every cycle
  (`cycles`). What it does can be recorded, cycle by cycle, as a list (`trace`). Both can be
  cut at a cycle and continued from the state there with the rest of the inputs (`after`).

  `LeadsTo P Q` is for what happens sooner or later: from every cycle with `P` on there is
  one with `Q`. A machine that waits for an input leads on if the input comes
  (`leadsTo_of_wait`), and steps can be chained by transitivity and along a measure.
-/
import Mathlib.Data.List.Basic
import Mathlib.Data.Nat.Init

namespace FpgaPartialReconfig.Clock

variable {S I E : Type}

section
variable (step : S → I → S) (s : S) (inp : Nat → I)

/-- The state in each cycle. -/
def cycles : Nat → S
  | 0 => s
  | t + 1 => step (cycles t) (inp t)

@[simp] theorem cycles_zero : cycles step s inp 0 = s := rfl

theorem cycles_succ (t : Nat) :
    cycles step s inp (t + 1) = step (cycles step s inp t) (inp t) := rfl

/-- The inputs from cycle `a` on. -/
def after (a : Nat) (inp : Nat → I) : Nat → I := fun t => inp (a + t)

theorem cycles_add (a t : Nat) :
    cycles step s inp (a + t) = cycles step (cycles step s inp a) (after a inp) t := by
  induction t with
  | zero => rfl
  | succ t ih =>
    rw [← Nat.add_assoc, cycles_succ, cycles_succ, ih]
    rfl

theorem cycles_inv {J : S → Prop} (hstep : ∀ s i, J s → J (step s i)) (h : J s) (t : Nat) :
    J (cycles step s inp t) := by
  induction t with
  | zero => exact h
  | succ t ih => exact hstep _ _ ih

/-! ## What a machine records -/

variable (out : S → I → List E)

/-- What is recorded in the cycles before `t`. -/
def trace : Nat → List E
  | 0 => []
  | t + 1 => trace t ++ out (cycles step s inp t) (inp t)

theorem trace_succ (t : Nat) :
    trace step s inp out (t + 1) =
      trace step s inp out t ++ out (cycles step s inp t) (inp t) := rfl

theorem trace_add (a t : Nat) :
    trace step s inp out (a + t) =
      trace step s inp out a ++ trace step (cycles step s inp a) (after a inp) out t := by
  induction t with
  | zero => exact (List.append_nil _).symm
  | succ t ih =>
    rw [← Nat.add_assoc, trace_succ, trace_succ, ih, List.append_assoc, cycles_add]
    rfl

/-! ## Rounds -/

section
variable {step s inp} {n : Nat}

/-- A machine that is where it was after a round, with the same inputs again, stays so. -/
theorem cycles_round (hround : cycles step s inp n = s) (hinp : after n inp = inp) (q : Nat) :
    cycles step s inp (n * q) = s ∧ after (n * q) inp = inp := by
  induction q with
  | zero => exact ⟨rfl, funext fun t => congrArg inp (by omega)⟩
  | succ q ih =>
    obtain ⟨hcycles, hafter⟩ := ih
    refine ⟨?_, funext fun t => ?_⟩
    · rw [Nat.mul_succ, cycles_add, hcycles, hafter, hround]
    · have hcycle : n * (q + 1) + t = n * q + (n + t) := by
        rw [Nat.mul_succ, Nat.add_assoc]
      calc inp (n * (q + 1) + t) = after (n * q) inp (n + t) := congrArg inp hcycle
        _ = inp (n + t) := congrFun hafter (n + t)
        _ = inp t := congrFun hinp t

theorem cycles_mod (hround : cycles step s inp n = s) (hinp : after n inp = inp) (t : Nat) :
    cycles step s inp t = cycles step s inp (t % n) := by
  obtain ⟨hcycles, hafter⟩ := cycles_round hround hinp (t / n)
  conv_lhs => rw [← Nat.div_add_mod t n]
  rw [cycles_add, hcycles, hafter]

/-- What is recorded is that of the rounds, and of what has begun of the next. -/
theorem trace_mod (hround : cycles step s inp n = s) (hinp : after n inp = inp) (t : Nat) :
    trace step s inp out t =
      (List.replicate (t / n) (trace step s inp out n)).flatten ++
        trace step s inp out (t % n) := by
  have hrounds : ∀ q, trace step s inp out (n * q) =
      (List.replicate q (trace step s inp out n)).flatten := by
    intro q
    induction q with
    | zero => rfl
    | succ q ih =>
      obtain ⟨hcycles, hafter⟩ := cycles_round hround hinp q
      rw [Nat.mul_succ, trace_add, hcycles, hafter, ih, List.replicate_succ', List.flatten_append,
        List.flatten_singleton]
  obtain ⟨hcycles, hafter⟩ := cycles_round hround hinp (t / n)
  conv_lhs => rw [← Nat.div_add_mod t n]
  rw [trace_add, hcycles, hafter, hrounds]

end

/-- A trace only grows. -/
theorem trace_mono {t u : Nat} (h : t ≤ u) :
    trace step s inp out t <+: trace step s inp out u := by
  obtain ⟨d, rfl⟩ := Nat.le.dest h
  rw [trace_add]
  exact List.prefix_append _ _

end

/-! ## Sooner or later -/

/-- From every cycle with `P` on there is one with `Q`. -/
def LeadsTo (P Q : Nat → Prop) : Prop := ∀ t, P t → ∃ u, t ≤ u ∧ Q u

theorem LeadsTo.of_next {P Q : Nat → Prop} (h : ∀ t, P t → Q (t + 1)) : LeadsTo P Q := by
  intro t ht
  exact ⟨t + 1, by omega, h t ht⟩

theorem LeadsTo.trans {P Q R : Nat → Prop} (hpq : LeadsTo P Q) (hqr : LeadsTo Q R) :
    LeadsTo P R := by
  intro t ht
  obtain ⟨u, htu, hu⟩ := hpq t ht
  obtain ⟨v, huv, hv⟩ := hqr u hu
  exact ⟨v, by omega, hv⟩

/-- A machine in `P` stays there until `G`, and then does `Q`. -/
theorem leadsTo_of_wait {P G Q : Nat → Prop} (hstay : ∀ t, P t → ¬ G t → P (t + 1))
    (hgo : ∀ t, P t → G t → Q t) (hcomes : ∀ t, P t → ∃ u, t ≤ u ∧ G u) : LeadsTo P Q := by
  intro t ht
  obtain ⟨u, htu, hu⟩ := hcomes t ht
  by_contra hnever
  have hP : ∀ v, t ≤ v → P v := by
    intro v htv
    induction v, htv using Nat.le_induction with
    | base => exact ht
    | succ v htv ih =>
      refine hstay v ih ?_
      intro hv
      exact hnever ⟨v, htv, hgo v ih hv⟩
  exact hnever ⟨u, htu, hgo u (hP u htu) hu⟩

/-- A goal that every round brings nearer is reached. -/
theorem leadsTo_of_measure {P Q : Nat → Prop} (measure : Nat → Nat)
    (hround : ∀ t, P t → ¬ Q t → ∃ u, t ≤ u ∧ P u ∧ measure u < measure t) : LeadsTo P Q := by
  have h : ∀ n t, measure t ≤ n → P t → ∃ u, t ≤ u ∧ Q u := by
    intro n
    induction n with
    | zero =>
      intro t hn ht
      by_cases hq : Q t
      · exact ⟨t, Nat.le_refl t, hq⟩
      · obtain ⟨u, -, -, hlt⟩ := hround t ht hq
        omega
    | succ n ih =>
      intro t hn ht
      by_cases hq : Q t
      · exact ⟨t, Nat.le_refl t, hq⟩
      · obtain ⟨u, htu, hu, hlt⟩ := hround t ht hq
        obtain ⟨v, huv, hv⟩ := ih u (by omega) hu
        exact ⟨v, by omega, hv⟩
  intro t ht
  exact h (measure t) t (Nat.le_refl _) ht

end FpgaPartialReconfig.Clock
