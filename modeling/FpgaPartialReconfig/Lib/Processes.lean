/-
  Processes that take turns.

  In a state each process can do its next act or is blocked; a schedule says whose turn it is
  (`turn`), and a turn of a blocked process changes nothing. A schedule is fair where every
  process has its turn again and again. If every act makes a measure smaller, then under a
  fair schedule a state is reached in which all processes are blocked
  (`eventually_stuck`), and it is the last one (`stuck_stays`).

  Where the acts of a system go along with a map to another one, its runs do too
  (`cycles_view`).
-/
import FpgaPartialReconfig.Lib.Clock

namespace FpgaPartialReconfig.Processes

open Clock

variable {P S S' : Type}

section
variable (act : P → S → Option S)

def turn (s : S) (p : P) : S := (act p s).getD s

def Stuck (s : S) : Prop := ∀ p, act p s = none

theorem turn_of_act {s s' : S} {p : P} (h : act p s = some s') : turn act s p = s' := by
  unfold turn
  rw [h]
  rfl

theorem turn_of_blocked {s : S} {p : P} (h : act p s = none) : turn act s p = s := by
  unfold turn
  rw [h]
  rfl

/-- What every act keeps, every turn keeps. -/
theorem turn_inv {J : S → Prop} (hact : ∀ p s s', J s → act p s = some s' → J s') (s : S) (p : P)
    (h : J s) : J (turn act s p) := by
  cases hp : act p s with
  | none =>
    rw [turn_of_blocked act hp]
    exact h
  | some s' =>
    rw [turn_of_act act hp]
    exact hact p s s' h hp

theorem stuck_stays {s : S} {sched : Nat → P} {t u : Nat}
    (h : Stuck act (cycles (turn act) s sched t)) (htu : t ≤ u) :
    cycles (turn act) s sched u = cycles (turn act) s sched t := by
  induction u, htu using Nat.le_induction with
  | base => rfl
  | succ u htu ih =>
    rw [cycles_succ, ih]
    exact turn_of_blocked act (h (sched u))

end

/-- Every process has its turn again and again. -/
def Fair (sched : Nat → P) : Prop := ∀ p t, ∃ u, t ≤ u ∧ sched u = p

section
variable {act : P → S → Option S} {measure : S → Nat}

theorem turn_measure (hdrop : ∀ p s s', act p s = some s' → measure s' < measure s) (s : S)
    (p : P) : turn act s p = s ∨ measure (turn act s p) < measure s := by
  cases hp : act p s with
  | none => exact .inl (turn_of_blocked act hp)
  | some s' =>
    rw [turn_of_act act hp]
    exact .inr (hdrop p s s' hp)

/-- Until a process that can act has its turn, nothing changes or another one acts. -/
theorem measure_drops (hdrop : ∀ p s s', act p s = some s' → measure s' < measure s) {s : S}
    {sched : Nat → P} (hfair : Fair sched) {t : Nat}
    (h : ¬ Stuck act (cycles (turn act) s sched t)) :
    ∃ u, t ≤ u ∧
      measure (cycles (turn act) s sched u) < measure (cycles (turn act) s sched t) := by
  obtain ⟨p, hp⟩ := not_forall.mp h
  obtain ⟨s', hs'⟩ := Option.ne_none_iff_exists'.mp hp
  obtain ⟨u, htu, hturn⟩ := hfair p t
  by_contra hnever
  have hsame : ∀ v, t ≤ v → cycles (turn act) s sched v = cycles (turn act) s sched t := by
    intro v htv
    induction v, htv using Nat.le_induction with
    | base => rfl
    | succ v htv ih =>
      rcases turn_measure hdrop (cycles (turn act) s sched v) (sched v) with hkeep | hless
      · rw [cycles_succ, hkeep, ih]
      · rw [ih] at hless
        exact absurd ⟨v + 1, by omega, by rw [cycles_succ, ih]; exact hless⟩ hnever
  have hlater := hsame (u + 1) (by omega)
  rw [cycles_succ, hsame u htu, hturn, turn_of_act act hs'] at hlater
  have hless := hdrop p _ s' hs'
  rw [hlater] at hless
  exact Nat.lt_irrefl _ hless

theorem eventually_stuck (hdrop : ∀ p s s', act p s = some s' → measure s' < measure s) (s : S)
    {sched : Nat → P} (hfair : Fair sched) : ∃ t, Stuck act (cycles (turn act) s sched t) := by
  have hleads : LeadsTo (fun _ => True) (fun t => Stuck act (cycles (turn act) s sched t)) := by
    apply leadsTo_of_measure (fun t => measure (cycles (turn act) s sched t))
    intro t _ hnot
    obtain ⟨u, htu, hless⟩ := measure_drops hdrop hfair hnot
    exact ⟨u, htu, trivial, hless⟩
  obtain ⟨t, -, hstuck⟩ := hleads 0 trivial
  exact ⟨t, hstuck⟩

end

theorem turn_view {act : P → S → Option S} {act' : P → S' → Option S'} {view : S → S'} {p : P}
    {s : S} (hact : (act p s).map view = act' p (view s)) :
    view (turn act s p) = turn act' (view s) p := by
  unfold turn
  rw [← hact]
  exact (Option.getD_map view _ _).symm

/-- Acts that go along with a map on the states with `J`, and so do the runs. -/
theorem cycles_view {act : P → S → Option S} {act' : P → S' → Option S'} {view : S → S'}
    {J : S → Prop} (hinv : ∀ p s s', J s → act p s = some s' → J s')
    (hact : ∀ p s, J s → (act p s).map view = act' p (view s)) {s : S} (h : J s)
    (sched : Nat → P) (t : Nat) :
    view (cycles (turn act) s sched t) = cycles (turn act') (view s) sched t := by
  induction t with
  | zero => rfl
  | succ t ih =>
    have hnow : J (cycles (turn act) s sched t) :=
      cycles_inv (turn act) s sched (turn_inv act hinv) h t
    rw [cycles_succ, cycles_succ, ← ih]
    exact turn_view (hact _ _ hnow)

end FpgaPartialReconfig.Processes
