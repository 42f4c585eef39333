/-
  The random words of the traffic generator never stop changing.

  For a fixed polynomial the register goes from one state to the next by a bijection
  (`Lfsr.previous` is its inverse), so its states from the reset on come back to the reset
  state, and that one is no fixed point (`never_locks`). Other states may well be: under the
  default polynomial `0xfffffa82` is one.

  A polynomial is in force where it is used, and it is used where the top bit is set. So a
  polynomial loaded right after the reset is in force since the reset (`inForce_of_load`).
-/
import Mathlib.Dynamics.PeriodicPts.Lemmas
import FpgaPartialReconfig.Ddr4.Persona

namespace FpgaPartialReconfig.Ddr4.Lfsr

open Clock

/-! ## The step of the register -/

/-- The next state of `myreg` under a polynomial. -/
def next (poly s : BitVec 32) : BitVec 32 := (Lfsr.step ⟨s, poly⟩ false false 0).myreg

/-- The state before. Its top bit is the last bit of this one, inverted. -/
def previous (poly r : BitVec 32) : BitVec 32 :=
  BitVec.cons (!r.getLsbD 0)
    (((r >>> 1) ^^^ (if r.getLsbD 0 = true then 0#32 else poly)).setWidth 31)

theorem getLsbD_feedback (poly s : BitVec 32) (k : Nat) :
    (Lfsr.feedback ⟨s, poly⟩).getLsbD k = (s.msb && poly.getLsbD k) := by
  show ((if s.msb = true then BitVec.allOnes 32 else 0#32) &&& poly).getLsbD k = _
  cases s.msb with
  | false => rw [if_neg Bool.false_ne_true, BitVec.zero_and, BitVec.getLsbD_zero, Bool.false_and]
  | true => rw [if_pos rfl, BitVec.allOnes_and, Bool.true_and]

theorem next_getLsbD_zero (poly s : BitVec 32) : (next poly s).getLsbD 0 = !s.msb := by
  unfold next step
  cases s.msb <;> simp

theorem next_getLsbD_succ (poly s : BitVec 32) {k : Nat} (hk : k < 31) :
    (next poly s).getLsbD (k + 1) = (s.getLsbD k ^^ (s.msb && poly.getLsbD k)) := by
  have hlow : k + 1 < 32 := by omega
  show (((s ^^^ feedback ⟨s, poly⟩) <<< 1) ||| (if s.msb = true then 0#32 else 1#32)).getLsbD
    (k + 1) = _
  rw [BitVec.getLsbD_or, BitVec.getLsbD_shiftLeft, Nat.add_sub_cancel, BitVec.getLsbD_xor,
    getLsbD_feedback]
  cases s.msb <;> simp [hlow]

theorem previous_next (poly s : BitVec 32) : previous poly (next poly s) = s := by
  apply BitVec.eq_of_getLsbD_eq
  intro k hk
  unfold previous
  rw [BitVec.getLsbD_cons, next_getLsbD_zero]
  by_cases htop : k = 31
  · rw [if_pos htop, htop, Bool.not_not]
    exact BitVec.msb_eq_getLsbD_last s
  · have hlow : k < 31 := by omega
    rw [if_neg htop, BitVec.getLsbD_setWidth, BitVec.getLsbD_xor, BitVec.getLsbD_ushiftRight,
      Nat.add_comm 1 k, next_getLsbD_succ poly s hlow, decide_eq_true hlow, Bool.true_and]
    -- the feedback cancels
    cases s.msb <;> simp

instance : Finite (BitVec 32) :=
  Finite.of_injective BitVec.toFin fun _ _ h => BitVec.eq_of_toFin_eq h

/-- Every state has one before it, and only one. -/
theorem next_bijective (poly : BitVec 32) : Function.Bijective (next poly) :=
  Finite.injective_iff_bijective.mp (Function.LeftInverse.injective (previous_next poly))

/-! ## From the reset on -/

/-- The registers in a cycle after the reset; `inp` are `load_seed` and `seed`. -/
def afterReset (inp : Nat → Bool × BitVec 32) (t : Nat) : Lfsr :=
  cycles (fun m i => m.step false i.1 i.2) Lfsr.reset inp t

/-- The polynomial is in the register in every cycle in which it is used. -/
def InForce (poly : BitVec 32) (inp : Nat → Bool × BitVec 32) : Prop :=
  ∀ t, (afterReset inp t).myreg.msb = true → (afterReset inp t).poly = poly

theorem step_myreg {m : Lfsr} {poly : BitVec 32} (loadSeed : Bool) (seed : BitVec 32)
    (h : m.myreg.msb = true → m.poly = poly) :
    (m.step false loadSeed seed).myreg = next poly m.myreg := by
  have hfeedback : m.feedback = feedback ⟨m.myreg, poly⟩ := by
    unfold feedback
    cases hmsb : m.myreg.msb with
    | false =>
      rw [if_neg Bool.false_ne_true]
      exact BitVec.zero_and.trans BitVec.zero_and.symm
    | true => rw [h hmsb]
  show ((m.myreg ^^^ m.feedback) <<< 1) ||| _ = ((m.myreg ^^^ _) <<< 1) ||| _
  rw [hfeedback]

theorem InForce.myreg_eq {poly : BitVec 32} {inp : Nat → Bool × BitVec 32} (h : InForce poly inp)
    (t : Nat) : (afterReset inp t).myreg = (next poly)^[t] 0 := by
  induction t with
  | zero => rfl
  | succ t ih =>
    rw [Function.iterate_succ_apply', ← ih]
    exact step_myreg _ _ (h t)

/-- A bijection does not come to a fixed point from outside. -/
theorem not_fixed_of_injective {A : Type} {f : A → A} (hf : Function.Injective f) {a : A}
    (ha : f a ≠ a) (t : Nat) : f (f^[t] a) ≠ f^[t] a := by
  intro hfix
  have hshift : f^[t] (f a) = f^[t] a := by
    rw [← Function.iterate_succ_apply, Function.iterate_succ_apply']
    exact hfix
  exact ha (hf.iterate t hshift)

/-- Under a polynomial in force since the reset the states repeat from the reset state on,
    and none of them is its own next one. -/
theorem never_locks (poly : BitVec 32) :
    Function.Bijective (next poly) ∧ ∀ inp, InForce poly inp →
      (∃ n > 0, ∀ t, (afterReset inp (t + n)).myreg = (afterReset inp t).myreg) ∧
        ∀ t, next poly (afterReset inp t).myreg ≠ (afterReset inp t).myreg := by
  have hbij := next_bijective poly
  refine ⟨hbij, fun inp h => ⟨?_, ?_⟩⟩
  · obtain ⟨n, hn, hperiod⟩ :=
      Function.mem_periodicPts.mp (hbij.injective.mem_periodicPts (0 : BitVec 32))
    refine ⟨n, hn, fun t => ?_⟩
    rw [h.myreg_eq, h.myreg_eq, Function.iterate_add_apply]
    exact congrArg _ hperiod
  · intro t
    rw [h.myreg_eq]
    have hreset : next poly 0 ≠ 0 := by
      intro hfix
      have hbit := next_getLsbD_zero poly 0
      rw [hfix] at hbit
      exact absurd hbit (by decide)
    exact not_fixed_of_injective hbij.injective hreset t

/-- Any polynomial, loaded in the first cycle. -/
theorem inForce_of_load (poly : BitVec 32) : InForce poly fun t => (t == 0, poly) := by
  have hpoly : ∀ t, (afterReset (fun t => (t == 0, poly)) (t + 1)).poly = poly := by
    intro t
    induction t with
    | zero => rfl
    | succ t ih => exact ih
  intro t hmsb
  cases t with
  | zero =>
    have hreset : (afterReset (fun t => (t == 0, poly)) 0).myreg = 0#32 := rfl
    rw [hreset] at hmsb
    exact absurd hmsb (by decide)
  | succ t => exact hpoly t

theorem never_locks_seed :
    ∀ t, next 0x04c11db7#32 (afterReset (fun t => (t == 0, 0x04c11db7#32)) t).myreg ≠
      (afterReset (fun t => (t == 0, 0x04c11db7#32)) t).myreg :=
  ((never_locks _).2 _ (inForce_of_load _)).2

-- There are states that never change, just none that the reset leads to.
example : next 0x800007c3#32 0xfffffa82#32 = 0xfffffa82#32 := by decide

end FpgaPartialReconfig.Ddr4.Lfsr
