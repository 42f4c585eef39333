/-
  A clocked machine that a host reads and writes.

  The machine runs on by itself; the host gets at it through accesses, each of which takes a
  cycle. Before access `k` go `wait k` cycles, whatever else the host does in them, so that a
  statement for every `wait` is one for every timing of the host (`Hosted.device`).

  `Act.Ensures` is the triple for code on any state. For an access the proofs need what the
  wait before it keeps or brings about (`Settles`), and what the access makes of it
  (`Settles.read`, `Settles.write`); of `wait` nothing is known but a bound from below.
-/
import FpgaPartialReconfig.Lib.Act
import Mathlib.Logic.Function.Iterate

namespace FpgaPartialReconfig

/-! ## Triples -/

namespace Act

variable {S α β : Type}

/-- From a state with `P`, `x` ends in one that its result and `Q` describe. -/
def Ensures (P : S → Prop) (x : Act S α) (Q : α → S → Prop) : Prop := ∀ s, P s → Q (x s).1 (x s).2

theorem Ensures.pure {P : S → Prop} {Q : α → S → Prop} {a : α} (h : ∀ s, P s → Q a s) :
    Ensures P (pure a) Q := h

theorem Ensures.bind {P : S → Prop} {x : Act S α} {R : α → S → Prop} {f : α → Act S β}
    {Q : β → S → Prop} (hx : Ensures P x R) (hf : ∀ a, Ensures (R a) (f a) Q) :
    Ensures P (x >>= f) Q := fun s hs => hf _ _ (hx s hs)

theorem Ensures.ite {P : S → Prop} {c : Prop} [Decidable c] {x y : Act S α} {Q : α → S → Prop}
    (hx : c → Ensures P x Q) (hy : ¬ c → Ensures P y Q) : Ensures P (if c then x else y) Q := by
  split
  · exact hx ‹_›
  · exact hy ‹_›

theorem Ensures.mono {P P' : S → Prop} {x : Act S α} {Q Q' : α → S → Prop} (h : Ensures P x Q)
    (hP : ∀ s, P' s → P s) (hQ : ∀ a s, Q a s → Q' a s) : Ensures P' x Q' :=
  fun s hs => hQ _ _ (h s (hP s hs))

theorem Ensures.and {P P' : S → Prop} {x : Act S α} {Q Q' : α → S → Prop} (h : Ensures P x Q)
    (h' : Ensures P' x Q') : Ensures (fun s => P s ∧ P' s) x fun a s => Q a s ∧ Q' a s :=
  fun s hs => ⟨h s hs.1, h' s hs.2⟩

end Act

namespace Hosted

variable {A V M : Type}

/-- The machine, and the accesses made so far. -/
structure State (M : Type) where
  machine : M
  accesses : Nat

section
variable (step : M → M) (get : A → M → V) (put : A → V → M → M) (wait : Nat → Nat)

/-- A read sees the machine as it is after the wait; a write changes it there. -/
def device : Bus.Device A V (State M) where
  read a s :=
    let m := step^[wait s.accesses] s.machine
    (get a m, ⟨step m, s.accesses + 1⟩)
  write a v s :=
    let m := step^[wait s.accesses] s.machine
    ⟨step (put a v m), s.accesses + 1⟩

/-- A cycle keeps `P`. -/
def Steady (P : M → Prop) : Prop := ∀ m, P m → P (step m)

/-- `n` cycles and more make `Q` of `P`. -/
def Settles (n : Nat) (P Q : M → Prop) : Prop := ∀ m k, n ≤ k → P m → Q (step^[k] m)

end

section
variable {step : M → M} {get : A → M → V} {put : A → V → M → M} {wait : Nat → Nat}
  {P Q : M → Prop} {n : Nat}

theorem Steady.iterate (h : Steady step P) (k : Nat) {m : M} (hm : P m) : P (step^[k] m) := by
  induction k generalizing m with
  | zero => exact hm
  | succ k ih => exact ih (h m hm)

theorem Steady.settles (h : Steady step P) (n : Nat) : Settles step n P P :=
  fun _ k _ hm => h.iterate k hm

variable (get put) in
theorem Settles.read (h : Settles step n P Q) (hwait : ∀ k, n ≤ wait k) (a : A) (s : State M)
    (hs : P s.machine) :
    ∃ m, Q m ∧ ((device step get put wait).read a s).1 = get a m ∧
      ((device step get put wait).read a s).2.machine = step m :=
  ⟨step^[wait s.accesses] s.machine, h _ _ (hwait _) hs, rfl, rfl⟩

variable (get put) in
theorem Settles.write (h : Settles step n P Q) (hwait : ∀ k, n ≤ wait k) (a : A) (v : V)
    (s : State M) (hs : P s.machine) :
    ∃ m, Q m ∧ ((device step get put wait).write a v s).machine = step (put a v m) :=
  ⟨step^[wait s.accesses] s.machine, h _ _ (hwait _) hs, rfl⟩

end

end Hosted

end FpgaPartialReconfig
