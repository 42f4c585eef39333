/-
  FIFOs with a bound.

  A `BlockingFifo` is given by its operations and what they are to its contents: a put goes to
  the end and blocks where the FIFO is full, a get takes from the front and blocks where it is
  empty. A FIFO of size 0 has no bound. `BlockingFifo.lists` is the one that is its size and its
  contents.
-/
import Mathlib.Data.List.Basic

namespace FpgaPartialReconfig

structure BlockingFifo (T : Type) where
  Fifo : Type
  new : Nat → Fifo
  /-- `none` where the caller is blocked. -/
  put : Fifo → T → Option Fifo
  get : Fifo → Option (T × Fifo)
  size : Fifo → Nat
  contents : Fifo → List T
  size_new : ∀ n, size (new n) = n
  contents_new : ∀ n, contents (new n) = []
  put_full : ∀ f t, size f ≠ 0 → size f ≤ (contents f).length → put f t = none
  put_free : ∀ f t, size f = 0 ∨ (contents f).length < size f →
    ∃ f', put f t = some f' ∧ size f' = size f ∧ contents f' = contents f ++ [t]
  get_empty : ∀ f, contents f = [] → get f = none
  get_front : ∀ f t rest, contents f = t :: rest →
    ∃ f', get f = some (t, f') ∧ size f' = size f ∧ contents f' = rest

namespace BlockingFifo

variable {T : Type}

/-- The size and the contents. -/
abbrev Listed (T : Type) := Nat × List T

def lists (T : Type) : BlockingFifo T where
  Fifo := Listed T
  new n := (n, [])
  put f t := if f.1 = 0 ∨ f.2.length < f.1 then some (f.1, f.2 ++ [t]) else none
  get f := match f.2 with
    | [] => none
    | t :: rest => some (t, (f.1, rest))
  size f := f.1
  contents f := f.2
  size_new _ := rfl
  contents_new _ := rfl
  put_full f t hbound hfull := if_neg (by omega)
  put_free f t hfree := ⟨_, if_pos hfree, rfl, rfl⟩
  get_empty f hempty := by rw [hempty]
  get_front f t rest hfront := by
    rw [hfront]
    exact ⟨_, rfl, rfl, rfl⟩

variable {F : BlockingFifo T} {f f' : F.Fifo} {t : T}

/-- A put into a FIFO of `n` places. -/
theorem put_cases (t : T) {n : Nat} (hsize : F.size f = n) (hn : n ≠ 0) :
    (¬ (F.contents f).length < n ∧ F.put f t = none) ∨
      (F.contents f).length < n ∧ ∃ f', F.put f t = some f' ∧ F.size f' = n ∧
        F.contents f' = F.contents f ++ [t] := by
  subst hsize
  by_cases hroom : (F.contents f).length < F.size f
  · exact .inr ⟨hroom, F.put_free f t (.inr hroom)⟩
  · exact .inl ⟨hroom, F.put_full f t hn (Nat.le_of_not_lt hroom)⟩

theorem get_cases (f : F.Fifo) :
    (F.contents f = [] ∧ F.get f = none) ∨
      ∃ t f', F.contents f = t :: F.contents f' ∧ F.get f = some (t, f') ∧ F.size f' = F.size f := by
  cases hcontents : F.contents f with
  | nil => exact .inl ⟨rfl, F.get_empty f hcontents⟩
  | cons t rest =>
    obtain ⟨f', hget, hsize, hrest⟩ := F.get_front f t rest hcontents
    exact .inr ⟨t, f', by rw [hrest], hget, hsize⟩

theorem contents_of_put (h : F.put f t = some f') : F.contents f' = F.contents f ++ [t] := by
  by_cases hfree : F.size f = 0 ∨ (F.contents f).length < F.size f
  · obtain ⟨f₁, hput, -, hcontents⟩ := F.put_free f t hfree
    rw [Option.some.inj (h.symm.trans hput)]
    exact hcontents
  · have hfull := F.put_full f t (by omega) (by omega)
    exact nomatch hfull.symm.trans h

theorem contents_of_get (h : F.get f = some (t, f')) : F.contents f = t :: F.contents f' := by
  rcases F.get_cases f with ⟨-, hempty⟩ | ⟨t₁, f₁, hcontents, hget, -⟩
  · exact nomatch hempty.symm.trans h
  · obtain ⟨rfl, rfl⟩ := Prod.mk.inj (Option.some.inj (h.symm.trans hget))
    exact hcontents

end BlockingFifo

end FpgaPartialReconfig
