/-
  The completion poll.

  `alt_pr_ip_fpga_write_complete` counts a `u32` up to an `int` limit that user space chose.
  `PollExact` is what the poll is for: it reads the CSR at most as often as the limit says,
  and the first conclusive reading decides. A limit that is not negative gives just that; a
  negative one is compared as its unsigned value, at least 2^31 rounds instead of none.
-/
import FpgaPartialReconfig.Driver.Readings

namespace FpgaPartialReconfig.Driver

open Bus

/-- A reading the poll ends at. -/
def Conclusive (stateOf : U32 → FpgaState) (csr : U32) : Prop :=
  stateOf csr = .operating ∨ stateOf csr = .writeErr

section
variable (s : Addr → Nat → U32)

/-- The `i`-th reading from index `k` on is the first conclusive one. -/
def FirstConclusive (stateOf : U32 → FpgaState) (k i : Nat) : Prop :=
  Conclusive stateOf (csrAt s (k + i)) ∧ ∀ j < i, ¬ Conclusive stateOf (csrAt s (k + j))

/-- A poll of at most `limit` readings, from index `k` on, that returned `ret` and made the
    accesses `es`. -/
structure PollExact (stateOf : U32 → FpgaState) (k limit : Nat) (ret : Int)
    (es : List (Access Addr U32)) : Prop where
  reads : (readsOf altPrCsr es).length ≤ limit
  success : ∀ i < limit, FirstConclusive s stateOf k i →
    stateOf (csrAt s (k + i)) = .operating → ret = 0
  error : ∀ i < limit, FirstConclusive s stateOf k i →
    stateOf (csrAt s (k + i)) = .writeErr → ret = - EIO
  timeout : (∀ i < limit, ¬ Conclusive stateOf (csrAt s (k + i))) → ret = -ETIMEDOUT

variable {s}

/-- Past a reading that is not conclusive the poll begins again. -/
theorem firstConclusive_succ {stateOf : U32 → FpgaState} {k i : Nat}
    (h : FirstConclusive s stateOf k (i + 1)) : FirstConclusive s stateOf (k + 1) i := by
  obtain ⟨hi, hbefore⟩ := h
  refine ⟨?_, fun j hj => ?_⟩
  · rw [Nat.add_assoc, Nat.add_comm 1]
    exact hi
  · rw [Nat.add_assoc, Nat.add_comm 1]
    exact hbefore (j + 1) (by omega)

/-- A conclusive first reading is the first conclusive one. -/
theorem firstConclusive_zero {stateOf : U32 → FpgaState} {k i : Nat}
    (h : FirstConclusive s stateOf k i) (h0 : Conclusive stateOf (csrAt s k)) : i = 0 := by
  by_contra hi
  exact h.2 0 (by omega) h0

theorem PollExact.conclusive {stateOf : U32 → FpgaState} {k n : Nat} {ret : Int}
    {es : List (Access Addr U32)} (hreads : (readsOf altPrCsr es).length ≤ n + 1)
    (hc : Conclusive stateOf (csrAt s k))
    (hsucc : stateOf (csrAt s k) = .operating → ret = 0)
    (herr : stateOf (csrAt s k) = .writeErr → ret = - EIO) :
    PollExact s stateOf k (n + 1) ret es := by
  refine ⟨hreads, fun i _ hi hop => ?_, fun i _ hi hop => ?_, fun hno => ?_⟩
  · rw [firstConclusive_zero hi hc] at hop
    exact hsucc hop
  · rw [firstConclusive_zero hi hc] at hop
    exact herr hop
  · exact absurd hc (hno 0 (by omega))

theorem PollExact.step {stateOf : U32 → FpgaState} {k n : Nat} {ret : Int}
    {es : List (Access Addr U32)} (hc : ¬ Conclusive stateOf (csrAt s k))
    (h : PollExact s stateOf (k + 1) n ret es) :
    PollExact s stateOf k (n + 1) ret (.read altPrCsr (csrAt s k) :: es) := by
  have hshift : ∀ i, k + 1 + i = k + (i + 1) := fun i => by omega
  refine ⟨?_, fun i hi hfirst hop => ?_, fun i hi hfirst hop => ?_, fun hno => ?_⟩
  · have hreads := h.reads
    simp only [readsOf, if_true, List.length_cons]
    omega
  · cases i with
    | zero => exact absurd hfirst.1 hc
    | succ i =>
      rw [← hshift] at hop
      exact h.success i (by omega) (firstConclusive_succ hfirst) hop
  · cases i with
    | zero => exact absurd hfirst.1 hc
    | succ i =>
      rw [← hshift] at hop
      exact h.error i (by omega) (firstConclusive_succ hfirst) hop
  · refine h.timeout fun i hi => ?_
    rw [hshift]
    exact hno (i + 1) (by omega)

variable (s)

/-- The loop over `n` rounds is exact for the limit `n`. -/
theorem streams_pollComplete_exact (stateOf : U32 → FpgaState) (n k : Nat) :
    Spec (fun r => r altPrCsr = k) (pollComplete (Device.streams s) stateOf n) fun ret es _ =>
      PollExact s stateOf k n ret es := by
  induction n generalizing k with
  | zero =>
    exact Spec.pure fun _ _ => ⟨Nat.le_refl 0, fun i hi => absurd hi (Nat.not_lt_zero i),
      fun i hi => absurd hi (Nat.not_lt_zero i), fun _ => rfl⟩
  | succ n ih =>
    refine (streams_prState s stateOf k).seq fun st es h => ?_
    obtain ⟨rfl, rfl⟩ := h
    refine Spec.ite (fun herr => Spec.pure fun _ _ => ?_) fun herr => ?_
    · refine .conclusive (Nat.le_add_left 1 n) (.inr herr) (fun hop => ?_) fun _ => rfl
      rw [herr] at hop
      cases hop
    refine Spec.ite (fun hop => Spec.pure fun _ _ => ?_) fun hop => ?_
    · refine .conclusive (Nat.le_add_left 1 n) (.inl hop) (fun _ => rfl) fun herr' => ?_
      exact absurd herr' herr
    · exact (ih (k + 1)).mono (fun _ h => h) fun _ _ _ h => h.step fun hc => hc.elim hop herr

/-- A poll of at least one round reads the CSR. -/
theorem pollComplete_reads {σ : Type} (D : Device Addr U32 σ) (stateOf : U32 → FpgaState)
    (n : Nat) : Emits (pollComplete D stateOf (n + 1)) fun _ es =>
      0 < (readsOf altPrCsr es).length := by
  have hread : ∀ (v : U32) (es : List (Access Addr U32)),
      0 < (readsOf altPrCsr ([.read altPrCsr v] ++ es)).length := by
    intro v es
    rw [readsOf_append, List.length_append]
    exact Nat.lt_of_lt_of_le (Nat.zero_lt_one) (Nat.le_add_right 1 _)
  refine (emits_prState D stateOf).bind fun st es h => ?_
  obtain ⟨v, rfl, -⟩ := h
  refine Spec.ite (fun _ => Spec.pure fun _ _ => hread v []) fun _ => ?_
  refine Spec.ite (fun _ => Spec.pure fun _ _ => hread v []) fun _ => ?_
  exact (emits_pollComplete D stateOf n).mono fun _ es _ => hread v es

namespace Core

/-- The poll of either core against the limit `config_timeout`, a C `int`. -/
def PollsExactly (core : Core) (configTimeout : BitVec 32) : Prop :=
  PollExact s core.stateOf 0 configTimeout.toInt.toNat
    (core.altPrIpFpgaWriteComplete (Device.streams s) configTimeout.toInt ⟨fun _ => 0, []⟩).1
    (trace (core.altPrIpFpgaWriteComplete (Device.streams s) configTimeout.toInt)
      ⟨fun _ => 0, []⟩)

theorem altPrIpFpgaWriteComplete_eq {σ : Type} (D : Device Addr U32 σ) (core : Core)
    (configTimeout : BitVec 32) :
    core.altPrIpFpgaWriteComplete D configTimeout.toInt =
      pollComplete D core.stateOf configTimeout.toNat := by
  cases core with
  | a10 =>
    change pollComplete D A10.stateOf (BitVec.ofInt 32 configTimeout.toInt).toNat = _
    rw [BitVec.ofInt_toInt]
    rfl
  | s10 verbose =>
    change pollComplete D S10.stateOf (BitVec.ofInt 32 configTimeout.toInt).toNat = _
    rw [BitVec.ofInt_toInt]
    rfl

theorem not_pollsExactly (core : Core) {configTimeout : BitVec 32}
    (hneg : configTimeout.toInt < 0) : ¬ core.PollsExactly s configTimeout := by
  intro h
  have hreads := h.reads
  have hpos : configTimeout.toNat ≠ 0 := by
    intro h0
    rw [BitVec.toInt_eq_toNat_cond, h0] at hneg
    exact absurd hneg (by decide)
  obtain ⟨n, hn⟩ := Nat.exists_eq_add_one_of_ne_zero hpos
  rw [core.altPrIpFpgaWriteComplete_eq, hn, Int.toNat_of_nonpos (by omega)] at hreads
  have hread := (pollComplete_reads (Device.streams s) core.stateOf n).at
    (m := ⟨fun _ => 0, []⟩) trivial
  omega

/-- For every `int` limit and every sequence of readings. -/
theorem pollsExactly_iff (core : Core) (configTimeout : BitVec 32) :
    core.PollsExactly s configTimeout ↔ 0 ≤ configTimeout.toInt := by
  constructor
  · intro h
    by_contra hneg
    exact core.not_pollsExactly s (by omega) h
  · intro hpos
    have hlimit : configTimeout.toInt.toNat = configTimeout.toNat := by
      rw [BitVec.toInt_eq_toNat_cond] at hpos ⊢
      split at hpos <;> split <;> omega
    unfold PollsExactly
    rw [hlimit, core.altPrIpFpgaWriteComplete_eq]
    exact (streams_pollComplete_exact s core.stateOf _ 0).at (m := ⟨fun _ => 0, []⟩) rfl

/-- The limit -1, on a device that shows success at once. -/
theorem not_pollsExactly_minus_one :
    ¬ Core.a10.PollsExactly (fun _ _ => A10.altPrCsrStatusPrSuccess) (-1#32) :=
  Core.a10.not_pollsExactly _ (by decide)

end Core

end

end FpgaPartialReconfig.Driver
