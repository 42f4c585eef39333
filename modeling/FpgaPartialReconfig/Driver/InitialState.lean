/-
  The wait for an initial state on Stratix 10.

  Before the start request both Stratix 10 cores wait for an IP that shows BUSY. The wait is
  meant to end once a poll shows NRESET or PR_SUCCESS; its guard is a disjunction of two
  inequalities that no status fails, so it never does (`S10.emits_waitRounds`).
  `StartHandshake` is what the wait is for, and `startHandshake_iff` says it is met exactly by
  the readings that never put it to the test.
-/
import FpgaPartialReconfig.Driver.Acceptance

namespace FpgaPartialReconfig.Driver.S10

open Bus

/-- A status the wait is meant to end at. -/
def Ready (csr : U32) : Prop :=
  csr &&& altPrCsrStatusMsk = altPrCsrStatusNreset ∨
    csr &&& altPrCsrStatusMsk = altPrCsrStatusPrSuccess

instance (csr : U32) : Decidable (Ready csr) := inferInstanceAs (Decidable (_ ∨ _))

section
variable (s : Addr → Nat → U32)

/-- The wait's first reading shows BUSY. -/
def StartsBusy : Prop := csrAt s 1 &&& altPrCsrStatusMsk = altPrCsrStatusBusy

/-- One of the first 4999 polls after it shows a ready status. -/
def BecomesReady : Prop := ∃ i < 4999, Ready (csrAt s (2 + i))

/-- The handshake, for both drivers: an IP that becomes ready is started, and the wait gives
    up on no other IP than one that does not. -/
structure StartHandshake : Prop where
  accepts : StartsBusy s → BecomesReady s →
    (altPrIpWaitForInitialState (Device.streams s) csrReadOnce).1 = 0 ∧
      (altPrWaitForInitialState (Device.streams s) csrReadOnce).1 = 0
  starts : StartsBusy s → BecomesReady s → ∀ (buf : Mem) (count : Nat),
    Accepted s (le32 buf altPrRbfIdOfst) count →
    (∃ v, .write altPrCsr v ∈
        trace (altPrIpWriteInit (Device.streams s) buf count) ⟨fun _ => 0, []⟩ ∧
      v &&& altPrCsrPrStart ≠ 0) ∧
    ∃ v, .write altPrCsr v ∈
        trace (altPrFpgaWriteInit (Device.streams s) true buf count) ⟨fun _ => 0, []⟩ ∧
      v &&& altPrCsrPrStart ≠ 0
  timeout : (altPrIpWaitForInitialState (Device.streams s) csrReadOnce).1 = -ETIMEDOUT ∨
      (altPrWaitForInitialState (Device.streams s) csrReadOnce).1 = -ETIMEDOUT →
    ¬ BecomesReady s

/-- The result of the wait, in both drivers, is settled by its first reading. -/
theorem waitForInitialState_result :
    (waitForInitialState (Device.streams s) csrReadOnce).1 =
      if csrAt s 1 &&& altPrCsrStatusMsk = altPrCsrStatusBusy then -ETIMEDOUT else 0 :=
  ((streams_waitForInitialState s 1).at (m := csrReadOnce) rfl).1

theorem waitForInitialState_busy (hbusy : StartsBusy s) :
    (waitForInitialState (Device.streams s) csrReadOnce).1 = -ETIMEDOUT := by
  unfold StartsBusy at hbusy
  rw [waitForInitialState_result, if_pos hbusy]

theorem waitForInitialState_timeout
    (h : (waitForInitialState (Device.streams s) csrReadOnce).1 = -ETIMEDOUT) :
    StartsBusy s := by
  by_contra hbusy
  unfold StartsBusy at hbusy
  rw [waitForInitialState_result, if_neg hbusy] at h
  exact absurd h (by decide)

theorem not_startHandshake (hbusy : StartsBusy s) (hready : BecomesReady s) :
    ¬ StartHandshake s := by
  intro h
  have hzero := (h.accepts hbusy hready).1
  rw [altPrIpWaitForInitialState, waitForInitialState_busy s hbusy] at hzero
  exact absurd hzero (by decide)

/-- For every sequence of readings. -/
theorem startHandshake_iff : StartHandshake s ↔ ¬ (StartsBusy s ∧ BecomesReady s) := by
  constructor
  · intro h hparts
    obtain ⟨hbusy, hready⟩ := hparts
    exact not_startHandshake s hbusy hready h
  · intro hno
    refine ⟨fun hbusy hready => absurd ⟨hbusy, hready⟩ hno,
      fun hbusy hready => absurd ⟨hbusy, hready⟩ hno, fun htime hready => ?_⟩
    have hbusy : StartsBusy s := htime.elim (waitForInitialState_timeout s)
      (waitForInitialState_timeout s)
    exact hno ⟨hbusy, hready⟩

end

/-- BUSY once, and NRESET from the first poll on. -/
theorem not_startHandshake_busy_once :
    ¬ StartHandshake fun a i => if a = altPrCsr ∧ i = 1 then altPrCsrStatusBusy else 0 :=
  not_startHandshake _ (by rfl) ⟨0, by decide, by decide⟩

end FpgaPartialReconfig.Driver.S10
