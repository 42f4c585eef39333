/-
  What the start request puts into the CSR.

  All four `write_init` functions use one variable `val` for the CSR, VERSION and the POF id
  in turn, and write it back with `PR_START` set. `OnlyStartBit` asks that the bits other
  than `PR_START` are those of the CSR as the already-started check read it; the bits written
  are those of the register read last, so it holds just when that register agrees with the
  CSR there.
-/
import FpgaPartialReconfig.Driver.Acceptance

namespace FpgaPartialReconfig.Driver

open Bus

/-- Equal in every bit other than `PR_START`. -/
def SameBesidesStart (v w : U32) : Prop := v &&& ~~~altPrCsrPrStart = w &&& ~~~altPrCsrPrStart

instance (v w : U32) : Decidable (SameBesidesStart v w) :=
  inferInstanceAs (Decidable (v &&& ~~~altPrCsrPrStart = w &&& ~~~altPrCsrPrStart))

/-- Every value written to the CSR is `csr` besides `PR_START`. -/
def OnlyStartBit (csr : U32) (es : List (Access Addr U32)) : Prop :=
  ∀ v, .write altPrCsr v ∈ es → SameBesidesStart v csr

theorem sameBesidesStart_or (val csr : U32) :
    SameBesidesStart (val ||| altPrCsrPrStart) csr ↔ SameBesidesStart val csr := by
  have hclear : altPrCsrPrStart &&& ~~~altPrCsrPrStart = 0#32 := by decide
  unfold SameBesidesStart
  rw [BitVec.and_or_distrib_right, hclear, BitVec.or_zero]

theorem StartOutcome.keepsBits_iff {ok : Prop} {val csr : U32} {ret : Int}
    {es : List (Access Addr U32)} (h : StartOutcome ok val ret es) :
    OnlyStartBit csr es ↔ (ok → SameBesidesStart val csr) := by
  constructor
  · intro honly hok
    exact (sameBesidesStart_or val csr).mp (honly _ ((h.write_iff _ _).mpr ⟨hok, rfl, rfl⟩))
  · intro hsame v hv
    obtain ⟨hok, -, rfl⟩ := (h.write_iff _ _).mp hv
    exact (sameBesidesStart_or val csr).mpr (hsame hok)

namespace Core

/-- In all four cores, for all register contents and images: a start request changes only
    the start bit exactly when the image is refused, or the register read last is the CSR
    besides `PR_START`. -/
theorem onlyStartBit_iff (core : Core) (s : Addr → Nat → U32) (partialReconfig : Bool)
    (buf : Mem) (count : Nat) :
    (OnlyStartBit (csrAt s 0)
        (trace (core.altPrIpWriteInit (Device.streams s) buf count) ⟨fun _ => 0, []⟩) ↔
      (Accepted s (le32 buf altPrRbfIdOfst) count ∧ core.Settles s →
        SameBesidesStart (lastRead s) (csrAt s 0))) ∧
    (OnlyStartBit (csrAt s 0)
        (trace (core.altPrFpgaWriteInit (Device.streams s) partialReconfig buf count)
          ⟨fun _ => 0, []⟩) ↔
      (partialReconfig = true → Accepted s (le32 buf altPrRbfIdOfst) count ∧ core.Settles s →
        SameBesidesStart (lastRead s) (csrAt s 0))) := by
  have hfresh : Fresh fun _ => 0 := ⟨rfl, rfl, rfl⟩
  constructor
  · exact ((core.altPrIpWriteInit_outcome s buf count).at
      (m := ⟨fun _ => 0, []⟩) hfresh).1.keepsBits_iff
  cases partialReconfig with
  | true =>
    refine Iff.trans ?_ ⟨fun h _ => h, fun h => h rfl⟩
    exact ((core.altPrFpgaWriteInit_outcome s buf count).at
      (m := ⟨fun _ => 0, []⟩) hfresh).keepsBits_iff
  | false =>
    -- nothing is accessed without the flag
    refine ⟨fun _ h => absurd h nofun, fun _ v hv => ?_⟩
    have hnil : trace (core.altPrFpgaWriteInit (Device.streams s) false buf count)
        ⟨fun _ => 0, []⟩ = [] := by
      cases core <;> rfl
    rw [hnil] at hv
    cases hv

/-- VERSION announces a POF id, and the POF id equals the image's id word: its bits are what
    is written over a CSR that reads zero. -/
theorem not_onlyStartBit_match :
    ¬ OnlyStartBit (csrAt (fun a _ => if a = altPrVer then altPrVerPofId else
        if a = altPrPofId then 0x02020202 else 0) 0)
      (trace (Core.a10.altPrIpWriteInit (Device.streams fun a _ =>
        if a = altPrVer then altPrVerPofId else if a = altPrPofId then 0x02020202 else 0)
        (fun _ => 2) 1024) ⟨fun _ => 0, []⟩) := by
  rw [((Core.a10.altPrIpWriteInit_outcome _ (fun _ => 2) 1024).at
    (m := ⟨fun _ => 0, []⟩) ⟨rfl, rfl, rfl⟩).1.keepsBits_iff]
  intro h
  have hsame := h ⟨⟨⟨by decide, fun _ => .inr (by decide)⟩, fun _ => by decide⟩, trivial⟩
  exact absurd hsame (by decide)

end Core

end FpgaPartialReconfig.Driver
