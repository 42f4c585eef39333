/-
  What the return value of `fpga_config_buf_load` says.

  The loader's comment promises zero on success and a negative code otherwise. `Truthful`
  is that promise about one call: zero exactly when the call wrote the whole file, read
  success afterwards and left `config_state` at `OPERATING`; a negative value and another
  state otherwise. A file of 1024 bytes or more is always reported truthfully, on every
  device; a shorter one never is: its size check ends in `return 0`.
-/
import FpgaPartialReconfig.Driver.Loader

namespace FpgaPartialReconfig.Driver

open Bus

/-- The promise, for a call that made the accesses `es`, returned `r.1` and left
    `config_state` at `r.2`. -/
structure Truthful (core : Core) (fp : RbfFile) (es : List (Access Addr U32))
    (r : Int × FpgaState) : Prop where
  zero_iff : r.1 = 0 ↔ Loaded core.stateOf (fileWords fp.bytes) es ∧ r.2 = .operating
  error : r.1 ≠ 0 → r.1 < 0 ∧ r.2 ≠ .operating

theorem Truthful.of_outcome {core : Core} {fp : RbfFile} {es : List (Access Addr U32)}
    {r : Int × FpgaState}
    (h : r = (0, .operating) ∧ Loaded core.stateOf (fileWords fp.bytes) es ∨
      r.1 < 0 ∧ r.2 ≠ .operating) : Truthful core fp es r := by
  rcases h with ⟨rfl, hload⟩ | ⟨hneg, hstate⟩
  · exact ⟨⟨fun _ => ⟨hload, rfl⟩, fun _ => rfl⟩, fun h => absurd rfl h⟩
  · exact ⟨⟨fun h => absurd h (by omega), fun h => absurd h.2 hstate⟩, fun _ => ⟨hneg, hstate⟩⟩

/-- On every device and from every earlier state, a load is reported truthfully exactly when
    the file passes the size check. -/
theorem fpgaConfigBufLoad_truthful_iff {σ : Type} (D : Device Addr U32 σ) (core : Core)
    (stack : Mem) (configTimeout : Int) (fp : RbfFile) (configState : FpgaState) (m : Regs σ) :
    Truthful core fp (trace (fpgaConfigBufLoad D core stack configTimeout fp configState) m)
        (fpgaConfigBufLoad D core stack configTimeout fp configState m).1 ↔
      1024 ≤ fp.size := by
  constructor
  · intro h
    by_contra hshort
    rw [fpgaConfigBufLoad_short D core stack configTimeout fp configState (by omega)] at h
    have hload := (h.zero_iff.mp rfl).1
    simp only [trace, Act.pure_apply, List.drop_length] at hload
    exact not_loaded_nil _ _ hload
  · intro hsize
    exact .of_outcome
      ((emits_fpgaConfigBufLoad D core stack configTimeout fp configState hsize).at trivial)

/-- Three bytes: the loader returns zero and writes nothing. -/
theorem fpgaConfigBufLoad_three_bytes :
    ¬ Truthful .a10 (.ofBytes [1, 2, 3])
      (trace (fpgaConfigBufLoad (Device.streams fun _ _ => 0) .a10 (fun _ => 0) 10
        (.ofBytes [1, 2, 3]) .unknown) ⟨fun _ => 0, []⟩)
      (fpgaConfigBufLoad (Device.streams fun _ _ => 0) .a10 (fun _ => 0) 10
        (.ofBytes [1, 2, 3]) .unknown ⟨fun _ => 0, []⟩).1 := by
  intro h
  rw [fpgaConfigBufLoad_short _ _ _ _ _ _ (by decide)] at h
  exact not_loaded_nil _ _ (h.zero_iff.mp rfl).1

end FpgaPartialReconfig.Driver
