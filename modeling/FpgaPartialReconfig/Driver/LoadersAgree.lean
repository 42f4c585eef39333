/-
  The two loaders agree.

  Run from the same state over the same image, `fpga_mgr_buf_load` of the fpga driver and
  `fpga_config_buf_load` of the fpga_pcie driver return the same value, leave the same state
  and make the same register writes and CSR reads. Init and completion are the same code;
  the two `write` functions have one form (`Loader`), up to the timing counters that the
  old Stratix 10 core reads when it is done. `SameTraffic` is the simulation that forgets
  those reads: the poll that follows reads only the CSR, whose stream they do not touch.
-/
import FpgaPartialReconfig.Driver.Loader

namespace FpgaPartialReconfig.Driver

open Bus

/-- The register writes and the CSR reads of a log, in order. -/
def writesAndCsrReads (es : List (Access Addr U32)) : List (Access Addr U32) :=
  es.filter fun e =>
    match e with
    | .read a _ => a = altPrCsr
    | .write _ _ => true

/-- Two machines that have made the same writes and CSR reads. -/
structure SameTraffic (m m' : Regs (Addr → Nat)) : Prop where
  csr : m.dev altPrCsr = m'.dev altPrCsr
  log : writesAndCsrReads m.log = writesAndCsrReads m'.log

theorem SameTraffic.refl (m : Regs (Addr → Nat)) : SameTraffic m m := ⟨rfl, rfl⟩

section
variable (s : Addr → Nat → U32)

theorem simulates_readl_csr :
    Act.Simulates SameTraffic (readl (Device.streams s) altPrCsr)
      (readl (Device.streams s) altPrCsr) := by
  intro m m' h
  simp only [readl, Device.get, Device.streams, h.csr]
  refine ⟨trivial, ?_, ?_⟩
  · simp only [Function.update_self]
  · simp only [writesAndCsrReads, List.filter_append]
    exact congrArg₂ (· ++ ·) h.log rfl

/-- A read of another register is forgotten. -/
theorem SameTraffic.readl {m m' : Regs (Addr → Nat)} (h : SameTraffic m m') {a : Addr}
    (ha : altPrCsr ≠ a) : SameTraffic (readl (Device.streams s) a m).2 m' := by
  constructor
  · simp only [Driver.readl, Device.get, Device.streams, Function.update_of_ne ha]
    exact h.csr
  · simp only [Driver.readl, Device.get, writesAndCsrReads, List.filter_append, List.filter_cons,
      List.filter_nil, decide_eq_false ha.symm, Bool.false_eq_true, if_false, List.append_nil]
    exact h.log

theorem simulates_pollComplete (stateOf : U32 → FpgaState) (n : Nat) :
    Act.Simulates SameTraffic (pollComplete (Device.streams s) stateOf n)
      (pollComplete (Device.streams s) stateOf n) := by
  induction n with
  | zero => exact .pure _
  | succ n ih =>
    refine .bind (.bind (simulates_readl_csr s) fun _ => .pure _) fun _ => ?_
    exact .ite (.pure _) (.ite (.pure _) ih)

theorem SameTraffic.readPReg (m : Regs (Addr → Nat)) :
    SameTraffic (S10.readPReg (Device.streams s) m).2 m := by
  simp only [S10.readPReg, Act.bind_apply, Act.pure_apply]
  iterate 6 refine SameTraffic.readl s ?_ (by decide)
  exact .refl m

theorem SameTraffic.postWrite (core : Core) (ret : Int) (m : Regs (Addr → Nat)) :
    SameTraffic (core.postWrite (Device.streams s) ret m).2 m := by
  cases core with
  | a10 => exact .refl m
  | s10 verbose =>
    simp only [Core.postWrite, Act.ite_apply]
    split
    · exact .readPReg s m
    · exact .refl m

end

/-! ## Init and completion -/

section
variable {σ : Type} (D : Device Addr U32 σ)

/-- The start checks look at the image only at the POF id. -/
theorem writeInit_congr (settle : Act (Regs σ) Int) {buf buf' : Mem} {count count' : Nat}
    (hid : le32 buf altPrRbfIdOfst = le32 buf' altPrRbfIdOfst)
    (hc : altPrRbfIdOfst ≤ count) (hc' : altPrRbfIdOfst ≤ count') :
    writeInit D settle buf count = writeInit D settle buf' count' := by
  unfold writeInit
  rw [hid, if_neg (Nat.not_lt.mpr hc), if_neg (Nat.not_lt.mpr hc')]

theorem Core.altPrFpgaWriteInit_eq (core : Core) {buf buf' : Mem} {count count' : Nat}
    (hid : le32 buf altPrRbfIdOfst = le32 buf' altPrRbfIdOfst)
    (hc : altPrRbfIdOfst ≤ count) (hc' : altPrRbfIdOfst ≤ count') :
    core.altPrFpgaWriteInit D true buf count = core.altPrIpWriteInit D buf' count' := by
  cases core with
  | a10 => exact writeInit_congr D (pure 0) hid hc hc'
  | s10 verbose => exact writeInit_congr D (S10.settle D) hid hc hc'

/-- A timeout that is not negative means the same to both drivers. -/
theorem Core.altPrFpgaWriteComplete_eq (core : Core) (timeout : Nat) :
    core.altPrFpgaWriteComplete D (BitVec.ofNat 32 timeout) =
      core.altPrIpFpgaWriteComplete D timeout := by
  have htimeout : BitVec.ofNat 32 timeout = BitVec.ofInt 32 timeout := by
    rw [BitVec.ofInt_natCast]
  cases core <;> simp only [altPrFpgaWriteComplete, altPrIpFpgaWriteComplete,
    A10.altPrFpgaWriteComplete, A10.altPrIpFpgaWriteComplete, S10.altPrFpgaWriteComplete,
    S10.altPrIpFpgaWriteComplete, htimeout]

end

theorem simulates_altPrIpFpgaWriteComplete (s : Addr → Nat → U32) (core : Core) (timeout : Int) :
    Act.Simulates SameTraffic (core.altPrIpFpgaWriteComplete (Device.streams s) timeout)
      (core.altPrIpFpgaWriteComplete (Device.streams s) timeout) := by
  cases core with
  | a10 => exact simulates_pollComplete s A10.stateOf _
  | s10 verbose => exact simulates_pollComplete s S10.stateOf _

/-! ## The loaders -/

/-- A load whose `write` is followed by the timing-counter reads, against one without. -/
theorem bufLoad_postWrite (s : Addr → Nat → U32) (core : Core) (init write : Act (Regs _) Int)
    (timeout : Int) (m : Regs (Addr → Nat)) :
    let complete := core.altPrIpFpgaWriteComplete (Device.streams s) timeout
    let old := bufLoad init (do
      let ret ← write
      core.postWrite (Device.streams s) ret
      return ret) complete m
    let new := bufLoad init write complete m
    old.1 = new.1 ∧ SameTraffic old.2 new.2 := by
  intro complete old new
  simp only [old, new, bufLoad, Act.bind_apply, Act.ite_apply, Act.pure_apply]
  split
  · exact ⟨rfl, .refl _⟩
  · have hpost := SameTraffic.postWrite s core (write (init m).2).1 (write (init m).2).2
    split
    · exact ⟨rfl, hpost⟩
    · obtain ⟨hret, hsame⟩ :=
        simulates_altPrIpFpgaWriteComplete s core timeout _ _ hpost
      simp only [complete, hret]
      split
      · exact ⟨rfl, hsame⟩
      · exact ⟨rfl, hsame⟩

/-- For every image from 1024 bytes up to 2 GiB, every register stream and every
    non-negative timeout. -/
theorem fpgaMgrBufLoad_agrees (core : Core) (s : Addr → Nat → U32) (reads : Addr → Nat)
    (fp : RbfFile) (image stack : Mem) (timeout : Nat) (configState : FpgaState)
    (himage : ∀ i < fp.size, image i = memOf fp.bytes i) (hmin : 1024 ≤ fp.size)
    (hmax : fp.size < 2 ^ 31) :
    let old := fpgaMgrBufLoad (Device.streams s) core ⟨true, BitVec.ofNat 32 timeout⟩ image
      fp.size ⟨reads, []⟩
    let new := fpgaConfigBufLoad (Device.streams s) core stack timeout fp configState ⟨reads, []⟩
    old.1 = new.1 ∧ writesAndCsrReads old.2.log = writesAndCsrReads new.2.log := by
  intro old new
  have hid : le32 image altPrRbfIdOfst = le32 (fp.kernelRead 0 1024 stack).2 altPrRbfIdOfst := by
    rw [header_id stack hmin]
    refine le32_congr fun i hi => himage _ ?_
    simp only [altPrRbfIdOfst]
    omega
  have hofst : altPrRbfIdOfst ≤ 1024 := by decide
  have hnew : new = bufLoad
      (core.altPrIpWriteInit (Device.streams s) (fp.kernelRead 0 1024 stack).2 1024)
      (core.streamImage (Device.streams s) fp.bytes)
      (core.altPrIpFpgaWriteComplete (Device.streams s) timeout) ⟨reads, []⟩ := by
    simp only [new, fpgaConfigBufLoad]
    rw [if_neg (fun h => h ((read_1024 stack).mpr hmin)),
      core.altPrIpFpgaWrite_small _ fp stack (by omega) hmax]
  have hold : old = bufLoad
      (core.altPrIpWriteInit (Device.streams s) (fp.kernelRead 0 1024 stack).2 1024)
      (do
        let ret ← core.streamImage (Device.streams s) fp.bytes
        core.postWrite (Device.streams s) ret
        return ret)
      (core.altPrIpFpgaWriteComplete (Device.streams s) timeout) ⟨reads, []⟩ := by
    simp only [old, fpgaMgrBufLoad]
    rw [core.altPrFpgaWriteInit_eq _ hid (by omega) hofst, core.altPrFpgaWriteComplete_eq,
      RbfFile.size, core.altPrFpgaWrite_eq _ himage (by simp only [RbfFile.size] at hmin; omega)]
  rw [hold, hnew]
  obtain ⟨hret, hsame⟩ := bufLoad_postWrite s core
    (core.altPrIpWriteInit (Device.streams s) (fp.kernelRead 0 1024 stack).2 1024)
    (core.streamImage (Device.streams s) fp.bytes) timeout ⟨reads, []⟩
  exact ⟨hret, hsame.log⟩

/-- A file that ends with three bytes of a word. -/
def tailedFile : RbfFile := .ofBytes ((List.range 1027).map (BitVec.ofNat 8))

/-- The IP has the id of that file, and is at work for the first nine readings of the CSR. -/
def workingReadings (a : Addr) (k : Nat) : U32 :=
  if a = altPrCsr then
    if k < 9 then S10.altPrCsrStatusPrInProg else S10.altPrCsrStatusPrSuccess
  else
    0x1f1e1d1c

/-- Both loaders get through with it. -/
theorem fpgaMgrBufLoad_agrees_tailed :
    let old := fpgaMgrBufLoad (Device.streams workingReadings) (.s10 true)
      ⟨true, BitVec.ofNat 32 10⟩ (memOf tailedFile.bytes) tailedFile.size ⟨fun _ => 0, []⟩
    let new := fpgaConfigBufLoad (Device.streams workingReadings) (.s10 true) (fun _ => 0)
      (10 : Nat) tailedFile .unknown ⟨fun _ => 0, []⟩
    new.1 = (0, .operating) ∧ old.1 = new.1 ∧
      writesAndCsrReads old.2.log = writesAndCsrReads new.2.log := by
  have hsize : tailedFile.size = 1027 := by decide +kernel
  exact ⟨by decide +kernel, fpgaMgrBufLoad_agrees (.s10 true) workingReadings (fun _ => 0)
    tailedFile (memOf tailedFile.bytes) (fun _ => 0) 10 .unknown (fun _ _ => rfl)
    (by rw [hsize]; decide) (by rw [hsize]; decide)⟩

end FpgaPartialReconfig.Driver
