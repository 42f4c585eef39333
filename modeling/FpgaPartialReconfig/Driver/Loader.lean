/-
  The two loaders.

  `fpga_config_buf_load` (fpga_pcie driver) and `fpga_mgr_buf_load` (fpga driver) step the
  PR IP through init, streaming and completion with the same text: `bufLoad` is that text,
  and each loader is `bufLoad` of its own three steps, the first one behind its size check.
  A `Core` is the PR IP the driver is built for; its functions pick the file the makefile
  links.

  `altPrIpFpgaWrite_small`, `altPrIpFpgaWrite_large` and `altPrFpgaWrite_eq` put the
  streaming functions of both drivers in one form: the complete words with the core's chunk
  check, and then the remainder with the final status check. `emits_fpgaConfigBufLoad` is
  what a load does on any device.
-/
import FpgaPartialReconfig.Driver.Stream

namespace FpgaPartialReconfig.Driver

open Bus

/-- The PR IP core linked into the driver. `verbose` is `VERBOSE_TRUE`, which the Arria 10
    sources do not test. -/
inductive Core where
  | a10
  | s10 (verbose : Bool)
  deriving DecidableEq, Repr

section
variable {σ : Type} (D : Device Addr U32 σ)

namespace Core

def stateOf : Core → U32 → FpgaState
  | .a10 => A10.stateOf
  | .s10 _ => S10.stateOf

/-! ## The functions the makefile links -/

def altPrIpWriteInit : Core → Mem → Nat → Act (Regs σ) Int
  | .a10 => A10.altPrIpWriteInit D
  | .s10 _ => S10.altPrIpWriteInit D

def altPrIpFpgaWrite : Core → RbfFile → Mem → Act (Regs σ) Int
  | .a10 => A10.altPrIpFpgaWrite D
  | .s10 verbose => S10.altPrIpFpgaWrite D verbose

def altPrIpFpgaWriteComplete : Core → Int → Act (Regs σ) Int
  | .a10 => A10.altPrIpFpgaWriteComplete D
  | .s10 _ => S10.altPrIpFpgaWriteComplete D

def altPrFpgaWriteInit : Core → Bool → Mem → Nat → Act (Regs σ) Int
  | .a10 => A10.altPrFpgaWriteInit D
  | .s10 _ => S10.altPrFpgaWriteInit D

def altPrFpgaWrite : Core → Mem → Nat → Act (Regs σ) Int
  | .a10 => A10.altPrFpgaWrite D
  | .s10 verbose => S10.altPrFpgaWrite D verbose

def altPrFpgaWriteComplete : Core → U32 → Act (Regs σ) Int
  | .a10 => A10.altPrFpgaWriteComplete D
  | .s10 _ => S10.altPrFpgaWriteComplete D

end Core

/-! ## The loaders -/

/-- The three steps and the state each exit leaves. The states set before a step
    (`WRITE_INIT`, `WRITE`, `WRITE_COMPLETE`) are overwritten by its outcome. -/
def bufLoad (writeInit write writeComplete : Act (Regs σ) Int) :
    Act (Regs σ) (Int × FpgaState) := do
  let ret ← writeInit
  if ret ≠ 0 then
    return (ret, .writeInitErr)
  else do
    let ret ← write
    if ret ≠ 0 then
      return (ret, .writeErr)
    else do
      let ret ← writeComplete
      if ret ≠ 0 then
        return (ret, .writeCompleteErr)
      else
        return (0, .operating)

/-- The result is the return value and `config_state` afterwards. `stack` is what the
    uninitialised local buffers hold. -/
def fpgaConfigBufLoad (core : Core) (stack : Mem) (configTimeout : Int) (fp : RbfFile)
    (configState : FpgaState) : Act (Regs σ) (Int × FpgaState) :=
  if (fp.kernelRead 0 1024 stack).1 ≠ 1024 then
    pure (0, configState)
  else
    bufLoad (core.altPrIpWriteInit D (fp.kernelRead 0 1024 stack).2 1024)
      (core.altPrIpFpgaWrite D fp stack) (core.altPrIpFpgaWriteComplete D configTimeout)

/-- `struct fpga_image_info`, as far as the loader reads it. -/
structure FpgaImageInfo where
  partialReconfig : Bool
  configCompleteTimeoutUs : U32
  deriving Repr

def fpgaMgrBufLoad (core : Core) (info : FpgaImageInfo) (buf : Mem) (count : Nat) :
    Act (Regs σ) (Int × FpgaState) :=
  bufLoad (core.altPrFpgaWriteInit D info.partialReconfig buf count)
    (core.altPrFpgaWrite D buf count)
    (core.altPrFpgaWriteComplete D info.configCompleteTimeoutUs)

/-! ## One form for the streaming functions -/

namespace Core

/-- The status reading of the Stratix 10 cores before the first word. -/
def preWrite : Core → Act (Regs σ) Unit
  | .a10 => pure ()
  | .s10 _ => do
    let _ ← prState D S10.stateOf
    pure ()

def chunkCheck : Core → Nat → Act (Regs σ) Bool
  | .a10 => S10.chunkCheck D false
  | .s10 verbose => S10.chunkCheck D verbose

/-- What `write` does with `ws` as the complete words and `close` as the rest. -/
def stream (core : Core) (ws : List U32) (close : Act (Regs σ) Int) : Act (Regs σ) Int := do
  core.preWrite D
  let ok ← feed D (core.chunkCheck D) 0 ws
  if ok = true then
    close
  else
    return - EIO

/-- `write` for an image below 2 GiB. -/
def streamImage (core : Core) (bytes : List Byte) : Act (Regs σ) Int :=
  core.stream D (wordsBetween bytes 0 (bytes.length / 4))
    (closeWrite D core.stateOf (tailWords bytes))

theorem altPrIpFpgaWrite_stream (core : Core) (fp : RbfFile) (buf : Mem) (h4 : 4 ≤ fp.size) :
    ∃ r, LastRead fp r ∧ core.altPrIpFpgaWrite D fp buf =
      core.stream D (wordsBetween fp.bytes 0 (loopStop fp.size))
        (finishWrite D core.stateOf r.1 (le32 r.2 0)) := by
  have hstop : 0 < loopStop fp.size := by
    unfold loopStop
    omega
  obtain ⟨h4', hword⟩ := fp.read_word buf
    (show (0 : Int) = ((4 * 0 : Nat) : Int) from rfl) (by omega)
  have hofs : addInt 0 (fp.kernelRead 0 4 buf).1 = ((4 * (0 + 1) : Nat) : Int).bmod (2 ^ 32) := by
    rw [h4']
    rfl
  cases core with
  | a10 =>
    obtain ⟨r, hr, heq⟩ := S10.writeLoop_feed D false fp 0 hstop hword hofs
    refine ⟨r, hr, funext fun m => ?_⟩
    have hm := congrFun heq m
    rw [A10.writeLoop_eq_s10] at hm
    simp only [altPrIpFpgaWrite, A10.altPrIpFpgaWrite, stream, preWrite, chunkCheck, stateOf,
      Act.bind_apply, Act.pure_apply, Act.ite_apply] at hm ⊢
    split at hm
    · rename_i hok
      simp only [Prod.mk.injEq, Option.some.injEq] at hm
      rw [hm.1, hm.2, if_pos hok]
    · simp at hm
  | s10 verbose =>
    obtain ⟨r, hr, heq⟩ := S10.writeLoop_feed D verbose fp 0 hstop hword hofs
    refine ⟨r, hr, funext fun m => ?_⟩
    simp only [altPrIpFpgaWrite, S10.altPrIpFpgaWrite, S10.altPrIpFpgaState, stream, preWrite,
      chunkCheck, stateOf, heq, Act.bind_apply, Act.pure_apply, Act.ite_apply]
    split <;> simp [*]

/-- The fpga_pcie driver's `write`, for a file below 2 GiB. -/
theorem altPrIpFpgaWrite_small (core : Core) (fp : RbfFile) (buf : Mem) (h4 : 4 ≤ fp.size)
    (hsize : fp.size < 2 ^ 31) :
    core.altPrIpFpgaWrite D fp buf = core.streamImage D fp.bytes := by
  obtain ⟨r, hr, heq⟩ := core.altPrIpFpgaWrite_stream D fp buf h4
  have hstop : loopStop fp.size = fp.bytes.length / 4 := by
    simp only [loopStop, RbfFile.size] at hsize ⊢
    omega
  rw [heq, hr.small hsize, hstop, streamImage, RbfFile.size, finishWrite_eq D _ (hr.word hsize)]

/-- Beyond 2 GiB it writes the words below 2 GiB and fails. -/
theorem altPrIpFpgaWrite_large (core : Core) (fp : RbfFile) (buf : Mem)
    (hsize : 2 ^ 31 ≤ fp.size) :
    core.altPrIpFpgaWrite D fp buf =
      core.stream D (wordsBetween fp.bytes 0 (2 ^ 29)) (pure (-EFAULT)) := by
  obtain ⟨r, hr, heq⟩ := core.altPrIpFpgaWrite_stream D fp buf (by omega)
  have hstop : loopStop fp.size = 2 ^ 29 := by
    simp only [loopStop]
    omega
  rw [heq, hstop, finishWrite_neg D _ (hr.large hsize)]

/-- The old Stratix 10 core reads its timing counters after a successful `write`. -/
def postWrite : Core → Int → Act (Regs σ) Unit
  | .a10, _ => pure ()
  | .s10 _, ret => if ret = 0 then S10.readPReg D else pure ()

/-- The fpga driver's `write` over the image in memory. -/
theorem altPrFpgaWrite_eq (core : Core) {bytes : List Byte} {image : Mem}
    (himage : ∀ i < bytes.length, image i = memOf bytes i) (h0 : 0 < bytes.length) :
    core.altPrFpgaWrite D image bytes.length =
      (do
        let ret ← core.streamImage D bytes
        core.postWrite D ret
        return ret) := by
  have hcount : ¬ bytes.length ≤ 0 := by omega
  have hclose := finishWrite_eq D core.stateOf (image_word himage)
  funext m
  cases core with
  | a10 =>
    have hloop := congrFun (S10.imageLoop_feed D false himage 0 (Nat.zero_le _)) m
    rw [A10.imageLoop_eq_s10] at hloop
    simp only [Nat.mul_zero, Nat.sub_zero, Act.bind_apply, Act.pure_apply] at hloop
    simp only [altPrFpgaWrite, A10.altPrFpgaWrite, if_neg hcount, streamImage, stream, preWrite,
      postWrite, chunkCheck, Act.bind_apply, Act.pure_apply, Act.ite_apply]
    simp only [stateOf] at hclose ⊢
    split at hloop
    · rename_i hok
      simp only [Prod.mk.injEq, Option.some.injEq] at hloop
      rw [hloop.1, hloop.2, if_pos hok, ← hclose]
    · simp at hloop
  | s10 verbose =>
    have hloop := S10.imageLoop_feed D verbose himage 0 (Nat.zero_le _)
    simp only [Nat.mul_zero, Nat.sub_zero] at hloop
    simp only [stateOf] at hclose
    simp only [altPrFpgaWrite, S10.altPrFpgaWrite, S10.altPrFpgaState, if_neg hcount, hloop,
      streamImage, stream, preWrite, postWrite, chunkCheck, stateOf, Act.bind_apply,
      Act.pure_apply, Act.ite_apply, ← hclose]
    split
    · simp only [Act.bind_apply, Act.pure_apply, Act.ite_apply]
      split <;> rfl
    · simp [ EIO]

/-! ## What a load does on any device -/

theorem emits_altPrIpWriteInit (core : Core) (buf : Mem) (count : Nat) :
    Emits (core.altPrIpWriteInit D buf count) fun ret es =>
      ret ≤ 0 ∧ writesTo altPrData es = [] := by
  cases core with
  | a10 => exact emits_writeInit D buf count (Spec.pure fun _ _ => ⟨Int.le_refl 0, silent_nil⟩)
  | s10 verbose => exact emits_writeInit D buf count (S10.emits_settle D)

theorem emits_preWrite (core : Core) : Emits (core.preWrite D) fun _ es => Silent es := by
  cases core with
  | a10 => exact Spec.pure fun _ _ => silent_nil
  | s10 verbose =>
    refine (emits_prState D S10.stateOf).bind fun s es h => Spec.pure fun _ _ => ?_
    obtain ⟨v, rfl, -⟩ := h
    exact silent_read _ _

theorem emits_chunkCheck (core : Core) (j : Nat) :
    Emits (core.chunkCheck D j) fun _ es => Silent es := by
  cases core with
  | a10 => exact S10.emits_chunkCheck D false j
  | s10 verbose => exact S10.emits_chunkCheck D verbose j

theorem emits_stream (core : Core) (ws : List U32) {close : Act (Regs σ) Int}
    (P : List U32 → Prop)
    (hclose : Emits close fun ret es => ret ≤ 0 ∧ (ret = 0 → P (writesTo altPrData es))) :
    Emits (core.stream D ws close) fun ret es =>
      ret ≤ 0 ∧ (ret = 0 → ∃ tail, P tail ∧ writesTo altPrData es = ws ++ tail) := by
  refine (core.emits_preWrite D).bind fun _ es₁ h₁ => ?_
  refine (emits_feed D (core.emits_chunkCheck D) 0 ws).bind fun ok es₂ h₂ => ?_
  refine Spec.ite (fun hok => ?_) fun _ =>
    Spec.pure fun _ _ => ⟨by decide, fun h => absurd h (by decide)⟩
  refine hclose.mono fun ret es₃ h₃ => ⟨h₃.1, fun h0 => ⟨_, h₃.2 h0, ?_⟩⟩
  rw [writesTo_append, writesTo_append, h₁ altPrData, h₂.2 hok, List.nil_append]

/-- A stream cut off after `ws` fails with a prefix of them written. -/
theorem emits_stream_cut (core : Core) (ws : List U32) :
    Emits (core.stream D ws (pure (-EFAULT))) fun ret es =>
      ret ≠ 0 ∧ writesTo altPrData es <+: ws := by
  refine (core.emits_preWrite D).bind fun _ es₁ h₁ => ?_
  refine (emits_feed D (core.emits_chunkCheck D) 0 ws).bind fun ok es₂ h₂ => ?_
  have hw : writesTo altPrData (es₁ ++ (es₂ ++ [])) <+: ws := by
    rw [List.append_nil, writesTo_append, h₁ altPrData, List.nil_append]
    exact h₂.1
  exact Spec.ite (fun _ => Spec.pure fun _ _ => ⟨by decide, hw⟩) fun _ =>
    Spec.pure fun _ _ => ⟨by decide, hw⟩

/-- `write` returns zero only once every word of the file is written. -/
theorem emits_altPrIpFpgaWrite (core : Core) (fp : RbfFile) (buf : Mem) (h4 : 4 ≤ fp.size) :
    Emits (core.altPrIpFpgaWrite D fp buf) fun ret es =>
      ret ≤ 0 ∧ (ret = 0 → writesTo altPrData es = fileWords fp.bytes) := by
  by_cases hsize : fp.size < 2 ^ 31
  · rw [core.altPrIpFpgaWrite_small D fp buf h4 hsize, fileWords_eq]
    refine (core.emits_stream D _ (· = tailWords fp.bytes)
      ((emits_closeWrite D _ _).mono fun _ _ h => ⟨h.1, fun _ => h.2⟩)).mono fun ret es h => ⟨h.1, fun h0 => ?_⟩
    obtain ⟨tail, rfl, hes⟩ := h.2 h0
    exact hes
  · rw [core.altPrIpFpgaWrite_large D fp buf (by omega)]
    have hfail : Emits (pure (-EFAULT) : Act (Regs σ) Int) fun ret _ =>
        ret ≤ 0 ∧ (ret = 0 → False) := Spec.pure fun _ _ => by decide
    refine (core.emits_stream D _ (fun _ => False) hfail).mono fun ret es h => ⟨h.1, fun h0 => ?_⟩
    obtain ⟨_, hfalse, -⟩ := h.2 h0
    exact hfalse.elim

theorem emits_altPrIpFpgaWriteComplete (core : Core) (configTimeout : Int) :
    Emits (core.altPrIpFpgaWriteComplete D configTimeout) fun ret es => Silent es ∧
      (ret < 0 ∨
        ret = 0 ∧ ∃ es₀ v, es = es₀ ++ [.read altPrCsr v] ∧ core.stateOf v = .operating) := by
  cases core with
  | a10 => exact emits_pollComplete D A10.stateOf _
  | s10 verbose => exact emits_pollComplete D S10.stateOf _

end Core

/-- The words were all written to the data register, and after that the status was read as
    success. -/
def Loaded (stateOf : U32 → FpgaState) (words : List U32) (es : List (Access Addr U32)) : Prop :=
  writesTo altPrData es = words ∧
    ∃ before v after, es = before ++ .read altPrCsr v :: after ∧
      stateOf v = .operating ∧ writesTo altPrData after = []

/-- Nothing was loaded when nothing was read. -/
theorem not_loaded_nil (stateOf : U32 → FpgaState) (words : List U32) :
    ¬ Loaded stateOf words [] := by
  intro hparts
  obtain ⟨-, before, v, after, h, -⟩ := hparts
  cases before <;> cases h

theorem read_1024 {fp : RbfFile} (stack : Mem) :
    (fp.kernelRead 0 1024 stack).1 = 1024 ↔ 1024 ≤ fp.size := by
  rw [fp.read_nonneg 0 1024 stack (Int.le_refl 0)]
  simp only [RbfFile.size, Int.toNat_zero, Nat.sub_zero]
  omega

/-- The id the start checks compare with. -/
theorem header_id {fp : RbfFile} (stack : Mem) (hsize : 1024 ≤ fp.size) :
    le32 (fp.kernelRead 0 1024 stack).2 altPrRbfIdOfst = fileWord fp.bytes 71 := by
  have hlen : min 1024 (fp.bytes.length - (0 : Int).toNat) = 1024 := by
    simp only [RbfFile.size, Int.toNat_zero, Nat.sub_zero] at hsize ⊢
    omega
  rw [fp.read_nonneg 0 1024 stack (Int.le_refl 0), hlen]
  refine le32_congr fun i hi => ?_
  have hi' : altPrRbfIdOfst + i < 1024 := by
    simp only [altPrRbfIdOfst]
    omega
  simp only [copyIn, if_pos hi', Int.toNat_zero, Nat.zero_add]
  rfl

/-- A load of a file that passes the size check succeeds with the file loaded and the state
    set, or fails with another state. -/
theorem emits_fpgaConfigBufLoad (core : Core) (stack : Mem) (configTimeout : Int) (fp : RbfFile)
    (configState : FpgaState) (hsize : 1024 ≤ fp.size) :
    Emits (fpgaConfigBufLoad D core stack configTimeout fp configState) fun r es =>
      r = (0, .operating) ∧ Loaded core.stateOf (fileWords fp.bytes) es ∨
        r.1 < 0 ∧ r.2 ≠ .operating := by
  unfold fpgaConfigBufLoad
  rw [if_neg (fun h => h ((read_1024 stack).mpr hsize))]
  refine (core.emits_altPrIpWriteInit D _ 1024).bind fun ret es₁ h₁ => ?_
  refine Spec.ite (fun hret => Spec.pure fun _ _ => .inr ⟨?_, nofun⟩) fun _ => ?_
  · have := h₁.1
    simp only
    omega
  refine (core.emits_altPrIpFpgaWrite D fp stack (by omega)).bind fun ret es₂ h₂ => ?_
  refine Spec.ite (fun hret => Spec.pure fun _ _ => .inr ⟨?_, nofun⟩) fun hret₂ => ?_
  · have := h₂.1
    simp only
    omega
  refine (core.emits_altPrIpFpgaWriteComplete D configTimeout).bind fun ret es₃ h₃ => ?_
  obtain ⟨hsilent, hout⟩ := h₃
  refine Spec.ite (fun hret => Spec.pure fun _ _ => .inr ⟨?_, nofun⟩) fun hret₃ => ?_
  · rcases hout with h | h
    · exact h
    · exact absurd h.1 hret
  rcases hout with h | ⟨-, es₀, v, rfl, hop⟩
  · omega
  refine Spec.pure fun _ _ => .inl ⟨rfl, ?_, es₁ ++ (es₂ ++ es₀), v, [], ?_, hop, rfl⟩
  · rw [List.append_nil, writesTo_append, writesTo_append, h₁.2, h₂.2 (by omega), hsilent,
      List.append_nil, List.nil_append]
  · simp only [List.append_assoc, List.append_nil]

/-- A shorter file does not pass the size check, and nothing happens. -/
theorem fpgaConfigBufLoad_short (core : Core) (stack : Mem) (configTimeout : Int) (fp : RbfFile)
    (configState : FpgaState) (hsize : fp.size < 1024) :
    fpgaConfigBufLoad D core stack configTimeout fp configState = pure (0, configState) := by
  unfold fpgaConfigBufLoad
  rw [if_pos (fun h => absurd ((read_1024 stack).mp h) (by omega))]

/-! ## A load stays within the PR IP -/

theorem Core.within_chunkCheck (core : Core) (j : Nat) :
    Within D Addr.IsPrIp (core.chunkCheck D j) := by
  cases core with
  | a10 => exact S10.within_chunkCheck D false j
  | s10 verbose => exact S10.within_chunkCheck D verbose j

theorem Core.within_altPrIpWriteInit (core : Core) (buf : Mem) (count : Nat) :
    Within D Addr.IsPrIp (core.altPrIpWriteInit D buf count) := by
  cases core with
  | a10 => exact within_writeInit D (.pure _) buf count
  | s10 verbose => exact within_writeInit D (S10.within_settle D) buf count

theorem Core.within_preWrite (core : Core) : Within D Addr.IsPrIp (core.preWrite D) := by
  cases core with
  | a10 => exact .pure _
  | s10 verbose => exact .bind (within_prState D S10.stateOf) fun _ => .pure _

theorem Core.within_stream (core : Core) (ws : List U32) {close : Act (Regs σ) Int}
    (hclose : Within D Addr.IsPrIp close) : Within D Addr.IsPrIp (core.stream D ws close) :=
  .bind (core.within_preWrite D) fun _ =>
    .bind (within_feed D (core.within_chunkCheck D) 0 ws) fun _ => .ite hclose (.pure _)

theorem Core.within_altPrIpFpgaWriteComplete (core : Core) (configTimeout : Int) :
    Within D Addr.IsPrIp (core.altPrIpFpgaWriteComplete D configTimeout) := by
  cases core with
  | a10 => exact within_pollComplete D _ _
  | s10 verbose => exact within_pollComplete D _ _

theorem within_bufLoad {writeInit write writeComplete : Act (Regs σ) Int}
    (hinit : Within D Addr.IsPrIp writeInit) (hwrite : Within D Addr.IsPrIp write)
    (hcomplete : Within D Addr.IsPrIp writeComplete) :
    Within D Addr.IsPrIp (bufLoad writeInit write writeComplete) :=
  .bind hinit fun _ => .ite (.pure _) (.bind hwrite fun _ =>
    .ite (.pure _) (.bind hcomplete fun _ => .ite (.pure _) (.pure _)))

theorem within_fpgaConfigBufLoad (core : Core) (stack : Mem) (configTimeout : Int) (fp : RbfFile)
    (configState : FpgaState) :
    Within D Addr.IsPrIp (fpgaConfigBufLoad D core stack configTimeout fp configState) := by
  by_cases hsize : 1024 ≤ fp.size
  · refine .ite (.pure _) (within_bufLoad D (core.within_altPrIpWriteInit D _ _) ?_
      (core.within_altPrIpFpgaWriteComplete D configTimeout))
    by_cases hsmall : fp.size < 2 ^ 31
    · rw [core.altPrIpFpgaWrite_small D fp stack (by omega) hsmall]
      exact core.within_stream D _ (within_closeWrite D _ _)
    · rw [core.altPrIpFpgaWrite_large D fp stack (by omega)]
      exact core.within_stream D _ (.pure _)
  · rw [fpgaConfigBufLoad_short D core stack configTimeout fp configState (by omega)]
    exact .pure _

end

end FpgaPartialReconfig.Driver
