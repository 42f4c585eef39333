/-
  The script that reconfigures a region through the fpga driver.

  `program-fpga-pcie` deploys the subdrivers, has the region controller tool freeze the
  region, writes the name of the image to `firmware_name`, has the tool unfreeze the region
  and deploys the subdrivers again. It runs under `set -e`, so it ends where one of these
  fails: unlike `fpga-configure` it comes to the unfreeze request only behind a load that
  ended well, whatever the device does (`emits_programFpgaPcie`).

  Left out: the command line, the names of the files in debugfs, and the registers that are
  read when the subdrivers are probed.
-/
import FpgaPartialReconfig.Driver.Manager
import FpgaPartialReconfig.Driver.Clients
import FpgaPartialReconfig.Driver.RegionTool

namespace FpgaPartialReconfig.Driver.Manager

open Bus Tool

/-- What becomes of `uio_find_dev_num` and `uio_open`. -/
inductive Uio where
  | notFound | notOpened | opened (uioh : UioHandle)

def Uio.handle : Uio → Option UioHandle
  | .opened uioh => some uioh
  | _ => none

/-- What the steps of a run meet. The tool looks for its UIO device each time it is called;
    `name` is the last part of the path of the image. -/
structure Env where
  first : Debugfs.Write
  managerFound : Bool
  copiedToFirmware : Bool
  flagsWritten : Bool
  configToWritten : Bool
  uioEnable : Uio
  uioDisable : Uio
  region : U32
  name : List Byte
  allocated : Bool
  copied : Bool
  last : Debugfs.Write

section
variable {σ : Type} (D : Device Addr U32 σ) (core : Core) (firmware : Firmware)

/-- What the shell sees of the value that `main` returns. -/
def exitStatus (ret : Option Int) : Option Nat := ret.map fun ret => (ret % 256).toNat

/-- `main` of the tool in one of its modes: the exit status, `none` while it polls. -/
def toolMain (uio : Uio) (mode : UioHandle → Act (Regs σ) (Option Int)) :
    Act (Regs σ) (Option Nat) :=
  match uio with
  | .notFound => pure (some 2)
  | .notOpened => pure (some 1)
  | .opened uioh => do
    let ret ← mode uioh
    return exitStatus ret

/-- The exit status of the script, `none` while the tool polls. -/
def programFpgaPcie (env : Env) (rounds : Nat) (priv : Debugfs.Priv) (mgr : Mgr) :
    Act (Regs σ) (Option Nat) :=
  let probed := Debugfs.fpgaPcieStateWriteFile env.first priv
  if probed.1 < 0 then pure (some 1)
  else if env.managerFound = false then pure (some 1)
  else if env.copiedToFirmware = false then pure (some 1)
  else if env.flagsWritten = false then pure (some 1)
  else if env.configToWritten = false then pure (some 1)
  else do
    let mgr := { mgr with info := ⟨true, 10⟩ }
    let enabled ← toolMain env.uioEnable fun dh => freezeBridgeEnable D dh rounds env.region
    if enabled ≠ some 0 then
      return enabled
    else do
      let loaded ← fpgaMgrFirmwareWriteFile D core firmware (env.name ++ [10]) env.allocated
        env.copied mgr
      -- the shell does not outlive a write that does not come back
      if loaded.1.getD (-1) < 0 then
        return some 1
      else do
        let disabled ← toolMain env.uioDisable fun dh => freezeBridgeDisable D dh rounds env.region
        if disabled ≠ some 0 then
          return disabled
        else if (Debugfs.fpgaPcieStateWriteFile env.last probed.2).1 < 0 then
          return some 1
        else
          return some 0

end

/-! ## What a run shows -/

/-- No write to BAR 4 has the unfreeze bit. -/
def Calm (es : List (Access Addr U32)) : Prop :=
  ∀ a v, .write (.prBar a) v ∈ es → v &&& unfreezeReq = 0

/-- The status register was read with one of the bits `done`. -/
def StatusShown (uio : Option UioHandle) (region done : U32) (es : List (Access Addr U32)) : Prop :=
  ∃ dh ∈ uio, ∃ v, v &&& done ≠ 0 ∧
    .read (.prBar (dh.iomem + (region + freezeStatusOffset))) v ∈ es

theorem calm_nil : Calm [] := fun _ _ h => absurd h List.not_mem_nil

theorem calm_append {es es' : List (Access Addr U32)} (h : Calm es) (h' : Calm es') :
    Calm (es ++ es') := by
  intro a v hmem
  rcases List.mem_append.mp hmem with hmem | hmem
  · exact h a v hmem
  · exact h' a v hmem

theorem Silent.calm {es : List (Access Addr U32)} (h : Silent es) : Calm es :=
  fun a v hmem => absurd hmem (h.no_write (.prBar a) v)

theorem StatusShown.append_left {uio : Option UioHandle} {region done : U32}
    {es es' : List (Access Addr U32)} (h : StatusShown uio region done es') :
    StatusShown uio region done (es ++ es') := by
  obtain ⟨dh, hdh, v, hv, hmem⟩ := h
  exact ⟨dh, hdh, v, hv, List.mem_append_right es hmem⟩

theorem StatusShown.append_right {uio : Option UioHandle} {region done : U32}
    {es es' : List (Access Addr U32)} (h : StatusShown uio region done es) :
    StatusShown uio region done (es ++ es') := by
  obtain ⟨dh, hdh, v, hv, hmem⟩ := h
  exact ⟨dh, hdh, v, hv, List.mem_append_left es' hmem⟩

/-- The region was frozen, the words were then loaded, and no unfreeze was requested before
    the third part. -/
def LoadedFrozen (core : Core) (env : Env) (words : List U32) (es rest : List (Access Addr U32)) :
    Prop :=
  ∃ freeze load, es = freeze ++ (load ++ rest) ∧ Calm (freeze ++ load) ∧
    StatusShown env.uioEnable.handle env.region freezeReqDone freeze ∧ Loaded core.stateOf words load

/-! ## The tool -/

section
variable {σ : Type} (D : Device Addr U32 σ)

/-- A value other than `*pdata` before was read from the register. -/
theorem emits_uioReadU32 (dh : UioHandle) (offset pdata : U32) :
    Emits (uioReadU32 D dh offset pdata) fun v es =>
      Silent es ∧ (v ≠ pdata → .read (.prBar (dh.iomem + offset)) v ∈ es) := by
  refine Spec.ite (fun _ => Spec.pure fun _ _ => ⟨silent_nil, fun h => absurd rfl h⟩) fun _ => ?_
  refine (emits_readl D _).mono fun v es hes => ?_
  rw [hes]
  exact ⟨silent_read _ _, fun _ => List.mem_singleton_self _⟩

theorem emits_uioWriteU32 (dh : UioHandle) (offset data : U32) (hdata : data &&& unfreezeReq = 0) :
    Emits (uioWriteU32 D dh offset data) fun _ es => Calm es := by
  refine Spec.ite (fun _ => Spec.pure fun _ _ => calm_nil) fun _ => ?_
  refine (emits_writel D data _).mono fun _ es hes => ?_
  intro a v hmem
  rw [hes, List.mem_singleton] at hmem
  obtain ⟨-, rfl⟩ := Access.write.inj hmem
  exact hdata

theorem emits_reqAck (dh : UioHandle) (region reqAck : U32) (rounds : Nat) :
    Emits (Tool.freezeBridgeReqAck D dh region reqAck rounds) fun acked es =>
      Silent es ∧ (acked = true → StatusShown (some dh) region reqAck es) := by
  induction rounds with
  | zero => exact Spec.pure fun _ _ => ⟨silent_nil, fun h => absurd h (by decide)⟩
  | succ rounds ih =>
    refine (emits_uioReadU32 D dh _ 0).bind fun v es h => ?_
    obtain ⟨hsilent, hread⟩ := h
    refine Spec.ite (fun hack => Spec.pure fun _ _ => ?_) fun _ => ih.mono fun acked es' h' => ?_
    · have hne : v ≠ 0 := fun hzero => hack (by rw [hzero]; exact BitVec.zero_and)
      have hshown : StatusShown (some dh) region reqAck es := ⟨dh, rfl, v, hack, hread hne⟩
      exact ⟨hsilent.append silent_nil, fun _ => hshown.append_right⟩
    · exact ⟨hsilent.append h'.1, fun hacked => (h'.2 hacked).append_left⟩

theorem emits_readVersion (dh : UioHandle) (region : U32) :
    Emits (Tool.freezeBridgeReadVersion D dh region) fun _ es => Silent es := by
  refine (emits_uioReadU32 D dh _ 0).bind fun v es h => ?_
  have hsilent := h.1.append silent_nil
  exact Spec.ite (fun _ => Spec.pure fun _ _ => hsilent) fun _ => Spec.pure fun _ _ => hsilent

/-- The enable requests no unfreeze, and it succeeds only where the region is shown frozen. -/
theorem emits_freezeBridgeEnable (dh : UioHandle) (rounds : Nat) (region : U32) :
    Emits (freezeBridgeEnable D dh rounds region) fun ret es =>
      Calm es ∧ (exitStatus ret = some 0 → StatusShown (some dh) region freezeReqDone es) := by
  refine (emits_readVersion D dh region).bind fun supported es₀ h₀ => ?_
  have hno : ∀ es : List (Access Addr U32), Silent es →
      Calm es ∧ (exitStatus (some (-EINVAL)) = some 0 →
        StatusShown (some dh) region freezeReqDone es) :=
    fun es h => ⟨Silent.calm h, fun hret => absurd hret (by decide)⟩
  refine Spec.ite (fun _ => Spec.pure fun _ _ => hno _ (h₀.append silent_nil)) fun _ => ?_
  refine (emits_uioReadU32 D dh _ 0).bind fun status es₁ h₁ => ?_
  obtain ⟨hsilent, hread⟩ := h₁
  refine Spec.ite (fun hfrozen => Spec.pure fun _ _ => ?_) fun _ =>
    Spec.ite (fun _ => Spec.pure fun _ _ => ?_) fun _ => ?_
  · have hne : status ≠ 0 := fun hzero => hfrozen (by rw [hzero]; exact BitVec.zero_and)
    have hshown : StatusShown (some dh) region freezeReqDone es₁ :=
      ⟨dh, rfl, status, hfrozen, hread hne⟩
    exact ⟨calm_append (Silent.calm h₀) (calm_append (Silent.calm hsilent) calm_nil),
      fun _ => hshown.append_right.append_left⟩
  · exact hno _ (h₀.append (hsilent.append silent_nil))
  refine (emits_uioWriteU32 D dh _ _ (by decide)).bind fun _ es₂ h₂ => ?_
  refine (emits_reqAck D dh region freezeReqDone rounds).bind fun acked es₃ h₃ => ?_
  have hcalm : ∀ es, Calm es → Calm (es₀ ++ (es₁ ++ (es₂ ++ (es₃ ++ es)))) := fun es h =>
    calm_append (Silent.calm h₀) (calm_append (Silent.calm hsilent)
      (calm_append h₂ (calm_append (Silent.calm h₃.1) h)))
  refine Spec.ite (fun _ => Spec.pure fun _ _ => ?_) fun hacked => ?_
  · exact ⟨hcalm [] calm_nil, fun hret => absurd hret (by decide)⟩
  refine (emits_uioWriteU32 D dh _ _ (by decide)).bind fun _ es₄ h₄ => Spec.pure fun _ _ => ?_
  have hshown := h₃.2 (by simpa using hacked)
  exact ⟨hcalm _ (calm_append h₄ calm_nil),
    fun _ => hshown.append_right.append_left.append_left.append_left⟩

/-- The disable succeeds only where the region is shown unfrozen. -/
theorem emits_freezeBridgeDisable (dh : UioHandle) (rounds : Nat) (region : U32) :
    Emits (freezeBridgeDisable D dh rounds region) fun ret es =>
      exitStatus ret = some 0 → StatusShown (some dh) region unfreezeReqDone es := by
  refine (emits_readVersion D dh region).bind fun supported es₀ _ => ?_
  refine Spec.ite (fun _ => Spec.pure fun _ _ hret => absurd hret (by decide)) fun _ => ?_
  refine (emits_uioReadU32 D dh _ 0).bind fun status es₁ h₁ => ?_
  refine Spec.ite (fun hunfrozen => Spec.pure fun _ _ _ => ?_) fun _ =>
    Spec.ite (fun _ => Spec.pure fun _ _ hret => absurd hret (by decide)) fun _ => ?_
  · have hne : status ≠ 0 := fun hzero => hunfrozen (by rw [hzero]; exact BitVec.zero_and)
    have hshown : StatusShown (some dh) region unfreezeReqDone es₁ :=
      ⟨dh, rfl, status, hunfrozen, h₁.2 hne⟩
    exact hshown.append_right.append_left
  refine (emits_uioReadU32 D dh _ _).bind fun ctrl es₂ _ => ?_
  have hany : ∀ offset data, Emits (uioWriteU32 D dh offset data) fun _ _ => True :=
    fun offset data => Spec.ite (fun _ => Spec.pure fun _ _ => trivial) fun _ =>
      (emits_writel D data _).mono fun _ _ _ => trivial
  refine (hany _ _).bind fun _ es₃ _ => (hany _ _).bind fun _ es₄ _ => ?_
  refine (emits_reqAck D dh region unfreezeReqDone rounds).bind fun acked es₅ h₅ => ?_
  refine Spec.ite (fun _ => Spec.pure fun _ _ hret => absurd hret (by decide)) fun hacked => ?_
  refine (hany _ _).bind fun _ es₆ _ => Spec.pure fun _ _ _ => ?_
  have hshown := h₅.2 (by simpa using hacked)
  exact hshown.append_right.append_left.append_left.append_left.append_left.append_left

theorem emits_toolMain {uio : Uio} {mode : UioHandle → Act (Regs σ) (Option Int)}
    {P Q : List (Access Addr U32) → Prop} (hnil : P [])
    (hmode : ∀ dh ∈ uio.handle, Emits (mode dh) fun ret es =>
      P es ∧ (exitStatus ret = some 0 → Q es)) :
    Emits (toolMain uio mode) fun status es => P es ∧ (status = some 0 → Q es) := by
  cases uio with
  | notFound => exact Spec.pure fun _ _ => ⟨hnil, fun h => absurd h (by decide)⟩
  | notOpened => exact Spec.pure fun _ _ => ⟨hnil, fun h => absurd h (by decide)⟩
  | opened dh =>
    refine (hmode dh rfl).bind fun ret es h => Spec.pure fun _ _ => ?_
    have hsame : es ++ [] = es := List.append_nil es
    exact ⟨hsame.symm ▸ h.1, hsame.symm ▸ h.2⟩

theorem emits_toolEnable (uio : Uio) (rounds : Nat) (region : U32) :
    Emits (toolMain uio fun dh => freezeBridgeEnable D dh rounds region) fun status es =>
      Calm es ∧ (status = some 0 → StatusShown uio.handle region freezeReqDone es) := by
  refine emits_toolMain calm_nil fun dh hdh => ?_
  rw [Option.mem_def.mp hdh]
  exact emits_freezeBridgeEnable D dh rounds region

theorem emits_toolDisable (uio : Uio) (rounds : Nat) (region : U32) :
    Emits (toolMain uio fun dh => freezeBridgeDisable D dh rounds region) fun status es =>
      status = some 0 → StatusShown uio.handle region unfreezeReqDone es := by
  have htool : Emits (toolMain uio fun dh => freezeBridgeDisable D dh rounds region)
      fun status es =>
        True ∧ (status = some 0 → StatusShown uio.handle region unfreezeReqDone es) := by
    refine emits_toolMain (P := fun _ => True) trivial fun dh hdh => ?_
    rw [Option.mem_def.mp hdh]
    exact (emits_freezeBridgeDisable D dh rounds region).mono fun _ _ h => ⟨trivial, h⟩
  exact htool.mono fun _ _ h => h.2

end

/-! ## The load stays within the PR IP -/

section
variable {σ : Type} (D : Device Addr U32 σ) (core : Core) (firmware : Firmware)

theorem within_readPReg : Within D Addr.IsPrIp (S10.readPReg D) :=
  .bind (.get ⟨_, rfl⟩) fun _ => .bind (.get ⟨_, rfl⟩) fun _ => .bind (.get ⟨_, rfl⟩) fun _ =>
    .bind (.get ⟨_, rfl⟩) fun _ => .bind (.get ⟨_, rfl⟩) fun _ => .bind (.get ⟨_, rfl⟩) fun _ =>
      .pure _

theorem within_altPrFpgaWrite (bytes : List Byte) :
    Within D Addr.IsPrIp (core.altPrFpgaWrite D (memOf bytes) bytes.length) := by
  by_cases h0 : 0 < bytes.length
  · rw [core.altPrFpgaWrite_eq D (fun _ _ => rfl) h0]
    have hpost : ∀ ret, Within D Addr.IsPrIp (core.postWrite D ret) := by
      intro ret
      cases core with
      | a10 => exact .pure _
      | s10 verbose => exact .ite (within_readPReg D) (.pure _)
    exact .bind (core.within_stream D _ (within_closeWrite D _ _)) fun ret =>
      .bind (hpost ret) fun _ => .pure _
  · have hempty : bytes.length ≤ 0 := Nat.le_of_not_lt h0
    have hdenied : core.altPrFpgaWrite D (memOf bytes) bytes.length = pure (-EINVAL) := by
      cases core with
      | a10 => exact if_pos hempty
      | s10 verbose => exact if_pos hempty
    rw [hdenied]
    exact .pure _

theorem within_fpgaMgrBufLoad (info : FpgaImageInfo) (bytes : List Byte) :
    Within D Addr.IsPrIp (fpgaMgrBufLoad D core info (memOf bytes) bytes.length) := by
  refine within_bufLoad D ?_ (within_altPrFpgaWrite D core bytes) ?_
  · cases core with
    | a10 => exact .ite (.pure _) (Core.within_altPrIpWriteInit D .a10 _ _)
    | s10 verbose => exact .ite (.pure _) (Core.within_altPrIpWriteInit D (.s10 verbose) _ _)
  · cases core with
    | a10 => exact within_pollComplete D _ _
    | s10 verbose => exact within_pollComplete D _ _

theorem calm_of_isPrIp {es : List (Access Addr U32)} (h : ∀ e ∈ es, e.addr.IsPrIp) : Calm es := by
  intro a v hmem
  obtain ⟨ofs, hofs⟩ := h _ hmem
  cases hofs

theorem within_fpgaMgrFirmwareLoad (info : FpgaImageInfo) (imageName : List Byte) :
    Within D Addr.IsPrIp (fpgaMgrFirmwareLoad D core firmware info imageName) :=
  .ite (.pure _) (within_fpgaMgrBufLoad D core info _)

/-- A write of the name that comes back and does not fail has loaded the image that was
    found. -/
theorem emits_firmwareWrite (hfirmware : ∀ name, (firmware name).1 ≤ 0) (bytes : List Byte)
    (allocated copied : Bool) (mgr : Mgr) :
    Emits (fpgaMgrFirmwareWriteFile D core firmware bytes allocated copied mgr) fun r es =>
      Calm es ∧ (∀ ret ∈ r.1, 0 ≤ ret →
        Loaded core.stateOf (fileWords (firmware (nameOf bytes)).2) es) := by
  have hnot : ∀ err : Int, err < 0 → ∀ ret ∈ some err, 0 ≤ ret →
      Loaded core.stateOf (fileWords (firmware (nameOf bytes)).2) [] := by
    rintro err hneg ret ⟨rfl⟩ hret
    exact absurd hret (Int.not_le.mpr hneg)
  refine Spec.ite (fun _ => Spec.pure fun _ _ => ⟨calm_nil, fun _ hret => absurd hret nofun⟩)
    fun _ => ?_
  refine Spec.ite (fun _ => Spec.pure fun _ _ => ⟨calm_nil, hnot (-Debugfs.ENOMEM) (by decide)⟩)
    fun _ => Spec.ite (fun _ => Spec.pure fun _ _ => ⟨calm_nil, hnot (-EFAULT) (by decide)⟩)
    fun _ => ?_
  have hload := (emits_fpgaMgrFirmwareLoad D core firmware mgr.info (nameOf bytes)).and
    (within_fpgaMgrFirmwareLoad D core firmware mgr.info (nameOf bytes)).emits
  have hinfo : ({ kfree mgr.firmwareName
        { mgr with
          allocations := mgr.allocations + 1
          overrun := mgr.overrun ++ [mgr.allocations] } with
      firmwareName := some (mgr.allocations, bufOf bytes) } : Mgr).info = mgr.info := by
    cases hname : mgr.firmwareName with
    | none => rfl
    | some name => rfl
  rw [← hinfo] at hload
  refine hload.bind fun r es h => ?_
  obtain ⟨hout, hwithin⟩ := h
  have hcalm : Calm (es ++ []) := calm_append (calm_of_isPrIp hwithin) calm_nil
  refine Spec.ite (fun herr => Spec.pure fun _ _ => ⟨hcalm, ?_⟩)
    fun hok => Spec.pure fun _ _ => ⟨hcalm, fun _ _ _ => ?_⟩
  · -- what the load returns is below zero
    rintro ret ⟨rfl⟩ hret
    have hle := hfirmware (nameOf bytes)
    rcases hout with ⟨rfl, -⟩ | ⟨hneg | ⟨hr, -⟩, -⟩
    · exact absurd rfl herr
    · exact absurd hret (Int.not_le.mpr hneg)
    · exact absurd (Int.le_antisymm (hr ▸ hle) hret) herr
  · rw [List.append_nil]
    rcases hout with ⟨-, -, hloaded⟩ | ⟨hneg | ⟨-, hne⟩, -⟩
    · exact hloaded
    · exact absurd (not_not.mp hok) (Int.ne_of_lt hneg)
    · exact absurd (not_not.mp hok) hne

end

/-! ## The script -/

section
variable {σ : Type} (D : Device Addr U32 σ) (core : Core) (firmware : Firmware)

/-- The script asks for the unfreeze only behind a load that ended well in a region that was
    shown frozen; and where it exits with 0, the region was shown unfrozen after that load. -/
theorem emits_programFpgaPcie (hfirmware : ∀ name, (firmware name).1 ≤ 0) (env : Env)
    (rounds : Nat) (priv : Debugfs.Priv) (mgr : Mgr) :
    Emits (programFpgaPcie D core firmware env rounds priv mgr) fun exit es =>
      (Calm es ∨ ∃ rest, LoadedFrozen core env
        (fileWords (firmware (nameOf (env.name ++ [10]))).2) es rest) ∧
      (exit = some 0 → ∃ rest, LoadedFrozen core env
        (fileWords (firmware (nameOf (env.name ++ [10]))).2) es rest ∧
          StatusShown env.uioDisable.handle env.region unfreezeReqDone rest) := by
  have hearly : ∀ {exit : Option Nat} {es : List (Access Addr U32)}, exit ≠ some 0 → Calm es →
      (Calm es ∨ ∃ rest, LoadedFrozen core env
        (fileWords (firmware (nameOf (env.name ++ [10]))).2) es rest) ∧
      (exit = some 0 → ∃ rest, LoadedFrozen core env
        (fileWords (firmware (nameOf (env.name ++ [10]))).2) es rest ∧
          StatusShown env.uioDisable.handle env.region unfreezeReqDone rest) :=
    fun hne hcalm => ⟨.inl hcalm, fun hzero => absurd hzero hne⟩
  refine Spec.ite (fun _ => Spec.pure fun _ _ => hearly (by decide) calm_nil) fun _ => ?_
  refine Spec.ite (fun _ => Spec.pure fun _ _ => hearly (by decide) calm_nil) fun _ => ?_
  refine Spec.ite (fun _ => Spec.pure fun _ _ => hearly (by decide) calm_nil) fun _ => ?_
  refine Spec.ite (fun _ => Spec.pure fun _ _ => hearly (by decide) calm_nil) fun _ => ?_
  refine Spec.ite (fun _ => Spec.pure fun _ _ => hearly (by decide) calm_nil) fun _ => ?_
  refine (emits_toolEnable D env.uioEnable rounds env.region).bind fun enabled freeze h₁ => ?_
  obtain ⟨hcalm₁, hfrozen⟩ := h₁
  refine Spec.ite (fun hne => Spec.pure fun _ _ => hearly hne (calm_append hcalm₁ calm_nil))
    fun henabled => ?_
  refine (emits_firmwareWrite D core firmware hfirmware _ _ _ _).bind fun loaded load h₂ => ?_
  obtain ⟨hcalm₂, hloaded⟩ := h₂
  have hcomes : ¬ loaded.1.getD (-1) < 0 →
      Loaded core.stateOf (fileWords (firmware (nameOf (env.name ++ [10]))).2) load := by
    intro hret
    cases hback : loaded.1 with
    | none =>
      rw [hback] at hret
      exact absurd (by decide) hret
    | some ret =>
      rw [hback] at hret
      exact hloaded ret hback (Int.not_lt.mp hret)
  refine Spec.ite (fun _ => Spec.pure fun _ _ => hearly (by decide)
    (calm_append hcalm₁ (calm_append hcalm₂ calm_nil))) fun hret => ?_
  refine (emits_toolDisable D env.uioDisable rounds env.region).bind fun disabled rest h₃ => ?_
  have hbehind : LoadedFrozen core env (fileWords (firmware (nameOf (env.name ++ [10]))).2)
      (freeze ++ (load ++ (rest ++ []))) rest :=
    ⟨freeze, load, by rw [List.append_nil], calm_append hcalm₁ hcalm₂,
      hfrozen (not_not.mp henabled), hcomes hret⟩
  refine Spec.ite (fun hne => Spec.pure fun _ _ =>
    ⟨.inr ⟨rest, hbehind⟩, fun hzero => absurd hzero hne⟩) fun hdisabled => ?_
  have hunfrozen := h₃ (not_not.mp hdisabled)
  refine Spec.ite (fun _ => Spec.pure fun _ _ =>
    ⟨.inr ⟨rest, hbehind⟩, fun hzero => absurd hzero (by decide)⟩) fun _ => ?_
  exact Spec.pure fun _ _ => ⟨.inr ⟨rest, hbehind⟩, fun _ => ⟨rest, hbehind, hunfrozen⟩⟩

end

/-- A card without subdevices, a window over all of BAR 4, and an image named `a`. -/
def exampleEnv : Env where
  first := ⟨.state, [0x33#8, 10#8], true, true, 0#8, ⟨0, []⟩, fun _ => ⟨true, 0, 0, 0⟩⟩
  managerFound := true
  copiedToFirmware := true
  flagsWritten := true
  configToWritten := true
  uioEnable := .opened ⟨0, 0x100000⟩
  uioDisable := .opened ⟨0, 0x100000⟩
  region := 0
  name := [0x61#8]
  allocated := true
  copied := true
  last := ⟨.state, [0x33#8, 10#8], true, true, 0#8, ⟨0, []⟩, fun _ => ⟨true, 0, 0, 0⟩⟩

/-- One image is found. -/
def exampleFirmware : Firmware := fun name =>
  if name = [0x61#8] then (0, [1, 2, 3, 4, 5]) else (-2, [])

/-- On `simRegion` the script runs to its end. -/
theorem programFpgaPcie_example :
    ∃ es rest, LoadedFrozen .a10 exampleEnv [0x04030201#32, 0x00000005#32] es rest ∧
      StatusShown exampleEnv.uioDisable.handle 0 unfreezeReqDone rest := by
  have hfirmware : ∀ name, (exampleFirmware name).1 ≤ 0 := by
    intro name
    unfold exampleFirmware
    split <;> decide
  have hrun := (emits_programFpgaPcie simRegion .a10 exampleFirmware hfirmware exampleEnv 1
    (Debugfs.fpgaPcieProbe none fun _ => true) (register .unknown)).at
      (m := ⟨false, []⟩) trivial
  obtain ⟨rest, hrest⟩ := hrun.2 (by with_unfolding_all rfl)
  exact ⟨_, rest, hrest⟩

end FpgaPartialReconfig.Driver.Manager
