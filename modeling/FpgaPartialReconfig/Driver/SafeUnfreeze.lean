/-
  When a run of fpga-configure may unfreeze the region.

  `partial_reconfig` freezes the region, has the driver load the file, and unfreezes the
  region if no call failed. The driver drops the loader's return value, so
  `FPGA_INITIATE_PR` succeeds whenever the file can be opened, and the region is unfrozen
  after a failed load as after a good one.

  `SafeUnfreeze` is what a run should satisfy: it unfreezes the region only with the file
  loaded. On register streams, `partialReconfig_safeUnfreeze_iff` says exactly when every
  moment of the run does: when it never gets to the unfreeze request, or when the readings
  are those of a good load (`LoadShown`).
-/
import FpgaPartialReconfig.Driver.Ioctl
import FpgaPartialReconfig.Driver.Readings

namespace FpgaPartialReconfig.Driver

open Bus

/-! ## Freezing, on register streams -/

section
variable (s : Addr → Nat → U32)

/-- The region controller lets the freeze request through: its version is supported, and the
    region is frozen already or gets frozen within the rounds. -/
def Freezes (offset : U32) (rounds : Nat) : Prop :=
  s (versionAddr offset) 0 = freezeBridgeSupportedVersion ∧
    (s (statusAddr offset) 0 &&& freezeReqDone ≠ 0 ∨
      s (statusAddr offset) 0 &&& unfreezeReqDone ≠ 0 ∧
        ∃ i < rounds, s (statusAddr offset) (1 + i) &&& freezeReqDone ≠ 0)

theorem streams_freezeBridgeReqAck (offset reqAck : U32) (rounds k : Nat) :
    Spec (fun n => n (statusAddr offset) = k)
      (freezeBridgeReqAck (Device.streams s) offset reqAck rounds) fun acked es _ =>
        (acked = true ↔ ∃ i < rounds, s (statusAddr offset) (k + i) &&& reqAck ≠ 0) ∧
          Silent es := by
  induction rounds generalizing k with
  | zero =>
    exact Spec.pure fun _ _ => ⟨⟨fun h => absurd h (by decide),
      fun ⟨i, hi, _⟩ => absurd hi (Nat.not_lt_zero i)⟩, silent_nil⟩
  | succ rounds ih =>
    refine (streams_readl s (statusAddr offset) k fun _ h => h).seq fun status es h => ?_
    obtain ⟨rfl, rfl⟩ := h
    refine Spec.ite (fun hack => Spec.pure fun _ _ => ?_) fun hack => ?_
    · exact ⟨⟨fun _ => ⟨0, by omega, hack⟩, fun _ => rfl⟩, silent_read _ _⟩
    · refine (ih (k + 1)).mono ?_ fun acked es _ h => ⟨h.1.trans ?_, (silent_read _ _).append h.2⟩
      · intro v hv
        obtain ⟨n, -, rfl⟩ := hv
        exact Function.update_self ..
      · constructor
        · intro hparts
          obtain ⟨i, hi, h⟩ := hparts
          exact ⟨i + 1, by omega, by rwa [Nat.add_comm i, ← Nat.add_assoc]⟩
        · intro hparts
          obtain ⟨i, hi, h⟩ := hparts
          cases i with
          | zero => exact absurd h hack
          | succ i => exact ⟨i, by omega, by rwa [Nat.add_comm i, ← Nat.add_assoc] at h⟩

theorem streams_freezeBridgeReadVersion (offset : U32) :
    Spec (fun n => ∀ a, n a = 0)
      (freezeBridgeReadVersion (Device.streams s) offset) fun supported es n =>
        ((supported = true ↔ s (versionAddr offset) 0 = freezeBridgeSupportedVersion) ∧
          Silent es) ∧ n (statusAddr offset) = 0 := by
  have hstatus : ∀ n', (∃ n : Addr → Nat, (∀ a, n a = 0) ∧
      n' = Function.update n (versionAddr offset) (0 + 1)) → n' (statusAddr offset) = 0 := by
    intro v hv
    obtain ⟨n, hn, rfl⟩ := hv
    rw [Function.update_of_ne (statusAddr_ne_versionAddr offset)]
    exact hn _
  refine (streams_readl s (versionAddr offset) 0 fun _ h => h _).seq fun v es h => ?_
  obtain ⟨rfl, rfl⟩ := h
  refine Spec.ite (fun hne => Spec.pure fun n hn => ?_) fun heq => Spec.pure fun n hn => ?_
  · exact ⟨⟨⟨fun h => absurd h (by decide), fun h => absurd h hne⟩, silent_read _ _⟩,
      hstatus n hn⟩
  · exact ⟨⟨⟨fun _ => not_not.mp heq, fun _ => rfl⟩, silent_read _ _⟩, hstatus n hn⟩

/-- Freezing succeeds exactly when the controller lets it, and never requests an unfreeze. -/
theorem streams_freezeEnable (rounds : Nat) (offset : U32) :
    Spec (fun n => ∀ a, n a = 0)
      (fpgaPrRegionControllerFreezeEnable (Device.streams s) rounds offset) fun ret es _ =>
        (ret = some 0 ∧ Freezes s offset rounds ∨
          (ret = none ∨ ret = some (-EINVAL)) ∧ ¬ Freezes s offset rounds) ∧
        ∀ v ∈ writesTo (ctrlAddr offset) es, v &&& unfreezeReq = 0 := by
  refine (streams_freezeBridgeReadVersion s offset).seq fun supported es₀ h₀ => ?_
  obtain ⟨hsupported, hsilent₀⟩ := h₀
  refine Spec.ite (fun hno => Spec.pure fun _ _ => ⟨.inr ⟨.inr rfl, fun h => ?_⟩, ?_⟩) fun hyes => ?_
  · rw [hsupported.mpr h.1] at hno
    exact absurd hno (by decide)
  · rw [List.append_nil, hsilent₀]
    simp
  have hver := hsupported.mp (by simpa using hyes)
  refine (streams_readl s (statusAddr offset) 0 fun _ h => h).seq fun status es₁ h₁ => ?_
  obtain ⟨rfl, rfl⟩ := h₁
  have hsilent₁ := hsilent₀.append (silent_read (statusAddr offset) (s (statusAddr offset) 0))
  refine Spec.ite (fun hfrozen => Spec.pure fun _ _ => ⟨.inl ⟨rfl, hver, .inl hfrozen⟩, ?_⟩)
    fun hfrozen => ?_
  · rw [List.append_nil, hsilent₁]
    simp
  refine Spec.ite (fun hun => Spec.pure fun _ _ => ⟨.inr ⟨.inr rfl, fun h => ?_⟩, ?_⟩) fun hun => ?_
  · exact h.2.elim hfrozen fun h => h.1 hun
  · rw [List.append_nil, hsilent₁]
    simp
  refine (streams_writel s (fun n => n (statusAddr offset) = 1) freezeReq (ctrlAddr offset)).mono
    ?_ (fun _ _ _ h => h) |>.seq fun _ es₂ h₂ => ?_
  · intro v hv
    obtain ⟨n, -, rfl⟩ := hv
    exact Function.update_self ..
  subst h₂
  refine (streams_freezeBridgeReqAck s offset freezeReqDone rounds 1).andThen
    fun acked es₃ h₃ => ?_
  obtain ⟨hacked, hsilent₃⟩ := h₃
  have hwrites : ∀ more : List (Access Addr U32),
      writesTo (ctrlAddr offset) (es₀ ++ ([.read (statusAddr offset) (s (statusAddr offset) 0)] ++
        ([.write (ctrlAddr offset) freezeReq] ++ (es₃ ++ more)))) =
      freezeReq :: writesTo (ctrlAddr offset) more := by
    intro more
    simp only [writesTo_append, hsilent₀ (ctrlAddr offset), hsilent₃ (ctrlAddr offset),
      List.nil_append, writesTo, if_true, List.singleton_append]
  refine Spec.ite (fun hno => Spec.pure fun _ _ => ⟨.inr ⟨.inl rfl, fun h => ?_⟩, ?_⟩) fun hyes => ?_
  · rcases h.2 with h | h
    · exact hfrozen h
    · rw [hacked.mpr h.2] at hno
      exact absurd hno (by decide)
  · rw [hwrites]
    simp [writesTo, freezeReq, unfreezeReq]
  refine (streams_writel s (fun _ => True) resetReq (ctrlAddr offset)).seq fun _ es₄ h₄ => ?_
  subst h₄
  refine Spec.pure fun _ _ => ⟨.inl ⟨rfl, hver, .inr ⟨hun, hacked.mp (by simpa using hyes)⟩⟩, ?_⟩
  rw [hwrites]
  simp [writesTo, freezeReq, resetReq, unfreezeReq]

end

/-! ## Accesses elsewhere do not matter -/

theorem Addr.IsPrBar.ne_prIp {a : Addr} (h : a.IsPrBar) (ofs : Nat) : a ≠ .prIp ofs := by
  obtain ⟨o, rfl⟩ := h
  nofun

theorem writesTo_onPrBar {es : List (Access Addr U32)} (h : ∀ e ∈ es, e.addr.IsPrBar) :
    writesTo altPrData es = [] :=
  writesTo_of_addr fun e he => (h e he).ne_prIp _

theorem loaded_append_left {stateOf : U32 → FpgaState} {words : List U32}
    {es es' : List (Access Addr U32)} (h : ∀ e ∈ es, e.addr.IsPrBar) :
    Loaded stateOf words (es ++ es') ↔ Loaded stateOf words es' := by
  have hdata : writesTo altPrData (es ++ es') = writesTo altPrData es' := by
    rw [writesTo_append, writesTo_onPrBar h, List.nil_append]
  refine and_congr (by rw [hdata]) ⟨?_, ?_⟩
  · intro hparts
    obtain ⟨before, v, after, heq, hrest⟩ := hparts
    rcases List.append_eq_append_iff.mp heq with ⟨mid, -, hm⟩ | ⟨mid, hm, hm'⟩
    · exact ⟨mid, v, after, hm, hrest⟩
    · cases mid with
      | nil => exact ⟨[], v, after, hm'.symm, hrest⟩
      | cons e mid =>
        simp only [List.cons_append, List.cons.injEq] at hm'
        rw [← hm'.1] at hm
        exact absurd rfl ((h (.read altPrCsr v) (by simp [hm])).ne_prIp 4)
  · intro hparts
    obtain ⟨before, v, after, rfl, hrest⟩ := hparts
    exact ⟨es ++ before, v, after, by rw [List.append_assoc], hrest⟩

theorem loaded_append_right {stateOf : U32 → FpgaState} {words : List U32}
    {es es' : List (Access Addr U32)} (h : ∀ e ∈ es', e.addr.IsPrBar) :
    Loaded stateOf words (es ++ es') ↔ Loaded stateOf words es := by
  have hdata : writesTo altPrData (es ++ es') = writesTo altPrData es := by
    rw [writesTo_append, writesTo_onPrBar h, List.append_nil]
  refine and_congr (by rw [hdata]) ⟨?_, ?_⟩
  · intro hparts
    obtain ⟨before, v, after, heq, hop, hafter⟩ := hparts
    rcases List.append_eq_append_iff.mp heq with ⟨mid, -, hm⟩ | ⟨mid, hm, hm'⟩
    · exact absurd rfl ((h (.read altPrCsr v) (by simp [hm])).ne_prIp 4)
    · cases mid with
      | nil =>
        have hfirst : es' = .read altPrCsr v :: after := hm'.symm
        exact absurd rfl ((h (.read altPrCsr v) (by simp [hfirst])).ne_prIp 4)
      | cons e mid =>
        simp only [List.cons_append, List.cons.injEq] at hm'
        rw [← hm'.1] at hm
        rw [hm'.2, writesTo_append] at hafter
        exact ⟨before, v, mid, hm, hop, (List.append_eq_nil_iff.mp hafter).1⟩
  · intro hparts
    obtain ⟨before, v, after, rfl, hop, hafter⟩ := hparts
    refine ⟨before, v, after ++ es', by rw [List.append_assoc, List.cons_append], hop, ?_⟩
    rw [writesTo_append, hafter, writesTo_onPrBar h, List.append_nil]

/-! ## The run -/

/-- What a run of fpga-configure should satisfy: the unfreeze request is issued, and reaches
    the region controller, only with the whole file loaded. -/
def SafeUnfreeze (core : Core) (fp : RbfFile) (offset : U32) (issued : List Request)
    (log : List (Access Addr U32)) : Prop :=
  ((∃ arg, .freezeDisable arg ∈ issued) ∨
      ∃ v ∈ writesTo (ctrlAddr offset) log, v &&& unfreezeReq ≠ 0) →
    Loaded core.stateOf (fileWords fp.bytes) log

/-- A driver that has not accessed the hardware yet. -/
def Priv.fresh {σ : Type} (priv : Priv σ) (dev : σ) : Priv σ := { priv with regs := ⟨dev, []⟩ }

section
variable (s : Addr → Nat → U32) (core : Core) (stack : Mem)

/-- The run gets to the unfreeze request. -/
def Unfreezes (args : RunArgs) (rounds : Nat) : Prop :=
  (args.enableCopied = true ∧ args.prCopied = true ∧ args.opened = true) ∧
    Freezes s args.regionControllerAddr rounds

/-- The first call of a run: it succeeds exactly when the controller lets it, requests no
    unfreeze, touches BAR 4 only and leaves the PR IP streams at their beginning. -/
theorem freezeEnable_streams (args : RunArgs) (rounds : Nat) (priv : Priv (Addr → Nat)) :
    let r := myIoctl (Device.streams s) core stack rounds args.freezeEnable
      (priv.fresh fun _ => 0)
    (r.1 = answer 0 ∧ args.enableCopied = true ∧ Freezes s args.regionControllerAddr rounds ∨
      Fails r.1 ∧ ¬ (args.enableCopied = true ∧ Freezes s args.regionControllerAddr rounds)) ∧
    (Fresh r.2.regs.dev ∧ ∀ e ∈ r.2.regs.log, e.addr.IsPrBar) ∧
    ∀ v ∈ writesTo (ctrlAddr args.regionControllerAddr) r.2.regs.log, v &&& unfreezeReq = 0 := by
  intro r
  obtain ⟨rbf, opened, offset, enableCopied, prCopied, disableCopied⟩ := args
  cases enableCopied with
  | false =>
    refine ⟨.inr ⟨.inr ⟨-EACCES, by decide, rfl⟩, nofun⟩, ⟨?_, ?_⟩, ?_⟩
    · exact ⟨rfl, rfl, rfl⟩
    · exact fun e he => absurd he (List.not_mem_nil)
    · exact fun v hv => absurd hv (List.not_mem_nil)
  | true =>
    have hwithin := within_freezeEnable (Device.streams s) rounds offset
    obtain ⟨hret, hquiet⟩ := (streams_freezeEnable s rounds offset).at (m := ⟨fun _ => 0, []⟩)
      fun _ => rfl
    refine ⟨?_, ⟨?_, ?_⟩, hquiet⟩
    · rcases hret with ⟨h0, hfreezes⟩ | ⟨hfail, hno⟩
      · exact .inl ⟨congrArg (·.bind answer) h0, rfl, hfreezes⟩
      · refine .inr ⟨?_, fun h => hno h.2⟩
        rcases hfail with h | h
        · exact .inl (congrArg (·.bind answer) h)
        · exact .inr ⟨-EINVAL, by decide, congrArg (·.bind answer) h⟩
    · refine hwithin.keeps (I := Fresh) ?_ (fun _ _ _ _ h => h) ⟨fun _ => 0, []⟩ ⟨rfl, rfl, rfl⟩
      rintro _ n ⟨ofs, rfl⟩ ⟨hcsr, hver, hpof⟩
      refine ⟨?_, ?_, ?_⟩ <;> simpa [Device.streams]
    · obtain ⟨es, hes, hall⟩ := hwithin.emits ⟨fun _ => 0, []⟩ trivial
      intro e he
      rw [List.nil_append] at hes
      exact hall e (hes ▸ he)

theorem safeUnfreeze_of_quiet {fp : RbfFile} {offset : U32} {issued : List Request}
    {log : List (Access Addr U32)} (hissued : ∀ arg, .freezeDisable arg ∉ issued)
    (hquiet : ∀ v ∈ writesTo (ctrlAddr offset) log, v &&& unfreezeReq = 0) :
    SafeUnfreeze core fp offset issued log := by
  rintro (⟨arg, harg⟩ | ⟨v, hv, hne⟩)
  · exact absurd harg (hissued arg)
  · exact absurd (hquiet v hv) hne

/-- The last call of a run does not change what is loaded. -/
theorem freezeDisable_loaded {σ : Type} (D : Device Addr U32 σ) (rounds : Nat)
    (arg : Option U32) (priv : Priv σ) (words : List U32) :
    Loaded core.stateOf words
        (myIoctl D core stack rounds (.freezeDisable arg) priv).2.regs.log ↔
      Loaded core.stateOf words priv.regs.log := by
  cases arg with
  | none => exact Iff.rfl
  | some offset =>
    rw [myIoctl_freezeDisable]
    obtain ⟨es, hes, hall⟩ := (within_freezeDisable D rounds offset).emits priv.regs trivial
    rw [show (fpgaPrRegionControllerFreezeDisable D rounds offset priv.regs).2.log = _ from hes,
      loaded_append_right hall]

/-- One run, cut off after `rounds` status polls. -/
theorem partialReconfig_safeUnfreeze (args : RunArgs) (rounds : Nat) (priv : Priv (Addr → Nat)) :
    let h := myIoctl (Device.streams s) core stack rounds
    let p := priv.fresh fun _ => 0
    SafeUnfreeze core args.rbf args.regionControllerAddr ((partialReconfig args).issued h p)
        ((partialReconfig args).run h p).2.regs.log ↔
      (Unfreezes s args rounds → LoadShown core s args.rbf.bytes 10) := by
  intro h p
  unfold partialReconfig
  obtain ⟨henable, ⟨hfresh, hregion⟩, hquiet⟩ := freezeEnable_streams s core stack args rounds priv
  rcases henable with ⟨hok, hcopied, hfreezes⟩ | ⟨hfails, hno⟩
  swap
  · obtain ⟨hrun, hissued⟩ := checked_fails h _ hfails
    rw [hrun, hissued]
    exact iff_of_true (safeUnfreeze_of_quiet core (by simp [RunArgs.freezeEnable]) hquiet)
      fun hun => absurd ⟨hun.1.1, hun.2⟩ hno
  obtain ⟨hrun, hissued⟩ := checked_succeeds h _ hok
  rw [hrun, hissued]
  rcases myIoctl_initiatePr (Device.streams s) core stack rounds args (h args.freezeEnable p).2 with
    ⟨hpr, hopened, hok₂, hregs⟩ | ⟨hno, hfails, hsame⟩
  swap
  · obtain ⟨hrun, hissued⟩ := checked_fails h _ hfails
    rw [hrun, hissued, hsame]
    exact iff_of_true
      (safeUnfreeze_of_quiet core (by simp [RunArgs.freezeEnable, RunArgs.initiatePr]) hquiet)
      fun hun => absurd hun.1.2 hno
  obtain ⟨hrun, hissued⟩ := checked_succeeds h _ hok₂
  obtain ⟨hlast, hissued'⟩ :=
    checked_last h args.freezeDisable (h args.initiatePr (h args.freezeEnable p).2).2 0
  rw [hrun, hissued, hlast, hissued']
  obtain ⟨es, hes, hiff⟩ := loaded_iff s core stack 10 args.rbf
    (h args.freezeEnable p).2.configState (h args.freezeEnable p).2.regs hfresh
  have hloaded : Loaded core.stateOf (fileWords args.rbf.bytes)
      (h args.freezeDisable (h args.initiatePr (h args.freezeEnable p).2).2).2.regs.log ↔
        LoadShown core s args.rbf.bytes 10 := by
    rw [RunArgs.freezeDisable, freezeDisable_loaded, hregs, hes, loaded_append_left hregion]
    exact hiff
  constructor
  · intro hsafe _
    exact hloaded.mp (hsafe (.inl ⟨_,
      List.mem_cons_of_mem _ (List.mem_cons_of_mem _ List.mem_cons_self)⟩))
  · intro hshown _
    exact hloaded.mpr (hshown ⟨⟨hcopied, hpr, hopened⟩, hfreezes⟩)

/-- Every moment of the run is safe exactly when the run never gets to the unfreeze request
    or the readings are those of a good load. -/
theorem partialReconfig_safeUnfreeze_iff (args : RunArgs) (priv : Priv (Addr → Nat)) :
    (∀ rounds, SafeUnfreeze core args.rbf args.regionControllerAddr
        ((partialReconfig args).issued (myIoctl (Device.streams s) core stack rounds)
          (priv.fresh fun _ => 0))
        ((partialReconfig args).run (myIoctl (Device.streams s) core stack rounds)
          (priv.fresh fun _ => 0)).2.regs.log) ↔
      ((¬ ∃ rounds, Unfreezes s args rounds) ∨ LoadShown core s args.rbf.bytes 10) := by
  have hrounds := fun rounds => partialReconfig_safeUnfreeze s core stack args rounds priv
  constructor
  · intro hsafe
    by_cases hreach : ∃ rounds, Unfreezes s args rounds
    · obtain ⟨rounds, hun⟩ := hreach
      exact .inr ((hrounds rounds).mp (hsafe rounds) hun)
    · exact .inl hreach
  · rintro (hno | hshown) rounds
    · exact (hrounds rounds).mpr fun hun => absurd ⟨rounds, hun⟩ hno
    · exact (hrounds rounds).mpr fun _ => hshown

end

/-- A region that is frozen already, and a PR IP whose status is always "PR error". -/
def errorStreams (a : Addr) (_ : Nat) : U32 :=
  if a = versionAddr 0 then freezeBridgeSupportedVersion
  else if a = statusAddr 0 then freezeReqDone
  else if a = altPrCsr then A10.altPrCsrStatusPrErr
  else 0

def zeroRun : RunArgs := ⟨.ofBytes (List.replicate 1024 0), true, 0, true, true, true⟩

/-- The load of 1024 zero bytes fails there, and the region is unfrozen all the same. -/
theorem partialReconfig_unfreezes_after_error :
    ¬ SafeUnfreeze .a10 zeroRun.rbf zeroRun.regionControllerAddr
      ((partialReconfig zeroRun).issued
        (myIoctl (Device.streams errorStreams) .a10 (fun _ => 0) 1)
        (fpgaPcieProbe (fun _ => 0) none))
      ((partialReconfig zeroRun).run (myIoctl (Device.streams errorStreams) .a10 (fun _ => 0) 1)
        (fpgaPcieProbe (fun _ => 0) none)).2.regs.log := by
  intro hsafe
  have hshown := (partialReconfig_safeUnfreeze errorStreams .a10 (fun _ => 0) zeroRun 1
    (fpgaPcieProbe (fun _ => 0) none)).mp hsafe ⟨⟨rfl, rfl, rfl⟩, by decide, .inl (by decide)⟩
  rcases hshown.success with ⟨hlast, -⟩ | ⟨-, -, i, -, hop, -⟩
  · exact absurd hlast.2.2 (by decide)
  · exact absurd (show A10.stateOf A10.altPrCsrStatusPrErr = .operating from hop) (by decide)

end FpgaPartialReconfig.Driver
