/-
  The ioctl interface of the fpga_pcie driver, and fpga-configure.

  A `Request` is a command with what its argument pointer leads to: `none` where
  `copy_from_user` fails, and for `FPGA_INITIATE_PR` the file that `filp_open` finds under
  the name. `myIoctl` is the dispatcher. Its answer is `none` while a call polls a region
  controller that does not acknowledge (`Region`).

  `partialReconfig` is the user program, as the calls it makes: an ioctl that fails returns
  -1 to it, whatever the error.

  Left out: the link retraining after `FPGA_ENABLE_UPSTREAM_AER` and the saved PCI state of
  the device itself, neither of which touches what is modelled.
-/
import FpgaPartialReconfig.Driver.Aer
import FpgaPartialReconfig.Driver.Loader
import FpgaPartialReconfig.Driver.Region
import FpgaPartialReconfig.Lib.Calls

namespace FpgaPartialReconfig.Driver

open Bus

/-- The strings `ST_IDLE` and `ST_AER_DISABLED`, compared as pointers. -/
inductive PrivState where
  | idle | aerDisabled
  deriving DecidableEq, Repr

/-- `struct fpga_pcie_priv` and the hardware behind it. -/
structure Priv (σ : Type) where
  regs : Regs σ
  upstreamDev : Option Upstream
  aerUerrMaskReg : U32
  state : PrivState
  configState : FpgaState

/-- What `fpga_pcie_probe` leaves for the character device. -/
def fpgaPcieProbe {σ : Type} (dev : σ) (upstreamDev : Option Upstream) : Priv σ where
  regs := ⟨dev, []⟩
  upstreamDev := upstreamDev
  aerUerrMaskReg := 0
  state := .idle
  configState := .unknown

/-- `pr_arg_t`: the file found under `rbf_name`, if it can be opened. -/
structure PrArg where
  rbf : Option RbfFile
  configTimeout : Int

/-- `rw_arg_t`. -/
structure RwArg where
  offset : U32
  data : U32
  deriving Repr

inductive Request where
  | debugPrintRom
  | disableUpstreamAer
  | enableUpstreamAer
  | initiatePr (arg : Option PrArg)
  | freezeEnable (arg : Option U32)
  | freezeDisable (arg : Option U32)
  | prRegionRead (arg : Option RwArg) (copiedBack : Bool)
  | prRegionWrite (arg : Option RwArg)
  | unknown

/-- The return value, and the word `FPGA_PR_REGION_READ` copies back. -/
structure Reply where
  ret : Int
  data : Option U32
  deriving DecidableEq, Repr

section
variable {σ : Type} (D : Device Addr U32 σ)

/-- Code on the registers, as code on the driver. -/
def onRegs {α : Type} (x : Act (Regs σ) α) : Act (Priv σ) α :=
  fun priv => ((x priv.regs).1, { priv with regs := (x priv.regs).2 })

def update (f : Priv σ → Priv σ) : Act (Priv σ) Unit := fun priv => ((), f priv)

/-- `n` words of the configuration ROM from `ofs` on; they are only printed. -/
def fpgaPciePrintRom : Nat → Nat → Act (Regs σ) Unit
  | 0, _ => pure ()
  | n + 1, ofs => do
    let _ ← readl D (.configRom ofs)
    fpgaPciePrintRom n (ofs + 4)

def answer (ret : Int) : Option Reply := some ⟨ret, none⟩

/-- `stack` is what uninitialised local buffers hold; `rounds` bounds the polls of the region
    controller. -/
def myIoctl (core : Core) (stack : Mem) (rounds : Nat) : Request → Act (Priv σ) (Option Reply)
  | .debugPrintRom => do
    onRegs (fpgaPciePrintRom D 0x100 0)
    return answer 0
  | .disableUpstreamAer => do
    update fun priv =>
      if priv.state = .aerDisabled then priv
      else
        { priv with
          aerUerrMaskReg := (Driver.disableUpstreamAer priv.upstreamDev).1
          upstreamDev := (Driver.disableUpstreamAer priv.upstreamDev).2
          state := .aerDisabled }
    return answer 0
  | .enableUpstreamAer => do
    update fun priv =>
      if priv.state = .aerDisabled then
        { priv with
          upstreamDev := priv.upstreamDev.map (setAerUerrMaskReg · priv.aerUerrMaskReg)
          state := .idle }
      -- the two states are all there are, so the `-EINVAL` branch is never taken
      else priv
    return answer 0
  | .initiatePr none => pure (answer (-EACCES))
  | .initiatePr (some ⟨none, _⟩) => pure (answer (-1))
  | .initiatePr (some ⟨some fp, configTimeout⟩) => fun priv =>
    let r := fpgaConfigBufLoad D core stack configTimeout fp priv.configState priv.regs
    -- the return value `r.1.1` is dropped, and `result` is still zero
    (answer 0, { priv with regs := r.2, configState := r.1.2 })
  | .freezeEnable none => pure (answer (-EACCES))
  | .freezeEnable (some offset) => do
    let result ← onRegs (fpgaPrRegionControllerFreezeEnable D rounds offset)
    return result.bind answer
  | .freezeDisable none => pure (answer (-EACCES))
  | .freezeDisable (some offset) => do
    let result ← onRegs (fpgaPrRegionControllerFreezeDisable D rounds offset)
    return result.bind answer
  | .prRegionRead none _ => pure (answer (-EACCES))
  | .prRegionRead (some arg) copiedBack => do
    let data ← onRegs (readl D (.prBar arg.offset))
    if copiedBack = false then
      return answer (-EACCES)
    else
      return some ⟨0, some data⟩
  | .prRegionWrite none => pure (answer (-EACCES))
  | .prRegionWrite (some arg) => do
    onRegs (writel D arg.data (.prBar arg.offset))
    let _ ← onRegs (readl D (.prBar arg.offset))
    return answer 0
  | .unknown => pure (answer (-EINVAL))

theorem myIoctl_freezeEnable (core : Core) (stack : Mem) (rounds : Nat) (offset : U32)
    (priv : Priv σ) :
    myIoctl D core stack rounds (.freezeEnable (some offset)) priv =
      ((fpgaPrRegionControllerFreezeEnable D rounds offset priv.regs).1.bind answer,
        { priv with regs := (fpgaPrRegionControllerFreezeEnable D rounds offset priv.regs).2 }) :=
  rfl

theorem myIoctl_freezeDisable (core : Core) (stack : Mem) (rounds : Nat) (offset : U32)
    (priv : Priv σ) :
    myIoctl D core stack rounds (.freezeDisable (some offset)) priv =
      ((fpgaPrRegionControllerFreezeDisable D rounds offset priv.regs).1.bind answer,
        { priv with
          regs := (fpgaPrRegionControllerFreezeDisable D rounds offset priv.regs).2 }) :=
  rfl

end

/-! ## The user program -/

/-- What `ioctl` returns to user space. -/
def ioctlResult (r : Reply) : Int := if r.ret < 0 then -1 else r.ret

/-- What the kernel finds behind the arguments of one run of `partial_reconfig`. -/
structure RunArgs where
  rbf : RbfFile
  opened : Bool
  regionControllerAddr : U32
  enableCopied : Bool
  prCopied : Bool
  disableCopied : Bool

def RunArgs.freezeEnable (args : RunArgs) : Request :=
  .freezeEnable (if args.enableCopied then some args.regionControllerAddr else none)

def RunArgs.initiatePr (args : RunArgs) : Request :=
  .initiatePr
    (if args.prCopied then some ⟨if args.opened then some args.rbf else none, 10⟩ else none)

def RunArgs.freezeDisable (args : RunArgs) : Request :=
  .freezeDisable (if args.disableCopied then some args.regionControllerAddr else none)

def partialReconfig (args : RunArgs) : Prog Request Reply Int :=
  .call args.freezeEnable fun r =>
    if ioctlResult r = -1 then .ret (-1)
    else .call args.initiatePr fun r =>
      if ioctlResult r = -1 then .ret (-1)
      else .call args.freezeDisable fun r =>
        if ioctlResult r = -1 then .ret (-1)
        else .ret 0

/-! ## One checked call of the program -/

/-- The call never returns, or fails. -/
def Fails (r : Option Reply) : Prop := r = none ∨ ∃ e, e < 0 ∧ r = answer e

section
variable {S : Type} (h : Request → Act S (Option Reply)) {q : Request} {s : S}
  (next : Prog Request Reply Int)

theorem checked_fails (hq : Fails (h q s).1) :
    let p := Prog.call q fun r => if ioctlResult r = -1 then .ret (-1) else next
    (p.run h s).2 = (h q s).2 ∧ p.issued h s = [q] := by
  intro p
  rcases hq with hq | ⟨e, he, hq⟩
  · exact ⟨by rw [Prog.run_call_none h _ hq], Prog.issued_call_none h _ hq⟩
  · have hret : ioctlResult ⟨e, none⟩ = -1 := if_pos he
    rw [Prog.run_call_some h _ hq, Prog.issued_call_some h _ hq, if_pos hret]
    exact ⟨rfl, rfl⟩

theorem checked_succeeds (hq : (h q s).1 = answer 0) :
    let p := Prog.call q fun r => if ioctlResult r = -1 then .ret (-1) else next
    p.run h s = next.run h (h q s).2 ∧ p.issued h s = q :: next.issued h (h q s).2 := by
  intro p
  have hret : ¬ ioctlResult ⟨0, none⟩ = -1 := by decide
  rw [Prog.run_call_some h _ hq, Prog.issued_call_some h _ hq, if_neg hret]
  exact ⟨rfl, rfl⟩

theorem checked_onlyCalls {P : Request → Prop} (hq : P q) (hnext : next.OnlyCalls P) :
    (Prog.call q fun r => if ioctlResult r = -1 then .ret (-1) else next).OnlyCalls P := by
  refine ⟨hq, fun r => ?_⟩
  beta_reduce
  split
  · trivial
  · exact hnext

/-- The same call, made by client `i` of a pool. -/
theorem step_checked {ι : Type} [DecidableEq ι] (pool : Pool S ι Request Reply Int) (i : ι)
    (hprog : pool.prog i =
      some (.call q fun r => if ioctlResult r = -1 then .ret (-1) else next))
    (hq : (h q pool.shared).1 = answer 0) :
    (pool.step h i).shared = (h q pool.shared).2 ∧
      (pool.step h i).prog = Function.update pool.prog i (some next) ∧
      (pool.step h i).history = pool.history ++ [⟨i, q, answer 0⟩] := by
  have hret : ¬ ioctlResult ⟨0, none⟩ = -1 := by decide
  rw [Pool.step, hprog]
  refine ⟨rfl, ?_, ?_⟩
  · simp only [hq, answer, Option.map_some, if_neg hret]
  · simp only [hq]

theorem checked_last (q : Request) (s : S) (a : Int) :
    let p : Prog Request Reply Int :=
      .call q fun r => if ioctlResult r = -1 then .ret (-1) else .ret a
    (p.run h s).2 = (h q s).2 ∧ p.issued h s = [q] := by
  refine Prog.call_last h (fun r => ?_) s
  split
  · exact ⟨_, rfl⟩
  · exact ⟨_, rfl⟩

end

section
variable {σ : Type} (D : Device Addr U32 σ) (core : Core) (stack : Mem) (rounds : Nat)

/-- The load is made, and succeeds whatever it returns, exactly when the arguments are there
    and the file opens. -/
theorem myIoctl_initiatePr (args : RunArgs) (priv : Priv σ) :
    (args.prCopied = true ∧ args.opened = true ∧
      (myIoctl D core stack rounds args.initiatePr priv).1 = answer 0 ∧
      (myIoctl D core stack rounds args.initiatePr priv).2.regs =
        (fpgaConfigBufLoad D core stack 10 args.rbf priv.configState priv.regs).2) ∨
    (¬ (args.prCopied = true ∧ args.opened = true) ∧
      Fails (myIoctl D core stack rounds args.initiatePr priv).1 ∧
      (myIoctl D core stack rounds args.initiatePr priv).2 = priv) := by
  obtain ⟨rbf, opened, addr, enableCopied, prCopied, disableCopied⟩ := args
  cases prCopied with
  | false => exact .inr ⟨nofun, .inr ⟨-EACCES, by decide, rfl⟩, rfl⟩
  | true =>
    cases opened with
    | false => exact .inr ⟨nofun, .inr ⟨-1, by decide, rfl⟩, rfl⟩
    | true => exact .inl ⟨rfl, rfl, rfl, rfl⟩

end

end FpgaPartialReconfig.Driver
