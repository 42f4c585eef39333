/-
  The PR IP cores of both drivers, for Arria 10 and Stratix 10.

  `fpga_pcie/altera-pr-ip-core-{a10,s10}.c` and `fpga/altera-pr-ip-core{,_s10}.c` repeat the
  same text for the status decoding, the start checks and the completion poll. Each of these
  is one definition here (`prState`, `writeInit`, `pollComplete`), and each source function
  is that definition applied to its file's own masks and status values, in the namespace of
  its device. The streaming functions differ between the two drivers and are in `Stream`.

  Left out: messages, and the delays (`msleep`, `udelay`), which touch no register.
-/
import FpgaPartialReconfig.Lib.Act
import FpgaPartialReconfig.Driver.File

namespace FpgaPartialReconfig.Driver

open Bus

/-! ## Errors, states and registers -/

def EIO : Int := 5
def EACCES : Int := 13
def EFAULT : Int := 14
def EINVAL : Int := 22
def ETIMEDOUT : Int := 110

/-- The thirteen states that `enum fpga_pr_ip_states`, `enum fpga_mgr_states` and
    `enum fpga_config_states` list under their own prefixes. -/
inductive FpgaState where
  | unknown | powerOff | powerUp | reset
  | firmwareReq | firmwareReqErr
  | writeInit | writeInitErr | write | writeErr | writeComplete | writeCompleteErr
  | operating
  deriving DecidableEq, Repr

/-- A register address: PR IP registers relative to `reg_base`, the configuration ROM at
    the start of BAR 2, and BAR 4, where the region controllers and the PR regions are. -/
inductive Addr where
  | prIp (ofs : Nat)
  | configRom (ofs : Nat)
  | prBar (ofs : U32)
  deriving DecidableEq, Repr

abbrev altPrData : Addr := .prIp 0x00
abbrev altPrCsr : Addr := .prIp 0x04
abbrev altPrVer : Addr := .prIp 0x08
abbrev altPrPofId : Addr := .prIp 0x0c

def altPrCsrPrStart : U32 := 1#32
def altPrVerPofId : U32 := 0xaa500003#32

/-- `71 * sizeof(u32)`: where an RBF keeps the id of the design it belongs to. -/
def altPrRbfIdOfst : Nat := 284

/-- The registers and the log of accesses. -/
abbrev Regs (σ : Type) := Machine Addr U32 σ

section
variable {σ : Type} (D : Device Addr U32 σ)

def readl (a : Addr) : Act (Regs σ) U32 := D.get a

def writel (v : U32) (a : Addr) : Act (Regs σ) Unit := D.put a v

/-! ## The shared bodies -/

/-- Read the CSR and decode its status field. -/
def prState (stateOf : U32 → FpgaState) : Act (Regs σ) FpgaState := do
  let val ← readl D altPrCsr
  pure (stateOf val)

/-- The start checks. `settle` is what the device does between the checks and the start
    request: nothing on Arria 10, the wait for an initial state on Stratix 10. -/
def writeInit (settle : Act (Regs σ) Int) (buf : Mem) (count : Nat) : Act (Regs σ) Int := do
  let val ← readl D altPrCsr
  if val &&& altPrCsrPrStart ≠ 0 then
    return -EINVAL
  else do
    let val ← readl D altPrVer
    if val = altPrVerPofId then
      if count < altPrRbfIdOfst then
        return -EINVAL
      else do
        let val ← readl D altPrPofId
        -- a zero POF id turns the check off
        if val ≠ 0 ∧ val ≠ le32 buf altPrRbfIdOfst then
          return -EINVAL
        else
          start val
    else
      start val
where
  /-- `val` is the last register read: VERSION, or the POF id when there is one. -/
  start (val : U32) : Act (Regs σ) Int := do
    let ret ← settle
    if ret ≠ 0 then
      return ret
    else do
      writel D (val ||| altPrCsrPrStart) altPrCsr
      return 0

/-- `for (i = 0; i < timeout; i++)` over the status, `n` readings left. -/
def pollComplete (stateOf : U32 → FpgaState) : Nat → Act (Regs σ) Int
  | 0 => pure (-ETIMEDOUT)
  | n + 1 => do
    let s ← prState D stateOf
    if s = .writeErr then
      pure (- EIO)
    else if s = .operating then
      pure 0
    else
      pollComplete stateOf n

/-! ## What the shared bodies do to any device -/

theorem emits_readl (a : Addr) : Emits (readl D a) fun v es => es = [.read a v] :=
  D.emits_get a

theorem emits_writel (v : U32) (a : Addr) : Emits (writel D v a) fun _ es => es = [.write a v] :=
  D.emits_put a v

theorem emits_prState (stateOf : U32 → FpgaState) :
    Emits (prState D stateOf) fun s es => ∃ v, es = [.read altPrCsr v] ∧ s = stateOf v :=
  (emits_readl D altPrCsr).bind fun v es hes => Spec.pure fun _ _ => by
    subst hes
    exact ⟨v, rfl, rfl⟩

/-- The start checks write no data, and the result is zero or an error. -/
theorem emits_writeInit {settle : Act (Regs σ) Int} (buf : Mem) (count : Nat)
    (hsettle : Emits settle fun ret es => ret ≤ 0 ∧ Silent es) :
    Emits (writeInit D settle buf count) fun ret es =>
      ret ≤ 0 ∧ writesTo altPrData es = [] := by
  have hstart : ∀ (val : U32) (es : List (Access Addr U32)), Silent es →
      Emits (writeInit.start D settle val) fun ret es' =>
        ret ≤ 0 ∧ writesTo altPrData (es ++ es') = [] := by
    intro val es hes
    refine hsettle.bind fun ret es₁ h₁ => Spec.ite (fun hret => ?_) fun hret => ?_
    · exact Spec.pure fun _ _ => ⟨h₁.1, by rw [List.append_nil]; exact (hes.append h₁.2) _⟩
    · refine (emits_writel D _ _).bind fun _ es₂ h₂ => Spec.pure fun _ _ => ⟨Int.le_refl 0, ?_⟩
      subst h₂
      rw [writesTo_append, hes, writesTo_append, h₁.2]
      rfl
  refine (emits_readl D altPrCsr).bind fun csr es₁ h₁ => ?_
  subst h₁
  refine Spec.ite (fun _ => Spec.pure fun _ _ => ⟨by decide, rfl⟩) fun _ => ?_
  refine (emits_readl D altPrVer).bind fun ver es₂ h₂ => ?_
  subst h₂
  refine Spec.ite (fun _ => ?_) fun _ =>
    hstart ver [.read altPrCsr csr, .read altPrVer ver] fun _ => rfl
  refine Spec.ite (fun _ => Spec.pure fun _ _ => ⟨by decide, rfl⟩) fun _ => ?_
  refine (emits_readl D altPrPofId).bind fun pof es₃ h₃ => ?_
  subst h₃
  refine Spec.ite (fun _ => Spec.pure fun _ _ => ⟨by decide, rfl⟩) fun _ => ?_
  exact hstart pof [.read altPrCsr csr, .read altPrVer ver, .read altPrPofId pof] fun _ => rfl

/-- The poll writes nothing; it ends in an error, or in success with a reading of
    `operating` as its last access. -/
theorem emits_pollComplete (stateOf : U32 → FpgaState) (n : Nat) :
    Emits (pollComplete D stateOf n) fun ret es => Silent es ∧
      (ret < 0 ∨ ret = 0 ∧ ∃ es₀ v, es = es₀ ++ [.read altPrCsr v] ∧ stateOf v = .operating) := by
  induction n with
  | zero => exact Spec.pure fun _ _ => ⟨silent_nil, .inl (by decide)⟩
  | succ n ih =>
    refine (emits_prState D stateOf).bind fun s es h => ?_
    obtain ⟨v, rfl, rfl⟩ := h
    refine Spec.ite (fun _ => Spec.pure fun _ _ => ⟨silent_read _ _, .inl (by decide)⟩) fun _ => ?_
    refine Spec.ite (fun hop => Spec.pure fun _ _ => ⟨silent_read _ _, .inr ⟨rfl, [], v, rfl, hop⟩⟩)
      fun _ => ?_
    refine ih.mono fun ret es h => ⟨(silent_read _ _).append h.1, ?_⟩
    rcases h.2 with hneg | ⟨h0, es₀, w, rfl, hop⟩
    · exact .inl hneg
    · exact .inr ⟨h0, .read altPrCsr v :: es₀, w, rfl, hop⟩

/-- A register of the PR IP. -/
def Addr.IsPrIp (a : Addr) : Prop := ∃ ofs, a = .prIp ofs

theorem within_prState (stateOf : U32 → FpgaState) : Within D Addr.IsPrIp (prState D stateOf) :=
  .bind (.get ⟨_, rfl⟩) fun _ => .pure _

theorem within_writeInit {settle : Act (Regs σ) Int} (hsettle : Within D Addr.IsPrIp settle)
    (buf : Mem) (count : Nat) : Within D Addr.IsPrIp (writeInit D settle buf count) := by
  have hstart : ∀ val, Within D Addr.IsPrIp (writeInit.start D settle val) := fun val =>
    .bind hsettle fun _ => .ite (.pure _) (.bind (.put _ ⟨_, rfl⟩) fun _ => .pure _)
  refine .bind (.get ⟨_, rfl⟩) fun _ => .ite (.pure _) ?_
  refine .bind (.get ⟨_, rfl⟩) fun _ => .ite (.ite (.pure _) ?_) (hstart _)
  exact .bind (.get ⟨_, rfl⟩) fun _ => .ite (.pure _) (hstart _)

theorem within_pollComplete (stateOf : U32 → FpgaState) (n : Nat) :
    Within D Addr.IsPrIp (pollComplete D stateOf n) := by
  induction n with
  | zero => exact .pure _
  | succ n ih =>
    exact .bind (within_prState D stateOf) fun _ => .ite (.pure _) (.ite (.pure _) ih)

end

/-! ## Arria 10 -/

namespace A10

def altPrCsrStatusMsk : U32 := 7#32 <<< 2
def altPrCsrStatusNreset : U32 := 0#32 <<< 2
def altPrCsrStatusPrErr : U32 := 1#32 <<< 2
def altPrCsrStatusCrcErr : U32 := 2#32 <<< 2
def altPrCsrStatusBadBits : U32 := 3#32 <<< 2
def altPrCsrStatusPrInProg : U32 := 4#32 <<< 2
def altPrCsrStatusPrSuccess : U32 := 5#32 <<< 2

/-- The `switch` over the status field. -/
def stateOf (csr : U32) : FpgaState :=
  let val := csr &&& altPrCsrStatusMsk
  if val = altPrCsrStatusNreset then .reset
  else if val = altPrCsrStatusPrErr then .writeErr
  else if val = altPrCsrStatusCrcErr then .writeErr
  else if val = altPrCsrStatusBadBits then .writeErr
  else if val = altPrCsrStatusPrInProg then .write
  else if val = altPrCsrStatusPrSuccess then .operating
  else .unknown

section
variable {σ : Type} (D : Device Addr U32 σ)

/-- `fpga_pcie` driver. -/
def altPrIpFpgaState : Act (Regs σ) FpgaState := prState D stateOf

def altPrIpWriteInit (buf : Mem) (count : Nat) : Act (Regs σ) Int :=
  writeInit D (pure 0) buf count

/-- The counter is a `u32`, so a negative timeout is compared as its unsigned value. -/
def altPrIpFpgaWriteComplete (configTimeoutUs : Int) : Act (Regs σ) Int :=
  pollComplete D stateOf (BitVec.ofInt 32 configTimeoutUs).toNat

/-- `fpga` driver. -/
def altPrFpgaState : Act (Regs σ) FpgaState := prState D stateOf

/-- `partialReconfig` is the `FPGA_MGR_PARTIAL_RECONFIG` bit of `info->flags`. -/
def altPrFpgaWriteInit (partialReconfig : Bool) (buf : Mem) (count : Nat) :
    Act (Regs σ) Int :=
  if partialReconfig = false then
    pure (-EINVAL)
  else
    writeInit D (pure 0) buf count

def altPrFpgaWriteComplete (configCompleteTimeoutUs : U32) : Act (Regs σ) Int :=
  pollComplete D stateOf configCompleteTimeoutUs.toNat

end

end A10

/-! ## Stratix 10 -/

namespace S10

def altPrCsrStatusMsk : U32 := 7#32 <<< 1
def altPrCsrStatusNreset : U32 := 0#32 <<< 1
def altPrCsrStatusBusy : U32 := 1#32 <<< 1
def altPrCsrStatusPrInProg : U32 := 2#32 <<< 1
def altPrCsrStatusPrSuccess : U32 := 3#32 <<< 1
def altPrCsrStatusPrErr : U32 := 4#32 <<< 1

def stateOf (csr : U32) : FpgaState :=
  let val := csr &&& altPrCsrStatusMsk
  if val = altPrCsrStatusNreset then .reset
  else if val = altPrCsrStatusPrErr then .writeErr
  else if val = altPrCsrStatusPrInProg then .write
  else if val = altPrCsrStatusPrSuccess then .operating
  else .unknown

section
variable {σ : Type} (D : Device Addr U32 σ)

/-- The wait of `alt_pr_ip_wait_for_initial_state` with `n` rounds left; the result is the
    variable `timeout`. The guard is the source's own, a disjunction of two inequalities. -/
def waitRounds : Nat → U32 → Act (Regs σ) Bool
  | 0, _ => pure true
  | n + 1, val =>
    if val ≠ altPrCsrStatusNreset ∨ val ≠ altPrCsrStatusPrSuccess then do
      let val ← readl D altPrCsr
      waitRounds n (val &&& altPrCsrStatusMsk)
    else
      pure false

/-- Both drivers have this function, word for word. -/
def waitForInitialState : Act (Regs σ) Int := do
  let val ← readl D altPrCsr
  if val &&& altPrCsrStatusMsk = altPrCsrStatusBusy then do
    let timeout ← waitRounds D 5000 (val &&& altPrCsrStatusMsk)
    if timeout = true then
      return -ETIMEDOUT
    else
      return 0
  else
    return 0

/-- What `write_init` does between its checks and the start request. -/
def settle : Act (Regs σ) Int := do
  let ret ← waitForInitialState D
  if ret ≠ 0 then
    return -ETIMEDOUT
  else do
    let _ ← prState D stateOf
    return 0

def altPrIpWaitForInitialState : Act (Regs σ) Int := waitForInitialState D

def altPrIpFpgaState : Act (Regs σ) FpgaState := prState D stateOf

def altPrIpWriteInit (buf : Mem) (count : Nat) : Act (Regs σ) Int :=
  writeInit D (settle D) buf count

def altPrIpFpgaWriteComplete (configTimeoutUs : Int) : Act (Regs σ) Int :=
  pollComplete D stateOf (BitVec.ofInt 32 configTimeoutUs).toNat

def altPrWaitForInitialState : Act (Regs σ) Int := waitForInitialState D

def altPrFpgaState : Act (Regs σ) FpgaState := prState D stateOf

def altPrFpgaWriteInit (partialReconfig : Bool) (buf : Mem) (count : Nat) :
    Act (Regs σ) Int :=
  if partialReconfig = false then
    pure (-EINVAL)
  else
    writeInit D (settle D) buf count

def altPrFpgaWriteComplete (configCompleteTimeoutUs : U32) : Act (Regs σ) Int :=
  pollComplete D stateOf configCompleteTimeoutUs.toNat

/-- No value equals both status values, so the guard never fails and every round is spent. -/
theorem emits_waitRounds (n : Nat) (val : U32) :
    Emits (waitRounds D n val) fun timeout es => timeout = true ∧ Silent es := by
  induction n generalizing val with
  | zero => exact Spec.pure fun _ _ => ⟨rfl, silent_nil⟩
  | succ n ih =>
    refine Spec.ite (fun _ => ?_) fun hguard => absurd ?_ hguard
    · refine (emits_readl D altPrCsr).bind fun v es h => ?_
      subst h
      exact (ih _).mono fun _ _ h => ⟨h.1, (silent_read _ _).append h.2⟩
    · by_cases h : val = altPrCsrStatusNreset
      · rw [h]
        exact .inr (by decide)
      · exact .inl h

theorem emits_waitForInitialState :
    Emits (waitForInitialState D) fun ret es => ret ≤ 0 ∧ Silent es := by
  refine (emits_readl D altPrCsr).bind fun v es h => ?_
  subst h
  refine Spec.ite (fun _ => ?_) fun _ => Spec.pure fun _ _ => ⟨Int.le_refl 0, silent_read _ _⟩
  refine (emits_waitRounds D _ _).bind fun t es h => ?_
  have hs := (silent_read altPrCsr v).append h.2
  refine Spec.ite (fun _ => Spec.pure fun _ _ => ⟨by decide, ?_⟩) fun _ =>
    Spec.pure fun _ _ => ⟨Int.le_refl 0, ?_⟩ <;> rwa [List.append_nil]

theorem within_waitRounds (n : Nat) (val : U32) :
    Within D Addr.IsPrIp (waitRounds D n val) := by
  induction n generalizing val with
  | zero => exact .pure _
  | succ n ih => exact .ite (.bind (.get ⟨_, rfl⟩) fun _ => ih _) (.pure _)

theorem within_settle : Within D Addr.IsPrIp (settle D) := by
  refine .bind (.bind (.get ⟨_, rfl⟩) fun _ => .ite ?_ (.pure _)) fun _ => .ite (.pure _) ?_
  · exact .bind (within_waitRounds D _ _) fun _ => .ite (.pure _) (.pure _)
  · exact .bind (within_prState D stateOf) fun _ => .pure _

theorem emits_settle : Emits (settle D) fun ret es => ret ≤ 0 ∧ Silent es := by
  refine (emits_waitForInitialState D).bind fun ret es h => ?_
  refine Spec.ite (fun _ => Spec.pure fun _ _ => ⟨by decide, ?_⟩) fun _ => ?_
  · rw [List.append_nil]
    exact h.2
  · refine (emits_prState D stateOf).bind fun s es' h' => Spec.pure fun _ _ => ⟨Int.le_refl 0, ?_⟩
    obtain ⟨v, rfl, -⟩ := h'
    rw [List.append_nil]
    exact h.2.append (silent_read _ _)

end

end S10

end FpgaPartialReconfig.Driver
