/-
  The region controller.

  `fpga-region-controller.c` freezes and unfreezes a PR region through four registers in
  BAR 4. Both functions poll the status until the request is acknowledged, with no bound;
  here the poll has a number of rounds to spend, and a call that runs out of rounds has not
  returned (`none`). A statement for every number of rounds is a statement about every
  moment of the call.

  Neither function touches the PR IP (`within_freezeEnable`, `within_freezeDisable`).
-/
import FpgaPartialReconfig.Driver.PrCore

namespace FpgaPartialReconfig.Driver

open Bus

def freezeStatusOffset : U32 := 0x00#32
def freezeCtrlOffset : U32 := 4#32
def freezeVersionOffset : U32 := 12#32
def freezeBridgeSupportedVersion : U32 := 0xad000003#32

def freezeReqDone : U32 := 1#32
def unfreezeReqDone : U32 := 2#32

def freezeReq : U32 := 1#32
def resetReq : U32 := 2#32
def unfreezeReq : U32 := 4#32

def statusAddr (offset : U32) : Addr := .prBar (offset + freezeStatusOffset)
def ctrlAddr (offset : U32) : Addr := .prBar (offset + freezeCtrlOffset)
def versionAddr (offset : U32) : Addr := .prBar (offset + freezeVersionOffset)

theorem statusAddr_ne_versionAddr (offset : U32) : statusAddr offset ≠ versionAddr offset := by
  simp only [statusAddr, versionAddr, ne_eq, Addr.prBar.injEq, BitVec.add_right_inj]
  decide

theorem ctrlAddr_ne_versionAddr (offset : U32) : ctrlAddr offset ≠ versionAddr offset := by
  simp only [ctrlAddr, versionAddr, ne_eq, Addr.prBar.injEq, BitVec.add_right_inj]
  decide

theorem ctrlAddr_ne_statusAddr (offset : U32) : ctrlAddr offset ≠ statusAddr offset := by
  simp only [ctrlAddr, statusAddr, ne_eq, Addr.prBar.injEq, BitVec.add_right_inj]
  decide

section
variable {σ : Type} (D : Device Addr U32 σ)

/-- `true` when the version is supported. -/
def freezeBridgeReadVersion (ctlrOffset : U32) : Act (Regs σ) Bool := do
  let version ← readl D (versionAddr ctlrOffset)
  if version ≠ freezeBridgeSupportedVersion then
    return false
  else
    return true

/-- The `do … while (!ack)`, with `rounds` status readings to spend; `false` when they are
    spent and the request is still not acknowledged. -/
def freezeBridgeReqAck (offset reqAck : U32) : Nat → Act (Regs σ) Bool
  | 0 => pure false
  | rounds + 1 => do
    let status ← readl D (statusAddr offset)
    if status &&& reqAck ≠ 0 then
      pure true
    else
      freezeBridgeReqAck offset reqAck rounds

def fpgaPrRegionControllerFreezeEnable (rounds : Nat) (offset : U32) :
    Act (Regs σ) (Option Int) := do
  let supported ← freezeBridgeReadVersion D offset
  if supported = false then
    return some (-EINVAL)
  else do
    let status ← readl D (statusAddr offset)
    if status &&& freezeReqDone ≠ 0 then
      -- already frozen
      return some 0
    else if status &&& unfreezeReqDone = 0 then
      return some (-EINVAL)
    else do
      writel D freezeReq (ctrlAddr offset)
      let acked ← freezeBridgeReqAck D offset freezeReqDone rounds
      if acked = false then
        return none
      else do
        writel D resetReq (ctrlAddr offset)
        return some 0

def fpgaPrRegionControllerFreezeDisable (rounds : Nat) (offset : U32) :
    Act (Regs σ) (Option Int) := do
  let supported ← freezeBridgeReadVersion D offset
  if supported = false then
    return some (-EINVAL)
  else do
    let status ← readl D (statusAddr offset)
    if status &&& unfreezeReqDone ≠ 0 then
      -- already unfrozen
      return some 0
    else if status &&& freezeReqDone = 0 then
      return some (-EINVAL)
    else do
      let status ← readl D (ctrlAddr offset)
      writel D (status ^^^ resetReq) (ctrlAddr offset)
      writel D unfreezeReq (ctrlAddr offset)
      let acked ← freezeBridgeReqAck D offset unfreezeReqDone rounds
      if acked = false then
        return none
      else do
        writel D 0 (ctrlAddr offset)
        return some 0

end

/-! ## Which registers the calls touch -/

/-- A register in BAR 4. -/
def Addr.IsPrBar (a : Addr) : Prop := ∃ ofs, a = .prBar ofs

section
variable {σ : Type} (D : Device Addr U32 σ)

theorem within_freezeBridgeReadVersion (offset : U32) :
    Within D Addr.IsPrBar (freezeBridgeReadVersion D offset) :=
  .bind (.get ⟨_, rfl⟩) fun _ => .ite (.pure _) (.pure _)

theorem within_freezeBridgeReqAck (offset reqAck : U32) (rounds : Nat) :
    Within D Addr.IsPrBar (freezeBridgeReqAck D offset reqAck rounds) := by
  induction rounds with
  | zero => exact .pure _
  | succ rounds ih => exact .bind (.get ⟨_, rfl⟩) fun _ => .ite (.pure _) ih

theorem within_freezeEnable (rounds : Nat) (offset : U32) :
    Within D Addr.IsPrBar (fpgaPrRegionControllerFreezeEnable D rounds offset) := by
  refine .bind (within_freezeBridgeReadVersion D offset) fun _ => .ite (.pure _) ?_
  refine .bind (.get ⟨_, rfl⟩) fun _ => .ite (.pure _) (.ite (.pure _) ?_)
  refine .bind (.put _ ⟨_, rfl⟩) fun _ => ?_
  refine .bind (within_freezeBridgeReqAck D offset _ rounds) fun _ => .ite (.pure _) ?_
  exact .bind (.put _ ⟨_, rfl⟩) fun _ => .pure _

theorem within_freezeDisable (rounds : Nat) (offset : U32) :
    Within D Addr.IsPrBar (fpgaPrRegionControllerFreezeDisable D rounds offset) := by
  refine .bind (within_freezeBridgeReadVersion D offset) fun _ => .ite (.pure _) ?_
  refine .bind (.get ⟨_, rfl⟩) fun _ => .ite (.pure _) (.ite (.pure _) ?_)
  refine .bind (.get ⟨_, rfl⟩) fun _ => .bind (.put _ ⟨_, rfl⟩) fun _ => ?_
  refine .bind (.put _ ⟨_, rfl⟩) fun _ => ?_
  refine .bind (within_freezeBridgeReqAck D offset _ rounds) fun _ => .ite (.pure _) ?_
  exact .bind (.put _ ⟨_, rfl⟩) fun _ => .pure _

end

end FpgaPartialReconfig.Driver
