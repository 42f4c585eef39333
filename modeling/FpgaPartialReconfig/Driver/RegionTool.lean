/-
  The region controller tool.

  `fpga_region_controller` freezes and unfreezes a region from user space, through the
  registers that a UIO device maps into the tool. Its functions are those of
  `fpga-region-controller.c` with `uio_read_u32` and `uio_write_u32` in the place of `readl`
  and `writel`; on a window that covers the controller's registers they make the same
  accesses (`freezeBridgeEnable_eq`, `freezeBridgeDisable_eq`).

  Left out: opening the UIO device (finding it is in `UioName`), and the command line.
-/
import FpgaPartialReconfig.Driver.Region

namespace FpgaPartialReconfig.Driver.Tool

open Bus

/-- `struct uio_handle`: the mapping begins at `iomem` in BAR 4. -/
structure UioHandle where
  iomem : U32
  size : U32
  deriving Repr

section
variable {σ : Type} (D : Device Addr U32 σ)

/-- The value `*pdata` afterwards: a bad offset leaves it as it was. The callers do not look
    at the return value. -/
def uioReadU32 (h : UioHandle) (offset pdata : U32) : Act (Regs σ) U32 :=
  if h.size ≤ offset then
    pure pdata
  else
    readl D (.prBar (h.iomem + offset))

def uioWriteU32 (h : UioHandle) (offset data : U32) : Act (Regs σ) Unit :=
  if h.size ≤ offset then
    pure ()
  else
    writel D data (.prBar (h.iomem + offset))

def freezeBridgeReadVersion (dh : UioHandle) (ctlrOffset : U32) : Act (Regs σ) Bool := do
  let version ← uioReadU32 D dh (ctlrOffset + freezeVersionOffset) 0
  if version ≠ freezeBridgeSupportedVersion then
    return false
  else
    return true

def freezeBridgeReqAck (dh : UioHandle) (ctlrOffset reqAck : U32) : Nat → Act (Regs σ) Bool
  | 0 => pure false
  | rounds + 1 => do
    let status ← uioReadU32 D dh (ctlrOffset + freezeStatusOffset) 0
    if status &&& reqAck ≠ 0 then
      pure true
    else
      freezeBridgeReqAck dh ctlrOffset reqAck rounds

def freezeBridgeEnable (dh : UioHandle) (rounds : Nat) (ctlrOffset : U32) :
    Act (Regs σ) (Option Int) := do
  let supported ← freezeBridgeReadVersion D dh ctlrOffset
  if supported = false then
    return some (-EINVAL)
  else do
    let status ← uioReadU32 D dh (ctlrOffset + freezeStatusOffset) 0
    if status &&& freezeReqDone ≠ 0 then
      return some 0
    else if status &&& unfreezeReqDone = 0 then
      return some (-EINVAL)
    else do
      uioWriteU32 D dh (ctlrOffset + freezeCtrlOffset) freezeReq
      let acked ← freezeBridgeReqAck D dh ctlrOffset freezeReqDone rounds
      if acked = false then
        return none
      else do
        uioWriteU32 D dh (ctlrOffset + freezeCtrlOffset) resetReq
        return some 0

def freezeBridgeDisable (dh : UioHandle) (rounds : Nat) (ctlrOffset : U32) :
    Act (Regs σ) (Option Int) := do
  let supported ← freezeBridgeReadVersion D dh ctlrOffset
  if supported = false then
    return some (-EINVAL)
  else do
    let status ← uioReadU32 D dh (ctlrOffset + freezeStatusOffset) 0
    if status &&& unfreezeReqDone ≠ 0 then
      return some 0
    else if status &&& freezeReqDone = 0 then
      return some (-EINVAL)
    else do
      let status ← uioReadU32 D dh (ctlrOffset + freezeCtrlOffset) status
      uioWriteU32 D dh (ctlrOffset + freezeCtrlOffset) (status ^^^ resetReq)
      uioWriteU32 D dh (ctlrOffset + freezeCtrlOffset) unfreezeReq
      let acked ← freezeBridgeReqAck D dh ctlrOffset unfreezeReqDone rounds
      if acked = false then
        return none
      else do
        uioWriteU32 D dh (ctlrOffset + freezeCtrlOffset) 0
        return some 0

end

/-! ## The tool and the driver -/

/-- The tool, started on the region controller that the driver has at `offset`: the window
    covers the controller's registers. -/
structure On (offset : U32) where
  dh : UioHandle
  ctlrOffset : U32
  base : dh.iomem + ctlrOffset = offset
  covers : ctlrOffset.toNat + freezeVersionOffset.toNat < dh.size.toNat

/-- A window over all of BAR 4. -/
instance : Inhabited (On 0) := ⟨⟨⟨0, 0x100000⟩, 0, by decide, by decide⟩⟩

section
variable {σ : Type} (D : Device Addr U32 σ) {offset : U32} (tool : On offset)

theorem On.in_window (ofs : U32) (h : ofs ≤ freezeVersionOffset) :
    ¬ tool.dh.size ≤ tool.ctlrOffset + ofs := by
  have hcovers := tool.covers
  have hofs : ofs.toNat ≤ freezeVersionOffset.toNat := h
  have hsize := tool.dh.size.isLt
  rw [BitVec.le_def, BitVec.toNat_add, Nat.mod_eq_of_lt (by omega)]
  omega

theorem On.uioReadU32_eq (ofs pdata : U32) (h : ofs ≤ freezeVersionOffset) :
    uioReadU32 D tool.dh (tool.ctlrOffset + ofs) pdata = readl D (.prBar (offset + ofs)) := by
  unfold uioReadU32
  rw [if_neg (tool.in_window ofs h), ← BitVec.add_assoc, tool.base]

theorem On.uioWriteU32_eq (ofs data : U32) (h : ofs ≤ freezeVersionOffset) :
    uioWriteU32 D tool.dh (tool.ctlrOffset + ofs) data = writel D data (.prBar (offset + ofs)) := by
  unfold uioWriteU32
  rw [if_neg (tool.in_window ofs h), ← BitVec.add_assoc, tool.base]

theorem On.freezeBridgeReadVersion_eq :
    freezeBridgeReadVersion D tool.dh tool.ctlrOffset = Driver.freezeBridgeReadVersion D offset := by
  unfold freezeBridgeReadVersion Driver.freezeBridgeReadVersion
  rw [tool.uioReadU32_eq D _ _ (by decide)]
  rfl

theorem On.freezeBridgeReqAck_eq (reqAck : U32) (rounds : Nat) :
    freezeBridgeReqAck D tool.dh tool.ctlrOffset reqAck rounds =
      Driver.freezeBridgeReqAck D offset reqAck rounds := by
  induction rounds with
  | zero => rfl
  | succ rounds ih =>
    unfold freezeBridgeReqAck Driver.freezeBridgeReqAck
    rw [tool.uioReadU32_eq D _ _ (by decide), ih]
    rfl

/-- The tool's enable is the driver's. -/
theorem On.freezeBridgeEnable_eq (rounds : Nat) :
    freezeBridgeEnable D tool.dh rounds tool.ctlrOffset =
      fpgaPrRegionControllerFreezeEnable D rounds offset := by
  unfold freezeBridgeEnable fpgaPrRegionControllerFreezeEnable
  rw [tool.freezeBridgeReadVersion_eq D, tool.uioReadU32_eq D _ _ (by decide),
    tool.uioWriteU32_eq D _ _ (by decide), tool.uioWriteU32_eq D _ _ (by decide),
    tool.freezeBridgeReqAck_eq D]
  rfl

/-- And so is its disable. -/
theorem On.freezeBridgeDisable_eq (rounds : Nat) :
    freezeBridgeDisable D tool.dh rounds tool.ctlrOffset =
      fpgaPrRegionControllerFreezeDisable D rounds offset := by
  have hread : ∀ pdata, uioReadU32 D tool.dh (tool.ctlrOffset + freezeCtrlOffset) pdata =
      readl D (ctrlAddr offset) := fun pdata => tool.uioReadU32_eq D _ pdata (by decide)
  have hwrite : ∀ data, uioWriteU32 D tool.dh (tool.ctlrOffset + freezeCtrlOffset) data =
      writel D data (ctrlAddr offset) := fun data => tool.uioWriteU32_eq D _ data (by decide)
  unfold freezeBridgeDisable fpgaPrRegionControllerFreezeDisable
  simp only [hread, hwrite, tool.freezeBridgeReadVersion_eq D, tool.freezeBridgeReqAck_eq D]
  rw [tool.uioReadU32_eq D _ _ (by decide)]
  rfl

end

end FpgaPartialReconfig.Driver.Tool
