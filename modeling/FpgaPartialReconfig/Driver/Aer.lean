/-
  Advanced error reporting of the upstream bridge.

  Both drivers mask three uncorrectable errors in the upstream bridge before a full-chip
  configuration and put the old mask back afterwards, with the same functions. The bridge
  is what those functions read and write of its configuration space: whether it has the AER
  capability, and that capability's status and mask registers.
-/
import FpgaPartialReconfig.Driver.PrCore

namespace FpgaPartialReconfig.Driver

def pciErrUncSurpdn : U32 := 0x00000020#32
def pciErrUncCompTime : U32 := 0x00004000#32
def pciErrUncUnsup : U32 := 0x00100000#32

/-- The errors the drivers mask. -/
def aerErrBits : U32 := pciErrUncSurpdn ||| pciErrUncCompTime ||| pciErrUncUnsup

/-- The upstream bridge. Bits of `uerrStatus` are cleared by writing them. -/
structure Upstream where
  aerCap : Bool
  uerrStatus : U32
  uerrMask : U32
  deriving DecidableEq, Repr

def getAerUerrMaskReg (dev : Upstream) : U32 :=
  if dev.aerCap = false then BitVec.ofInt 32 (- EIO) else dev.uerrMask

def setAerUerrMaskReg (dev : Upstream) (val : U32) : Upstream :=
  if dev.aerCap = false then dev
  else { dev with uerrStatus := dev.uerrStatus &&& ~~~aerErrBits, uerrMask := val }

/-- The old mask, and the bridge afterwards; a device without an upstream bridge is an
    error that the drivers store as if it were a mask. -/
def disableUpstreamAer : Option Upstream → U32 × Option Upstream
  | none => (BitVec.ofInt 32 (-EINVAL), none)
  | some upstreamDev =>
    let reg := getAerUerrMaskReg upstreamDev
    (reg, some (setAerUerrMaskReg upstreamDev (reg ||| aerErrBits)))

theorem getAerUerrMaskReg_cap {dev : Upstream} (h : dev.aerCap = true) :
    getAerUerrMaskReg dev = dev.uerrMask := by
  simp [getAerUerrMaskReg, h]

theorem setAerUerrMaskReg_mask {dev : Upstream} (h : dev.aerCap = true) (val : U32) :
    (setAerUerrMaskReg dev val).uerrMask = val := by
  simp [setAerUerrMaskReg, h]

theorem setAerUerrMaskReg_cap (dev : Upstream) (val : U32) :
    (setAerUerrMaskReg dev val).aerCap = dev.aerCap := by
  unfold setAerUerrMaskReg
  split <;> rfl

/-- With the capability there, disabling saves the mask and sets the error bits in it. -/
theorem disableUpstreamAer_some {dev : Upstream} (h : dev.aerCap = true) :
    disableUpstreamAer (some dev) =
      (dev.uerrMask, some (setAerUerrMaskReg dev (dev.uerrMask ||| aerErrBits))) := by
  simp only [disableUpstreamAer, getAerUerrMaskReg_cap h]

end FpgaPartialReconfig.Driver
