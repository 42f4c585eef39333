/-
  The fpga_pcie driver over its whole life.

  The kernel binds the driver to the card (`fpga_pcie_probe`), takes it off again
  (`fpga_pcie_remove`) and binds it anew, any number of times; while it is bound, user space
  makes ioctls. The registers and the upstream bridge are the card's and stay; what the
  driver knows of the error mask is in its private data and goes with it.

  `remove` does not write the saved mask back. `life_balanced_iff`: apart from a bridge that
  had all the error bits set in the first place, the mask is balanced in every state of a
  life exactly if the driver is never removed in `ST_AER_DISABLED`.
-/
import FpgaPartialReconfig.Driver.Ioctl
import FpgaPartialReconfig.Lib.Runs

namespace FpgaPartialReconfig.Driver.Lifetime

open Bus

/-- The card, with the driver on it or without. -/
inductive Slot (σ : Type) where
  | unbound (regs : Regs σ) (upstreamDev : Option Upstream)
  | bound (priv : Priv σ)

inductive Event where
  /-- `fpga_pcie_probe`; `succeeds` is whether every step before the last `return` does. -/
  | probe (succeeds : Bool)
  | remove
  /-- `stack` is what the local buffers of the call hold, `rounds` bounds its polls. -/
  | ioctl (request : Request) (stack : Mem) (rounds : Nat)

section
variable {σ : Type} (D : Device Addr U32 σ) (core : Core)

/-- `fpga_pcie_remove`: the private data is released, the hardware stays as it is. -/
def fpgaPcieRemove (priv : Priv σ) : Slot σ := .unbound priv.regs priv.upstreamDev

/-- Without an upstream bridge `fpga_pcie_setup_pci` fails. The kernel probes only an unbound
    card and removes only a bound one, and there is no character device without the driver. -/
def step : Slot σ → Event → Slot σ
  | .unbound regs upstreamDev, .probe succeeds =>
    if succeeds = true ∧ upstreamDev.isSome = true then
      .bound (fpgaPcieProbe regs.dev upstreamDev)
    else
      .unbound regs upstreamDev
  | .unbound regs upstreamDev, .remove => .unbound regs upstreamDev
  | .unbound regs upstreamDev, .ioctl _ _ _ => .unbound regs upstreamDev
  | .bound priv, .probe _ => .bound priv
  | .bound priv, .remove => fpgaPcieRemove priv
  | .bound priv, .ioctl request stack rounds =>
    .bound (myIoctl D core stack rounds request priv).2

namespace Slot

def upstreamDev : Slot σ → Option Upstream
  | .unbound _ upstreamDev => upstreamDev
  | .bound priv => priv.upstreamDev

/-- The mask register of the upstream bridge. -/
def uerrMask (slot : Slot σ) : Option U32 := slot.upstreamDev.map Upstream.uerrMask

/-- Bound, and in `ST_AER_DISABLED`. -/
def AerDisabled : Slot σ → Prop
  | .unbound _ _ => False
  | .bound priv => priv.state = .aerDisabled

/-- The value saved for `FPGA_ENABLE_UPSTREAM_AER`, while there is private data. -/
def saved : Slot σ → Option U32
  | .unbound _ _ => none
  | .bound priv => some priv.aerUerrMaskReg

end Slot

/-- Unbound or idle, the mask is as it was before the first disable; disabled, the saved
    value is that one. -/
structure Balanced (original : U32) (slot : Slot σ) : Prop where
  restored : ¬ slot.AerDisabled → slot.uerrMask = some original
  kept : slot.AerDisabled → slot.saved = some original

/-! ## What an event does -/

/-- Only the two AER commands touch the bridge, and each only in its own state. -/
theorem myIoctl_cases (stack : Mem) (rounds : Nat) (request : Request) (priv : Priv σ) :
    let priv' := (myIoctl D core stack rounds request priv).2
    (priv.state ≠ .aerDisabled ∧ priv'.state = .aerDisabled ∧
      (priv'.aerUerrMaskReg, priv'.upstreamDev) = disableUpstreamAer priv.upstreamDev) ∨
    (priv.state = .aerDisabled ∧ priv'.state = .idle ∧
      priv'.upstreamDev = priv.upstreamDev.map (setAerUerrMaskReg · priv.aerUerrMaskReg)) ∨
    (priv'.state = priv.state ∧ priv'.aerUerrMaskReg = priv.aerUerrMaskReg ∧
      priv'.upstreamDev = priv.upstreamDev) := by
  intro priv'
  have hsame : ∀ q : Priv σ, q.state = priv.state → q.aerUerrMaskReg = priv.aerUerrMaskReg →
      q.upstreamDev = priv.upstreamDev → priv' = q → priv'.state = priv.state ∧
        priv'.aerUerrMaskReg = priv.aerUerrMaskReg ∧ priv'.upstreamDev = priv.upstreamDev := by
    rintro _ hs hr hu rfl
    exact ⟨hs, hr, hu⟩
  cases request with
  | disableUpstreamAer =>
    by_cases hstate : priv.state = .aerDisabled
    · exact .inr (.inr (hsame priv rfl rfl rfl (if_pos hstate)))
    · have hpriv : priv' = { priv with
          aerUerrMaskReg := (Driver.disableUpstreamAer priv.upstreamDev).1
          upstreamDev := (Driver.disableUpstreamAer priv.upstreamDev).2
          state := .aerDisabled } := if_neg hstate
      rw [hpriv]
      exact .inl ⟨hstate, rfl, rfl⟩
  | enableUpstreamAer =>
    by_cases hstate : priv.state = .aerDisabled
    · have hpriv : priv' = { priv with
          upstreamDev := priv.upstreamDev.map (setAerUerrMaskReg · priv.aerUerrMaskReg)
          state := .idle } := if_pos hstate
      rw [hpriv]
      exact .inr (.inl ⟨hstate, rfl, rfl⟩)
    · exact .inr (.inr (hsame priv rfl rfl rfl (if_neg hstate)))
  | debugPrintRom =>
    refine .inr (.inr (hsame (onRegs (fpgaPciePrintRom D 0x100 0) priv).2 ?_ ?_ ?_ ?_))
    · rw [onRegs]
    · rw [onRegs]
    · rw [onRegs]
    · simp only [priv', myIoctl, Act.bind_apply, Act.pure_apply]
  | initiatePr arg => rcases arg with _ | ⟨_ | _, _⟩ <;> exact .inr (.inr ⟨rfl, rfl, rfl⟩)
  | freezeEnable arg => cases arg <;> exact .inr (.inr ⟨rfl, rfl, rfl⟩)
  | freezeDisable arg => cases arg <;> exact .inr (.inr ⟨rfl, rfl, rfl⟩)
  | prRegionRead arg copiedBack =>
    rcases arg with _ | arg
    · exact .inr (.inr ⟨rfl, rfl, rfl⟩)
    · cases copiedBack <;> exact .inr (.inr ⟨rfl, rfl, rfl⟩)
  | prRegionWrite arg => cases arg <;> exact .inr (.inr ⟨rfl, rfl, rfl⟩)
  | unknown => exact .inr (.inr ⟨rfl, rfl, rfl⟩)

/-- What an event is to the error mask: a disable, an enable, the removal of a driver that
    has the errors masked, or nothing. -/
theorem step_cases (slot : Slot σ) (e : Event) :
    let slot' := step D core slot e
    (¬ slot.AerDisabled ∧ slot'.AerDisabled ∧ ∃ saved, slot'.saved = some saved ∧
      (saved, slot'.upstreamDev) = disableUpstreamAer slot.upstreamDev) ∨
    (slot.AerDisabled ∧ ¬ slot'.AerDisabled ∧ ∃ saved, slot.saved = some saved ∧
      slot'.upstreamDev = slot.upstreamDev.map (setAerUerrMaskReg · saved)) ∨
    (slot.AerDisabled ∧ e = .remove ∧ ¬ slot'.AerDisabled ∧
      slot'.upstreamDev = slot.upstreamDev) ∨
    ((slot'.AerDisabled ↔ slot.AerDisabled) ∧ (slot.AerDisabled → slot'.saved = slot.saved) ∧
      slot'.upstreamDev = slot.upstreamDev) := by
  cases slot with
  | unbound regs upstreamDev =>
    refine .inr (.inr (.inr ?_))
    cases e with
    | probe succeeds =>
      by_cases h : succeeds = true ∧ upstreamDev.isSome = true
      · simp only [step, if_pos h]
        exact ⟨⟨nofun, nofun⟩, nofun, rfl⟩
      · simp [step, if_neg h]
    | remove => exact ⟨Iff.rfl, fun _ => rfl, rfl⟩
    | ioctl request stack rounds => exact ⟨Iff.rfl, fun _ => rfl, rfl⟩
  | bound priv =>
    cases e with
    | probe succeeds => exact .inr (.inr (.inr ⟨Iff.rfl, fun _ => rfl, rfl⟩))
    | remove =>
      by_cases hstate : priv.state = .aerDisabled
      · exact .inr (.inr (.inl ⟨hstate, rfl, nofun, rfl⟩))
      · exact .inr (.inr (.inr ⟨⟨nofun, fun h => absurd h hstate⟩, fun h => absurd h hstate, rfl⟩))
    | ioctl request stack rounds =>
      rcases myIoctl_cases D core stack rounds request priv with ⟨hstate, hnext, haer⟩ |
        ⟨hstate, hnext, hup⟩ | ⟨hnext, hsaved, hup⟩
      · exact .inl ⟨hstate, hnext, _, rfl, haer⟩
      · refine .inr (.inl ⟨hstate, ?_, _, rfl, hup⟩)
        intro hdisabled
        have hidle : PrivState.idle = .aerDisabled := hnext.symm.trans hdisabled
        cases hidle
      · refine .inr (.inr (.inr ⟨?_, fun _ => congrArg some hsaved, hup⟩))
        exact ⟨fun h => hnext.symm.trans h, fun h => hnext.trans h⟩

/-! ## The invariant of the allowed events -/

/-- The mask is the original one, with the error bits set exactly in `ST_AER_DISABLED`. -/
structure AerInv (original : U32) (slot : Slot σ) : Prop where
  cap : ∃ dev, slot.upstreamDev = some dev ∧ dev.aerCap = true
  enabled : ¬ slot.AerDisabled → slot.uerrMask = some original
  disabled : slot.AerDisabled → slot.uerrMask = some (original ||| aerErrBits) ∧
    slot.saved = some original

/-- With the errors masked in the first place nothing is lost; otherwise the driver may not
    go while it has them masked. -/
def Allowed (original : U32) (slot : Slot σ) (e : Event) : Prop :=
  original ||| aerErrBits = original ∨ ¬ (e = .remove ∧ slot.AerDisabled)

theorem AerInv.balanced {original : U32} {slot : Slot σ} (h : AerInv original slot) :
    Balanced original slot := ⟨h.enabled, fun hdisabled => (h.disabled hdisabled).2⟩

theorem uerrMask_eq {slot : Slot σ} {dev : Upstream} (h : slot.upstreamDev = some dev) :
    slot.uerrMask = some dev.uerrMask := by
  rw [Slot.uerrMask, h]
  rfl

theorem AerInv.step {original : U32} {slot : Slot σ} {e : Event} (h : AerInv original slot)
    (hallowed : Allowed original slot e) : AerInv original (step D core slot e) := by
  obtain ⟨dev, hdev, hcap⟩ := h.cap
  have hmask := uerrMask_eq hdev
  rcases step_cases D core slot e with ⟨hstate, hnext, saved, hsaved, haer⟩ |
    ⟨hstate, hnext, saved, hsaved, hup⟩ | ⟨hstate, hremove, hnext, hup⟩ | ⟨hstate, hsaved, hup⟩
  · -- a disable saves the original mask, as the invariant has it before
    have horiginal : dev.uerrMask = original :=
      Option.some.inj (hmask.symm.trans (h.enabled hstate))
    rw [hdev, disableUpstreamAer_some hcap, horiginal] at haer
    obtain ⟨rfl, hup⟩ := Prod.mk.inj haer
    refine ⟨⟨_, hup, (setAerUerrMaskReg_cap _ _).trans hcap⟩, fun hno => absurd hnext hno,
      fun _ => ⟨?_, hsaved⟩⟩
    rw [uerrMask_eq hup, setAerUerrMaskReg_mask hcap]
  · -- an enable writes the saved mask back
    have horiginal : saved = original :=
      Option.some.inj (hsaved.symm.trans (h.disabled hstate).2)
    rw [hdev, horiginal] at hup
    refine ⟨⟨_, hup, (setAerUerrMaskReg_cap _ _).trans hcap⟩, fun _ => ?_,
      fun hyes => absurd hyes hnext⟩
    rw [uerrMask_eq hup, setAerUerrMaskReg_mask hcap]
  · -- the saved mask is lost, and the masked one is the original
    have hbits : original ||| aerErrBits = original := by
      rcases hallowed with hbits | hnot
      · exact hbits
      · exact absurd ⟨hremove, hstate⟩ hnot
    refine ⟨⟨dev, hup.trans hdev, hcap⟩, fun _ => ?_, fun hyes => absurd hyes hnext⟩
    rw [Slot.uerrMask, hup, ← Slot.uerrMask, (h.disabled hstate).1, hbits]
  · refine ⟨⟨dev, hup.trans hdev, hcap⟩, fun hno => ?_, fun hyes => ?_⟩
    · rw [Slot.uerrMask, hup]
      exact h.enabled fun hyes => hno (hstate.mpr hyes)
    · obtain ⟨hmasked, hkept⟩ := h.disabled (hstate.mp hyes)
      refine ⟨?_, (hsaved (hstate.mp hyes)).trans hkept⟩
      rw [Slot.uerrMask, hup]
      exact hmasked

/-! ## Any events -/

/-- Whatever happens, the error bits are set in `ST_AER_DISABLED`. -/
def ErrorsMasked (slot : Slot σ) : Prop :=
  ∃ dev, slot.upstreamDev = some dev ∧ dev.aerCap = true ∧
    (slot.AerDisabled → dev.uerrMask ||| aerErrBits = dev.uerrMask)

theorem ErrorsMasked.step {slot : Slot σ} (e : Event) (h : ErrorsMasked slot) :
    ErrorsMasked (step D core slot e) := by
  obtain ⟨dev, hdev, hcap, hmasked⟩ := h
  rcases step_cases D core slot e with ⟨-, -, saved, -, haer⟩ | ⟨-, hnext, saved, -, hup⟩ |
    ⟨-, -, hnext, hup⟩ | ⟨hstate, -, hup⟩
  · rw [hdev, disableUpstreamAer_some hcap] at haer
    obtain ⟨-, hup⟩ := Prod.mk.inj haer
    refine ⟨_, hup, (setAerUerrMaskReg_cap _ _).trans hcap, fun _ => ?_⟩
    rw [setAerUerrMaskReg_mask hcap, BitVec.or_assoc, BitVec.or_self]
  · rw [hdev] at hup
    exact ⟨_, hup, (setAerUerrMaskReg_cap _ _).trans hcap, fun hyes => absurd hyes hnext⟩
  · exact ⟨dev, hup.trans hdev, hcap, fun hyes => absurd hyes hnext⟩
  · exact ⟨dev, hup.trans hdev, hcap, fun hyes => hmasked (hstate.mp hyes)⟩

/-- A removal with the errors masked leaves the mask as it is. -/
theorem not_balanced_of_removed {original : U32} {slot : Slot σ} {e : Event}
    (h : ErrorsMasked slot) (hnot : ¬ Allowed original slot e) :
    ¬ Balanced original (step D core slot e) := by
  obtain ⟨hbits, hremoved⟩ := not_or.mp hnot
  obtain ⟨rfl, hstate⟩ := not_not.mp hremoved
  obtain ⟨dev, hdev, -, hmasked⟩ := h
  intro hbalanced
  cases slot with
  | unbound regs upstreamDev => exact hstate
  | bound priv =>
    have hmask : (fpgaPcieRemove priv).uerrMask = some original :=
      hbalanced.restored fun hyes => hyes
    have hmask' : (fpgaPcieRemove priv).uerrMask = some dev.uerrMask := uerrMask_eq hdev
    have horiginal : dev.uerrMask = original := Option.some.inj (hmask'.symm.trans hmask)
    rw [← horiginal] at hbits
    exact hbits (hmasked hstate)

/-! ## Lives -/

/-- The card before the driver is first bound to it. -/
def untouched (dev : σ) (status original : U32) : Slot σ :=
  .unbound ⟨dev, []⟩ (some ⟨true, status, original⟩)

/-- For every sequence of ioctls, removals and probes: the mask is balanced in every state
    reached exactly if the bridge masks the errors anyway, or the driver is never removed in
    `ST_AER_DISABLED`. -/
theorem life_balanced_iff (dev : σ) (status original : U32) (es : List Event) :
    (∀ before after, es = before ++ after →
      Balanced original (run (step D core) (untouched dev status original) before)) ↔
      original ||| aerErrBits = original ∨
        ∀ before after, es = before ++ .remove :: after →
          ¬ (run (step D core) (untouched dev status original) before).AerDisabled := by
  have hinv : AerInv original (untouched dev status original) :=
    ⟨⟨_, rfl, rfl⟩, fun _ => rfl, fun h => h.elim⟩
  have hmasked : ErrorsMasked (untouched dev status original) := ⟨_, rfl, rfl, fun h => h.elim⟩
  have hkeeps : ∀ slot e, AerInv original slot → Allowed original slot e →
      AerInv original (step D core slot e) := fun _ _ h he => h.step D core he
  have hmasks : ∀ slot e, ErrorsMasked slot → ErrorsMasked (step D core slot e) :=
    fun _ e h => h.step D core e
  have hbreaks : ∀ slot e, ErrorsMasked slot → ¬ Allowed original slot e →
      ¬ Balanced original (step D core slot e) :=
    fun _ _ h he => not_balanced_of_removed D core h he
  rw [holds_along_iff hkeeps (fun _ h => h.balanced) hmasks hbreaks hinv hmasked es]
  constructor
  · intro hallowed
    by_cases hbits : original ||| aerErrBits = original
    · exact .inl hbits
    · refine .inr fun before after heq hstate => ?_
      exact ((hallowed before .remove after heq).resolve_left hbits) ⟨rfl, hstate⟩
  · rintro (hbits | hnever) before e after heq
    · exact .inl hbits
    · refine .inr ?_
      intro hparts
      obtain ⟨rfl, hstate⟩ := hparts
      exact hnever before after heq hstate

/-- Bound, disabled, removed: the card is left with the errors masked. -/
theorem removed_while_masked :
    ¬ Balanced 0 (run (step (Device.streams fun _ _ => 0) .a10) (untouched (fun _ => 0) 0 0)
      [.probe true, .ioctl .disableUpstreamAer (fun _ => 0) 0, .remove]) := by
  intro h
  have hmask := h.restored id
  exact absurd hmask (by decide)

end

end FpgaPartialReconfig.Driver.Lifetime
