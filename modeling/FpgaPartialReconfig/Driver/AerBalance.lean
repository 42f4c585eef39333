/-
  Whether the fpga driver puts the upstream bridge's error mask back.

  Command '1' of the `state` file removes the subdevices, saves the mask and sets the error
  bits in it; '0' writes the saved mask back. The commands '3' and '4' look at the state
  first, so that no subdevice is deployed while the errors are masked. A write to `base_dtb`
  does not look: in the state `ST_AER_DISABLED` it deploys its tree, and leaves the card in
  `ST_IDLE` or `ST_BASE_PROBED` with the errors still masked and no command left that would
  restore the mask.

  `writes_balanced_iff`: apart from a bridge that had all the error bits set in the first
  place, a sequence of writes keeps the mask balanced exactly if it contains no such write.
-/
import FpgaPartialReconfig.Driver.Debugfs

namespace FpgaPartialReconfig.Driver.Debugfs

/-- The mask register of the upstream bridge. -/
def Priv.uerrMask (priv : Priv) : Option U32 := priv.upstreamDev.map Upstream.uerrMask

/-- The mask is as it was before the first '1' unless the state says otherwise, and where it
    is not, nothing is deployed. -/
structure AerBalanced (original : U32) (priv : Priv) : Prop where
  restored : priv.state = .idle ∨ priv.state = .baseProbed → priv.uerrMask = some original
  removed : priv.uerrMask ≠ some original → priv.fdevList = []

/-! ## The invariant of the allowed writes -/

/-- The mask is the original one, with the error bits set exactly in `ST_AER_DISABLED`. -/
structure AerInv (original : U32) (priv : Priv) : Prop where
  cap : ∃ dev, priv.upstreamDev = some dev ∧ dev.aerCap = true
  enabled : priv.state ≠ .aerDisabled → priv.uerrMask = some original
  disabled : priv.state = .aerDisabled → priv.uerrMask = some (original ||| aerErrBits) ∧
    priv.aerUerrMaskReg = original ∧ priv.fdevList = []

/-- With the errors masked in the first place there is nothing to restore; otherwise no tree
    may be deployed while they are masked by '1'. -/
def Allowed (original : U32) (priv : Priv) (w : Write) : Prop :=
  original ||| aerErrBits = original ∨ ¬ (w.Redeploys ∧ priv.state = .aerDisabled)

variable {original : U32}

theorem AerInv.balanced {priv : Priv} (h : AerInv original priv) :
    AerBalanced original priv where
  restored := by
    intro hstate
    refine h.enabled ?_
    intro hdisabled
    rw [hdisabled] at hstate
    simp at hstate
  removed := by
    intro hmask
    by_cases hstate : priv.state = .aerDisabled
    · exact (h.disabled hstate).2.2
    · exact absurd (h.enabled hstate) hmask

theorem uerrMask_congr {priv priv' : Priv} (h : priv'.upstreamDev = priv.upstreamDev) :
    priv'.uerrMask = priv.uerrMask := by
  unfold Priv.uerrMask
  rw [h]

/-- Outside `ST_AER_DISABLED` the invariant is about the bridge only. -/
theorem AerInv.of_enabled {priv priv' : Priv} (h : AerInv original priv)
    (hup : priv'.upstreamDev = priv.upstreamDev) (hstate : priv'.state ≠ .aerDisabled)
    (hmask : priv.uerrMask = some original) : AerInv original priv' where
  cap := by
    rw [hup]
    exact h.cap
  enabled := by
    intro _
    rw [uerrMask_congr hup]
    exact hmask
  disabled := by
    intro hdisabled
    exact absurd hdisabled hstate

theorem probeAll_enabled (fdt : Fdt) (steps : Nat → ProbeSteps) {priv : Priv}
    (h : priv.state ≠ .aerDisabled) :
    (fpgaPcieProbeAllSubdrivers fdt steps priv).2.state ≠ .aerDisabled := by
  rcases (probeAll_rest fdt steps priv).2.2 with hsame | hprobed
  · rw [hsame]
    exact h
  · rw [hprobed]
    decide

theorem AerInv.write {priv : Priv} {w : Write} (h : AerInv original priv)
    (hallowed : Allowed original priv w) : AerInv original (write priv w) := by
  obtain ⟨dev, hdev, hcap⟩ := h.cap
  rcases write_cases priv w with hsame | ⟨hstate, heq⟩ | ⟨hstate, heq⟩ | ⟨-, hstate, heq⟩ |
    ⟨hstate, heq⟩ | ⟨hredeploys, heq⟩
  · rw [hsame]
    exact h
  · -- '1' saves the original mask, as the invariant has it before
    have hmask : dev.uerrMask = original := by
      have := h.enabled hstate
      unfold Priv.uerrMask at this
      rw [hdev] at this
      simpa using this
    have hsaved : disableUpstreamAer priv.upstreamDev =
        (original, some (setAerUerrMaskReg dev (original ||| aerErrBits))) := by
      rw [hdev, disableUpstreamAer_some hcap, hmask]
    rw [heq, hsaved]
    refine ⟨⟨_, rfl, ?_⟩, fun hne => absurd rfl hne, fun _ => ⟨?_, rfl, removeAll_fdevList priv⟩⟩
    · rw [setAerUerrMaskReg_cap]
      exact hcap
    · simp only [Priv.uerrMask, Option.map_some, setAerUerrMaskReg_mask hcap]
  · -- '0' writes the saved mask back
    obtain ⟨-, hsaved, -⟩ := h.disabled hstate
    rw [heq, hdev, hsaved]
    refine ⟨⟨_, rfl, ?_⟩, fun _ => ?_, fun hdisabled => ?_⟩
    · rw [setAerUerrMaskReg_cap]
      exact hcap
    · simp only [Priv.uerrMask, Option.map_some, setAerUerrMaskReg_mask hcap]
    · exact absurd hdisabled nofun
  · have hne : priv.state ≠ .aerDisabled := by
      rw [hstate]
      decide
    rw [heq]
    exact h.of_enabled (probeAll_rest _ _ _).1 (probeAll_enabled _ _ hne) (h.enabled hne)
  · have hne : priv.state ≠ .aerDisabled := by
      rw [hstate]
      decide
    rw [heq]
    exact h.of_enabled (removeAll_upstreamDev priv) (by rw [removeAll_state]; decide)
      (h.enabled hne)
  · have hmask : priv.uerrMask = some original := by
      by_cases hstate : priv.state = .aerDisabled
      · rcases hallowed with hbits | hnot
        · rw [(h.disabled hstate).1, hbits]
        · exact absurd ⟨hredeploys, hstate⟩ hnot
      · exact h.enabled hstate
    rw [heq]
    refine h.of_enabled ?_ (probeAll_enabled _ _ (by rw [removeAll_state]; decide)) hmask
    rw [(probeAll_rest _ _ _).1, removeAll_upstreamDev]

/-! ## Any writes -/

/-- Whatever is written, the error bits are set in `ST_AER_DISABLED`. -/
def ErrorsMasked (priv : Priv) : Prop :=
  ∃ dev, priv.upstreamDev = some dev ∧ dev.aerCap = true ∧
    (priv.state = .aerDisabled → dev.uerrMask ||| aerErrBits = dev.uerrMask)

theorem ErrorsMasked.of_enabled {priv priv' : Priv} (h : ErrorsMasked priv)
    (hup : priv'.upstreamDev = priv.upstreamDev) (hstate : priv'.state ≠ .aerDisabled) :
    ErrorsMasked priv' := by
  obtain ⟨dev, hdev, hcap, -⟩ := h
  exact ⟨dev, hup.trans hdev, hcap, fun hdisabled => absurd hdisabled hstate⟩

theorem ErrorsMasked.write {priv : Priv} (w : Write) (h : ErrorsMasked priv) :
    ErrorsMasked (write priv w) := by
  have hkeep := h
  obtain ⟨dev, hdev, hcap, -⟩ := h
  rcases write_cases priv w with hsame | ⟨-, heq⟩ | ⟨-, heq⟩ | ⟨-, hstate, heq⟩ | ⟨-, heq⟩ |
    ⟨-, heq⟩
  · rw [hsame]
    exact hkeep
  · rw [heq, hdev]
    refine ⟨_, rfl, by rw [setAerUerrMaskReg_cap]; exact hcap, fun _ => ?_⟩
    rw [setAerUerrMaskReg_mask hcap, BitVec.or_assoc, BitVec.or_self]
  · rw [heq, hdev]
    exact ⟨_, rfl, by rw [setAerUerrMaskReg_cap]; exact hcap, nofun⟩
  · rw [heq]
    exact hkeep.of_enabled (probeAll_rest _ _ _).1
      (probeAll_enabled _ _ (by rw [hstate]; decide))
  · rw [heq]
    exact hkeep.of_enabled (removeAll_upstreamDev priv) (by rw [removeAll_state]; decide)
  · rw [heq]
    refine hkeep.of_enabled ?_ (probeAll_enabled _ _ (by rw [removeAll_state]; decide))
    rw [(probeAll_rest _ _ _).1, removeAll_upstreamDev]

/-- Deploying a tree while the errors are masked ends the state without restoring the mask. -/
theorem not_balanced_of_redeploys {priv : Priv} {w : Write} (h : ErrorsMasked priv)
    (hnot : ¬ Allowed original priv w) : ¬ AerBalanced original (write priv w) := by
  obtain ⟨hbits, hredeploys⟩ := not_or.mp hnot
  obtain ⟨hredeploys, hstate⟩ := not_not.mp hredeploys
  obtain ⟨dev, hdev, -, hmasked⟩ := h
  intro hbalanced
  have hup : (Debugfs.write priv w).upstreamDev = some dev := by
    rw [write_redeploys priv hredeploys, (probeAll_rest _ _ _).1, removeAll_upstreamDev, hdev]
  have hafter : (Debugfs.write priv w).state = .idle ∨
      (Debugfs.write priv w).state = .baseProbed := by
    rw [write_redeploys priv hredeploys]
    exact (probeAll_rest _ _ _).2.2
  have hmask : dev.uerrMask = original := by
    have := hbalanced.restored hafter
    unfold Priv.uerrMask at this
    rw [hup] at this
    simpa using this
  rw [← hmask] at hbits
  exact hbits (hmasked hstate)

/-! ## Runs -/

/-- The mask stays balanced all along a sequence of writes exactly if the bridge masks the
    errors anyway, or no tree is deployed in `ST_AER_DISABLED`. -/
theorem writes_balanced_iff (status original : U32) (barMapped : Nat → Bool)
    (ws : List Write) :
    let priv := fpgaPcieProbe (some ⟨true, status, original⟩) barMapped
    (∀ before after, ws = before ++ after → AerBalanced original (run write priv before)) ↔
      original ||| aerErrBits = original ∨
        ∀ before w after, ws = before ++ w :: after →
          ¬ (w.Redeploys ∧ (run write priv before).state = .aerDisabled) := by
  intro priv
  have hinv : AerInv original priv := ⟨⟨_, rfl, rfl⟩, fun _ => rfl, nofun⟩
  have hmasked : ErrorsMasked priv := ⟨_, rfl, rfl, nofun⟩
  have hiff : (∀ before after, ws = before ++ after →
      AerBalanced original (run write priv before)) ↔
      ∀ before w after, ws = before ++ w :: after →
        Allowed original (run write priv before) w :=
    holds_along_iff (fun _ _ h hw => AerInv.write h hw) (fun _ h => h.balanced)
      (fun _ w h => ErrorsMasked.write w h) (fun _ _ h hw => not_balanced_of_redeploys h hw)
      hinv hmasked ws
  rw [hiff]
  unfold Allowed
  by_cases hbits : original ||| aerErrBits = original
  · simp [hbits]
  · simp [hbits]

/-! ## A tree deployed while the errors are masked -/

/-- A successful write of one byte, with this tree for libfdt to find. -/
def oneByte (file : File) (byte : Byte) (fdt : Fdt) : Write where
  file := file
  bytes := [byte]
  allocated := true
  copied := true
  beyond := 0
  fdt := fdt
  steps _ := ⟨true, 0, 0, 0⟩

/-- A tree with a PR IP core at the start of BAR 0. -/
def prIpTree : Fdt where
  checkHeader := 0
  nodes := [⟨some "pr-ip", some "altr,pr-ip-core", some (List.replicate 12 0)⟩]

/-- '1' and then a tree: a subdevice is deployed, in `ST_BASE_PROBED`, with the errors of the
    bridge masked. -/
theorem writes_unbalanced :
    ¬ AerBalanced 0 (run write (fpgaPcieProbe (some ⟨true, 0, 0⟩) fun _ => true)
      [oneByte .state 0x31#8 prIpTree, oneByte .baseDtb 0xd0#8 prIpTree]) := by
  intro h
  have hmask := h.restored (.inr (by decide))
  exact absurd hmask (by decide)

end FpgaPartialReconfig.Driver.Debugfs
