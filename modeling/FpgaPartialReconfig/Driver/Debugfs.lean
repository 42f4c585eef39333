/-
  The debugfs interface of the fpga driver.

  A card has two control files. `state` takes one-character commands: '1' and '0' mask the
  upstream bridge's errors and put the old mask back, '3' and '4' deploy and remove the
  subdrivers, '5' prints the configuration ROM. `base_dtb` takes a device tree to deploy in
  the place of the one in the ROM. Both change the one `state` of the card and its list of
  deployed subdevices.

  A `Write` is one write to either file with everything the driver meets while it serves it:
  whether the buffer is allocated and filled, the device tree that libfdt finds (in the ROM
  or in the buffer, past whose end it may well read), and how each step of each probe ends.
  The allocation number of an `Fdev` stands for its address.

  Left out: messages, device names, the saved PCI state of the card itself, and the link
  retraining after '0'; none of them touches what is modelled.
-/
import FpgaPartialReconfig.Driver.Aer
import FpgaPartialReconfig.Lib.Runs

namespace FpgaPartialReconfig.Driver.Debugfs

/-! ## Cards, trees and writes -/

def ENOMEM : Int := 12

/-- `PCI_STD_RESOURCE_END + 1`. -/
def altrPciCvpNumBars : Nat := 6

def numRegs : Nat := 3

/-- The strings `ST_IDLE`, `ST_AER_DISABLED` and `ST_BASE_PROBED`, compared as pointers. -/
inductive PrivState where
  | idle | aerDisabled | baseProbed
  deriving DecidableEq, Repr

/-- The entries of `fpga_drv_tab`. -/
inductive FpgaDrvEntry where
  | altPr
  deriving DecidableEq, Repr

def FpgaDrvEntry.id : FpgaDrvEntry → String
  | .altPr => "altr,pr-ip-core"

def fpgaDrvTab : List FpgaDrvEntry := [.altPr]

def fpgaDrvLookup (id : String) : Option FpgaDrvEntry :=
  fpgaDrvTab.find? fun p => id = p.id

/-- A deployed subdevice: where it was allocated, whose `remove` it has, and its registers
    (a BAR and an offset in it). -/
structure Fdev where
  allocation : Nat
  drv : FpgaDrvEntry
  bar : U32
  offset : U32
  deriving DecidableEq, Repr

/-- What the driver has its subdrivers do. -/
inductive SubdrvCall where
  | probe (fdev : Fdev) (ret : Int)
  | remove (fdev : Fdev)
  deriving DecidableEq, Repr

/-- `struct fpga_pcie_priv` and the hardware behind it, with the subdriver calls so far. -/
structure Priv where
  upstreamDev : Option Upstream
  barMapped : Nat → Bool
  aerUerrMaskReg : U32
  state : PrivState
  fdevList : List Fdev
  allocations : Nat
  calls : List SubdrvCall

/-- What `fpga_pcie_probe` leaves for the files. -/
def fpgaPcieProbe (upstreamDev : Option Upstream) (barMapped : Nat → Bool) : Priv where
  upstreamDev := upstreamDev
  barMapped := barMapped
  aerUerrMaskReg := 0
  state := .idle
  fdevList := []
  allocations := 0
  calls := []

/-- A node of a device tree: what `fdt_get_name` and `fdt_getprop` find for it. -/
structure FdtNode where
  name : Option String
  compatible : Option String
  reg : Option (List Byte)
  deriving Repr

/-- A device tree: the answer of `fdt_check_header`, and the nodes that `fdt_next_node`
    goes through. -/
structure Fdt where
  checkHeader : Int
  nodes : List FdtNode
  deriving Repr

/-- How the steps of `fpga_pcie_probe_one` end. -/
structure ProbeSteps where
  allocated : Bool
  setName : Int
  deviceAdd : Int
  probe : Int
  deriving Repr

inductive File where
  | state | baseDtb
  deriving DecidableEq, Repr

/-- A write of `bytes` to a control file. `beyond` is the byte behind an empty buffer, and
    `steps k` is for the probe of node `k`. -/
structure Write where
  file : File
  bytes : List Byte
  allocated : Bool
  copied : Bool
  beyond : Byte
  fdt : Fdt
  steps : Nat → ProbeSteps

/-! ## Subdrivers -/

/-- Cell `i` of a `reg` property, which is big-endian. -/
def fdt32ToCpu (reg : List Byte) (i : Nat) : U32 :=
  reg.getD (4 * i) 0 ++ reg.getD (4 * i + 1) 0 ++ reg.getD (4 * i + 2) 0 ++ reg.getD (4 * i + 3) 0

/-- What to probe for a node: its driver, BAR and offset. -/
def probeTarget (barMapped : Nat → Bool) (node : FdtNode) :
    Option (FpgaDrvEntry × U32 × U32) := do
  let _ ← node.name
  let compat ← node.compatible
  let drv ← fpgaDrvLookup compat
  let reg ← node.reg
  if reg.length ≠ numRegs * 4 then
    none
  else if (fdt32ToCpu reg 0).toNat < altrPciCvpNumBars ∧
      barMapped (fdt32ToCpu reg 0).toNat = true then
    some (drv, fdt32ToCpu reg 0, fdt32ToCpu reg 1)
  else
    none

def fpgaPcieProbeOne (drv : FpgaDrvEntry) (bar offset : U32) (steps : ProbeSteps)
    (priv : Priv) : Int × Priv :=
  if steps.allocated = false then (- ENOMEM, priv)
  else
    let fdev : Fdev := ⟨priv.allocations, drv, bar, offset⟩
    let priv := { priv with allocations := priv.allocations + 1 }
    if steps.setName ≠ 0 then (steps.setName, priv)
    else if steps.deviceAdd ≠ 0 then (steps.deviceAdd, priv)
    else
      let priv := { priv with calls := priv.calls ++ [.probe fdev steps.probe] }
      if steps.probe ≠ 0 then (steps.probe, priv)
      else (0, { priv with fdevList := fdev :: priv.fdevList })

/-- The loop over the nodes of a tree, from node `k` on. -/
def probeNodes (steps : Nat → ProbeSteps) : Nat → List FdtNode → Priv → Priv
  | _, [], priv => priv
  | k, node :: nodes, priv =>
    match probeTarget priv.barMapped node with
    | none => probeNodes steps (k + 1) nodes priv
    | some (drv, bar, offset) =>
      probeNodes steps (k + 1) nodes (fpgaPcieProbeOne drv bar offset (steps k) priv).2

def fpgaPcieProbeAllSubdrivers (fdt : Fdt) (steps : Nat → ProbeSteps) (priv : Priv) :
    Int × Priv :=
  if fdt.checkHeader ≠ 0 then (fdt.checkHeader, priv)
  else (0, { probeNodes steps 0 fdt.nodes priv with state := .baseProbed })

def fpgaPcieRemoveOne (fdev : Fdev) (priv : Priv) : Priv :=
  { priv with calls := priv.calls ++ [.remove fdev] }

/-- The loop over the list: each device is unlinked and then removed. -/
def removeFdevs : List Fdev → Priv → Priv
  | [], priv => priv
  | fdev :: fdevs, priv =>
    removeFdevs fdevs (fpgaPcieRemoveOne fdev { priv with fdevList := fdevs })

def fpgaPcieRemoveAllSubdrivers (priv : Priv) : Priv :=
  { removeFdevs priv.fdevList priv with state := .idle }

/-! ## The files -/

/-- `buf[0]`. -/
def Write.command (w : Write) : Byte := w.bytes.headD w.beyond

def Write.count (w : Write) : Int := w.bytes.length

def fpgaPcieStateWriteFile (w : Write) (priv : Priv) : Int × Priv :=
  if w.allocated = false then (- ENOMEM, priv)
  else if w.copied = false then (-EFAULT, priv)
  else if w.command = 0x31#8 then
    if priv.state = .aerDisabled then (w.count, priv)
    else
      let priv := fpgaPcieRemoveAllSubdrivers priv
      (w.count,
        { priv with
          aerUerrMaskReg := (disableUpstreamAer priv.upstreamDev).1
          upstreamDev := (disableUpstreamAer priv.upstreamDev).2
          state := .aerDisabled })
  else if w.command = 0x30#8 then
    if priv.state = .aerDisabled then
      (w.count,
        { priv with
          upstreamDev := priv.upstreamDev.map (setAerUerrMaskReg · priv.aerUerrMaskReg)
          state := .idle })
    else if priv.state = .idle then (w.count, priv)
    else (-EINVAL, priv)
  else if w.command = 0x33#8 then
    if priv.state = .idle then (w.count, (fpgaPcieProbeAllSubdrivers w.fdt w.steps priv).2)
    else if priv.state = .baseProbed then (w.count, priv)
    else (-EINVAL, priv)
  else if w.command = 0x34#8 then
    if priv.state = .baseProbed then (w.count, fpgaPcieRemoveAllSubdrivers priv)
    else if priv.state = .idle then (w.count, priv)
    else (-EINVAL, priv)
  -- printing the ROM only reads it
  else if w.command = 0x35#8 then (w.count, priv)
  else (-EINVAL, priv)

def fpgaPcieBaseDtbWriteFile (w : Write) (priv : Priv) : Int × Priv :=
  if w.allocated = false then (- ENOMEM, priv)
  else if w.copied = false then (-EFAULT, priv)
  else
    (w.count,
      (fpgaPcieProbeAllSubdrivers w.fdt w.steps (fpgaPcieRemoveAllSubdrivers priv)).2)

/-- The card after a write. -/
def write (priv : Priv) (w : Write) : Priv :=
  match w.file with
  | .state => (fpgaPcieStateWriteFile w priv).2
  | .baseDtb => (fpgaPcieBaseDtbWriteFile w priv).2

/-! ## What they change -/

theorem removeFdevs_fdevList (fdevs : List Fdev) (priv : Priv) (h : priv.fdevList = fdevs) :
    (removeFdevs fdevs priv).fdevList = [] := by
  induction fdevs generalizing priv with
  | nil => exact h
  | cons fdev fdevs ih =>
    unfold removeFdevs
    exact ih _ rfl

theorem removeFdevs_rest (fdevs : List Fdev) (priv : Priv) :
    (removeFdevs fdevs priv).upstreamDev = priv.upstreamDev ∧
      (removeFdevs fdevs priv).aerUerrMaskReg = priv.aerUerrMaskReg := by
  induction fdevs generalizing priv with
  | nil => exact ⟨rfl, rfl⟩
  | cons fdev fdevs ih =>
    unfold removeFdevs
    exact ih _

@[simp] theorem removeAll_fdevList (priv : Priv) :
    (fpgaPcieRemoveAllSubdrivers priv).fdevList = [] :=
  removeFdevs_fdevList _ _ rfl

@[simp] theorem removeAll_state (priv : Priv) :
    (fpgaPcieRemoveAllSubdrivers priv).state = .idle := rfl

@[simp] theorem removeAll_upstreamDev (priv : Priv) :
    (fpgaPcieRemoveAllSubdrivers priv).upstreamDev = priv.upstreamDev :=
  (removeFdevs_rest _ _).1

theorem probeOne_rest (drv : FpgaDrvEntry) (bar offset : U32) (steps : ProbeSteps)
    (priv : Priv) :
    (fpgaPcieProbeOne drv bar offset steps priv).2.upstreamDev = priv.upstreamDev ∧
      (fpgaPcieProbeOne drv bar offset steps priv).2.aerUerrMaskReg = priv.aerUerrMaskReg := by
  unfold fpgaPcieProbeOne
  split_ifs <;> exact ⟨rfl, rfl⟩

theorem probeNodes_rest (steps : Nat → ProbeSteps) (k : Nat) (nodes : List FdtNode)
    (priv : Priv) :
    (probeNodes steps k nodes priv).upstreamDev = priv.upstreamDev ∧
      (probeNodes steps k nodes priv).aerUerrMaskReg = priv.aerUerrMaskReg := by
  induction nodes generalizing k priv with
  | nil => exact ⟨rfl, rfl⟩
  | cons node nodes ih =>
    unfold probeNodes
    split
    · exact ih _ _
    · rename_i drv bar offset _
      have hone := probeOne_rest drv bar offset (steps k) priv
      have hrest := ih (k + 1) (fpgaPcieProbeOne drv bar offset (steps k) priv).2
      exact ⟨hrest.1.trans hone.1, hrest.2.trans hone.2⟩

/-- Deploying a tree leaves the bridge alone, and changes the state only to
    `ST_BASE_PROBED`. -/
theorem probeAll_rest (fdt : Fdt) (steps : Nat → ProbeSteps) (priv : Priv) :
    (fpgaPcieProbeAllSubdrivers fdt steps priv).2.upstreamDev = priv.upstreamDev ∧
      (fpgaPcieProbeAllSubdrivers fdt steps priv).2.aerUerrMaskReg = priv.aerUerrMaskReg ∧
      ((fpgaPcieProbeAllSubdrivers fdt steps priv).2.state = priv.state ∨
        (fpgaPcieProbeAllSubdrivers fdt steps priv).2.state = .baseProbed) := by
  unfold fpgaPcieProbeAllSubdrivers
  split
  · exact ⟨rfl, rfl, .inl rfl⟩
  · have hnodes := probeNodes_rest steps 0 fdt.nodes priv
    exact ⟨hnodes.1, hnodes.2, .inr rfl⟩

/-- A `base_dtb` write that gets as far as replacing the deployed tree. -/
def Write.Redeploys (w : Write) : Prop :=
  w.file = .baseDtb ∧ w.allocated = true ∧ w.copied = true

/-- A '3' that reaches its command. -/
def Write.DeploysRom (w : Write) : Prop :=
  w.file = .state ∧ w.allocated = true ∧ w.copied = true ∧ w.command = 0x33#8

/-- All that a write to `state` can do. -/
theorem stateWrite_cases (priv : Priv) (w : Write) (hfile : w.file = .state) :
    (fpgaPcieStateWriteFile w priv).2 = priv ∨
    (priv.state ≠ .aerDisabled ∧ (fpgaPcieStateWriteFile w priv).2 =
      { fpgaPcieRemoveAllSubdrivers priv with
        aerUerrMaskReg := (disableUpstreamAer priv.upstreamDev).1
        upstreamDev := (disableUpstreamAer priv.upstreamDev).2
        state := .aerDisabled }) ∨
    (priv.state = .aerDisabled ∧ (fpgaPcieStateWriteFile w priv).2 =
      { priv with
        upstreamDev := priv.upstreamDev.map (setAerUerrMaskReg · priv.aerUerrMaskReg)
        state := .idle }) ∨
    (w.DeploysRom ∧ priv.state = .idle ∧
      (fpgaPcieStateWriteFile w priv).2 = (fpgaPcieProbeAllSubdrivers w.fdt w.steps priv).2) ∨
    (priv.state = .baseProbed ∧
      (fpgaPcieStateWriteFile w priv).2 = fpgaPcieRemoveAllSubdrivers priv) := by
  unfold fpgaPcieStateWriteFile
  by_cases hallocated : w.allocated = false
  · exact .inl (by rw [if_pos hallocated])
  rw [if_neg hallocated]
  by_cases hcopied : w.copied = false
  · exact .inl (by rw [if_pos hcopied])
  rw [if_neg hcopied]
  by_cases hdisable : w.command = 0x31#8
  · rw [if_pos hdisable]
    by_cases hstate : priv.state = .aerDisabled
    · exact .inl (by rw [if_pos hstate])
    · rw [if_neg hstate, ← removeAll_upstreamDev priv]
      exact .inr (.inl ⟨hstate, rfl⟩)
  rw [if_neg hdisable]
  by_cases henable : w.command = 0x30#8
  · rw [if_pos henable]
    by_cases hstate : priv.state = .aerDisabled
    · rw [if_pos hstate]
      exact .inr (.inr (.inl ⟨hstate, rfl⟩))
    · rw [if_neg hstate, apply_ite Prod.snd, ite_self]
      exact .inl rfl
  rw [if_neg henable]
  by_cases hprobe : w.command = 0x33#8
  · rw [if_pos hprobe]
    by_cases hstate : priv.state = .idle
    · rw [if_pos hstate]
      have hdeploys : w.DeploysRom :=
        ⟨hfile, by simpa using hallocated, by simpa using hcopied, hprobe⟩
      exact .inr (.inr (.inr (.inl ⟨hdeploys, hstate, rfl⟩)))
    · rw [if_neg hstate, apply_ite Prod.snd, ite_self]
      exact .inl rfl
  rw [if_neg hprobe]
  by_cases hremove : w.command = 0x34#8
  · rw [if_pos hremove]
    by_cases hstate : priv.state = .baseProbed
    · rw [if_pos hstate]
      exact .inr (.inr (.inr (.inr ⟨hstate, rfl⟩)))
    · rw [if_neg hstate, apply_ite Prod.snd, ite_self]
      exact .inl rfl
  rw [if_neg hremove, apply_ite Prod.snd, ite_self]
  exact .inl rfl

/-- A write to `base_dtb` replaces the deployed tree, unless it fails before that. -/
theorem baseDtbWrite_cases (priv : Priv) (w : Write) (hfile : w.file = .baseDtb) :
    (¬ w.Redeploys ∧ (fpgaPcieBaseDtbWriteFile w priv).2 = priv) ∨
    (w.Redeploys ∧ (fpgaPcieBaseDtbWriteFile w priv).2 =
      (fpgaPcieProbeAllSubdrivers w.fdt w.steps (fpgaPcieRemoveAllSubdrivers priv)).2) := by
  unfold fpgaPcieBaseDtbWriteFile Write.Redeploys
  by_cases hallocated : w.allocated = false
  · rw [if_pos hallocated]
    exact .inl ⟨by simp [hallocated], rfl⟩
  rw [if_neg hallocated]
  by_cases hcopied : w.copied = false
  · rw [if_pos hcopied]
    exact .inl ⟨by simp [hcopied], rfl⟩
  rw [if_neg hcopied]
  exact .inr ⟨⟨hfile, by simpa using hallocated, by simpa using hcopied⟩, rfl⟩

theorem write_redeploys (priv : Priv) {w : Write} (h : w.Redeploys) :
    write priv w =
      (fpgaPcieProbeAllSubdrivers w.fdt w.steps (fpgaPcieRemoveAllSubdrivers priv)).2 := by
  unfold write
  rw [h.1]
  rcases baseDtbWrite_cases priv w h.1 with ⟨hnot, -⟩ | ⟨-, heq⟩
  · exact absurd h hnot
  · exact heq

/-- All that a write can do. -/
theorem write_cases (priv : Priv) (w : Write) :
    write priv w = priv ∨
    (priv.state ≠ .aerDisabled ∧ write priv w =
      { fpgaPcieRemoveAllSubdrivers priv with
        aerUerrMaskReg := (disableUpstreamAer priv.upstreamDev).1
        upstreamDev := (disableUpstreamAer priv.upstreamDev).2
        state := .aerDisabled }) ∨
    (priv.state = .aerDisabled ∧ write priv w =
      { priv with
        upstreamDev := priv.upstreamDev.map (setAerUerrMaskReg · priv.aerUerrMaskReg)
        state := .idle }) ∨
    (w.DeploysRom ∧ priv.state = .idle ∧
      write priv w = (fpgaPcieProbeAllSubdrivers w.fdt w.steps priv).2) ∨
    (priv.state = .baseProbed ∧ write priv w = fpgaPcieRemoveAllSubdrivers priv) ∨
    (w.Redeploys ∧ write priv w =
      (fpgaPcieProbeAllSubdrivers w.fdt w.steps (fpgaPcieRemoveAllSubdrivers priv)).2) := by
  cases hfile : w.file with
  | state =>
    have heq : write priv w = (fpgaPcieStateWriteFile w priv).2 := by
      unfold write
      rw [hfile]
    rw [heq]
    rcases stateWrite_cases priv w hfile with h | h | h | h | h
    · exact .inl h
    · exact .inr (.inl h)
    · exact .inr (.inr (.inl h))
    · exact .inr (.inr (.inr (.inl h)))
    · exact .inr (.inr (.inr (.inr (.inl h))))
  | baseDtb =>
    have heq : write priv w = (fpgaPcieBaseDtbWriteFile w priv).2 := by
      unfold write
      rw [hfile]
    rw [heq]
    rcases baseDtbWrite_cases priv w hfile with ⟨-, h⟩ | h
    · exact .inl h
    · exact .inr (.inr (.inr (.inr (.inr h))))

end FpgaPartialReconfig.Driver.Debugfs
