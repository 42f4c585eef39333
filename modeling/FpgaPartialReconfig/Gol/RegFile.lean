/-
  The Game of Life persona behind its register file.

  `gol_persona` connects the persona to a register file of PIO cores, one at each address of
  `registers`. The file is generated, and a parameter (`RegFile`): of its cores it is assumed
  that a write to an output stays until the next one, that a read of an input returns what is
  at its port, and that the persona's own clear pulse resets the outputs, the control register
  that asked for it included. The reset controllers in between keep that up for some cycles;
  what is read and written meanwhile may be lost.

  Left out: `pr_logic_rst`, which is low from when the region is programmed, and the PIO
  registers other than `DATA`.
-/
import FpgaPartialReconfig.Driver.PrCore
import FpgaPartialReconfig.Gol.Moderator
import FpgaPartialReconfig.Lib.Hosted

namespace FpgaPartialReconfig.Gol

open Driver (Addr U32)

inductive Register where
  | personaId | control | prHost (k : Nat) | hostPr (k : Nat)
  deriving DecidableEq, Repr

/-- The base addresses in `reg_file`. -/
def registers : List (U32 × Register) :=
  [(0x00, .personaId), (0x10, .control)] ++
    (List.range 8).map (fun k => (0x20 + 0x10 * BitVec.ofNat 32 k, .prHost k)) ++
    (List.range 8).map fun k => (0xa0 + 0x10 * BitVec.ofNat 32 k, .hostPr k)

def decode (ofs : U32) : Option Register := registers.lookup ofs

/-- A register file. What it drives, a read and a write depend on `clr`, the level of
    `io_clr_reset` in the cycle: the reset is asynchronous. -/
structure RegFile where
  File : Type
  step : Bool → File → File
  /-- What is at the ports, and the address. -/
  read : Bool → (Nat → U32) → U32 → File → U32
  write : Bool → U32 → U32 → File → File
  control : Bool → File → U32
  hostPr : Bool → File → Nat → U32
  /-- The longest reset, in cycles after the pulse. -/
  held : Nat
  /-- What is left of a reset. -/
  clearing : File → Nat
  clearing_le : ∀ f, clearing f ≤ held
  clearing_step : ∀ f, clearing (step false f) = clearing f - 1
  clearing_write : ∀ clr ofs v f, clearing (write clr ofs v f) = clearing f
  control_reset : ∀ f, 0 < clearing f → control false f = 0
  step_reset : ∀ clr f, clr = true ∨ 0 < clearing f → control false (step clr f) = 0
  step_there : ∀ f, clearing f = 0 →
    control false (step false f) = control false f ∧ hostPr false (step false f) = hostPr false f
  write_control : ∀ ofs v f, clearing f = 0 → decode ofs = some .control →
    control false (write false ofs v f) = v ∧
      hostPr false (write false ofs v f) = hostPr false f
  write_hostPr : ∀ ofs k v f, clearing f = 0 → decode ofs = some (.hostPr k) →
    control false (write false ofs v f) = control false f ∧
      hostPr false (write false ofs v f) = Function.update (hostPr false f) k v
  read_prHost : ∀ ofs k prHost f, clearing f = 0 → decode ofs = some (.prHost k) →
    read false prHost ofs f = prHost k

/-! ## A file of PIO cores -/

structure PioCores (held : Nat) where
  control : U32
  hostPr : Nat → U32
  clearing : Fin (held + 1)

namespace PioCores

variable {held : Nat}

def InReset (clr : Bool) (f : PioCores held) : Prop := clr = true ∨ 0 < f.clearing.val

instance (clr : Bool) (f : PioCores held) : Decidable (f.InReset clr) :=
  inferInstanceAs (Decidable (_ ∨ _))

def step (clr : Bool) (f : PioCores held) : PioCores held where
  control := if f.InReset clr then 0 else f.control
  hostPr := if f.InReset clr then fun _ => 0 else f.hostPr
  clearing := if clr = true then Fin.last held else ⟨f.clearing - 1, by omega⟩

/-- In a reset zero is read. -/
def read (clr : Bool) (prHost : Nat → U32) (ofs : U32) (f : PioCores held) : U32 :=
  if f.InReset clr then 0
  else
    match decode ofs with
    | some .personaId => 0x00676F6C#32
    | some .control => f.control
    | some (.prHost k) => prHost k
    | some (.hostPr k) => f.hostPr k
    | none => 0

/-- In a reset what is written is lost. -/
def write (clr : Bool) (ofs v : U32) (f : PioCores held) : PioCores held :=
  if f.InReset clr then f
  else
    match decode ofs with
    | some .control => { f with control := v }
    | some (.hostPr k) => { f with hostPr := Function.update f.hostPr k v }
    | _ => f

theorem not_inReset {f : PioCores held} (h : f.clearing.val = 0) : ¬ f.InReset false := by
  unfold InReset
  rw [h]
  decide

theorem inReset_of_pos {f : PioCores held} (h : 0 < f.clearing.val) : f.InReset false := Or.inr h

theorem write_clearing (clr : Bool) (ofs v : U32) (f : PioCores held) :
    (write clr ofs v f).clearing = f.clearing := by
  unfold write
  split
  · rfl
  · split <;> rfl

end PioCores

/-- Reset controllers that hold the reset for `held` cycles. -/
def pioCores (held : Nat) : RegFile where
  File := PioCores held
  step := PioCores.step
  read := PioCores.read
  write := PioCores.write
  control clr f := if f.InReset clr then 0 else f.control
  hostPr clr f := if f.InReset clr then fun _ => 0 else f.hostPr
  held := held
  clearing f := f.clearing.val
  clearing_le f := Nat.le_of_lt_succ f.clearing.isLt
  clearing_step _ := rfl
  clearing_write clr ofs v f := congrArg Fin.val (PioCores.write_clearing clr ofs v f)
  control_reset _ h := if_pos (PioCores.inReset_of_pos h)
  step_reset clr f h := by
    have hcontrol : (PioCores.step clr f).control = 0 := if_pos h
    rw [hcontrol, ite_self]
  step_there f h := by
    have hthere := PioCores.not_inReset h
    have hstays : ¬ (PioCores.step false f).InReset false :=
      PioCores.not_inReset (congrArg (· - 1) h)
    simp only [hthere, hstays, if_false]
    exact ⟨if_neg hthere, if_neg hthere⟩
  write_control ofs v f h hreg := by
    have hthere := PioCores.not_inReset h
    have hwrite : PioCores.write false ofs v f = { f with control := v } := by
      simp only [PioCores.write, hthere, if_false, hreg]
    have hstays : ¬ PioCores.InReset false { f with control := v } := hthere
    simp only [hwrite, hthere, hstays, if_false, and_self]
  write_hostPr ofs k v f h hreg := by
    have hthere := PioCores.not_inReset h
    have hwrite : PioCores.write false ofs v f =
        { f with hostPr := Function.update f.hostPr k v } := by
      simp only [PioCores.write, hthere, if_false, hreg]
    have hstays : ¬ PioCores.InReset false { f with hostPr := Function.update f.hostPr k v } :=
      hthere
    simp only [hwrite, hthere, hstays, if_false, and_self]
  read_prHost ofs k prHost f h hreg := by
    simp only [PioCores.read, PioCores.not_inReset h, if_false, hreg]

/-- The persona and its register file. -/
structure Region (F : RegFile) where
  moderator : Moderator
  file : F.File

namespace Region

variable {F : RegFile}

def control (g : Region F) : U32 := F.control g.moderator.localClrIoReg g.file

def hostPr (g : Region F) : Nat → U32 := F.hostPr g.moderator.localClrIoReg g.file

def clearing (g : Region F) : Nat := F.clearing g.file

/-- What the persona has at the ports of the file. -/
def prHost (g : Region F) (k : Nat) : U32 := if h : k < 3 then g.moderator.prHost ⟨k, h⟩ else 0

def moderatorIn (g : Region F) : ModeratorIn where
  prLogicRst := false
  hostCntrlRegister := g.control
  hostPr := g.hostPr

def step (g : Region F) : Region F where
  moderator := g.moderator.step g.moderatorIn
  file := F.step g.moderator.localClrIoReg g.file

def read (g : Region F) (ofs : U32) : U32 := F.read g.moderator.localClrIoReg g.prHost ofs g.file

def write (g : Region F) (ofs v : U32) : Region F :=
  { g with file := F.write g.moderator.localClrIoReg ofs v g.file }

/-- A read in BAR 4 of the region at `regionOffset`. -/
def get (regionOffset : U32) (a : Addr) (g : Region F) : U32 :=
  match a with
  | .prBar ofs => g.read (ofs - regionOffset)
  | _ => 0

def put (regionOffset : U32) (a : Addr) (v : U32) (g : Region F) : Region F :=
  match a with
  | .prBar ofs => g.write (ofs - regionOffset) v
  | _ => g

theorem get_add (regionOffset ofs : U32) (g : Region F) :
    get regionOffset (.prBar (ofs + regionOffset)) g = g.read ofs := by
  show g.read (ofs + regionOffset - regionOffset) = _
  rw [BitVec.add_sub_cancel]

theorem put_add (regionOffset ofs v : U32) (g : Region F) :
    put regionOffset (.prBar (ofs + regionOffset)) v g = g.write ofs v := by
  show g.write (ofs + regionOffset - regionOffset) v = _
  rw [BitVec.add_sub_cancel]

variable (F) in
/-- The region with a host that takes its time. -/
def device (regionOffset : U32) (wait : Nat → Nat) :
    Bus.Device Addr U32 (Hosted.State (Region F)) :=
  Hosted.device step (get regionOffset) (put regionOffset) wait

/-! ## The persona in the region -/

section
variable {g : Region F}

theorem moderator_step (g : Region F) :
    g.step.moderator = g.moderator.step g.moderatorIn := rfl

@[simp] theorem moderator_write (g : Region F) (ofs v : U32) :
    (g.write ofs v).moderator = g.moderator := rfl

theorem step_localClrIoRegQ (g : Region F) :
    g.step.moderator.localClrIoRegQ = g.control.getLsbD 0 := rfl

theorem step_localClrIoReg (g : Region F) : g.step.moderator.localClrIoReg =
    (!g.moderator.localClrIoRegQ && g.control.getLsbD 0) := rfl

theorem runs (h : g.moderator.localClrIoReg = false) : g.moderator.Runs g.moderatorIn := ⟨rfl, h⟩

/-- Without its bit there is no clear pulse. -/
theorem step_no_pulse (hcontrol : g.control = 0) : g.step.moderator.localClrIoReg = false := by
  rw [step_localClrIoReg, hcontrol]
  exact Bool.and_false _

/-- The bit that brings about a clear pulse is still there with it, -/
def Wf (g : Region F) : Prop :=
  g.moderator.localClrIoReg = true → g.moderator.localClrIoRegQ = true

theorem wf_step (g : Region F) : g.step.Wf := by
  unfold Wf
  rw [step_localClrIoReg, step_localClrIoRegQ, Bool.and_eq_true]
  exact And.right

/-- so that the pulse is one cycle. -/
theorem Wf.step_pulse (h : g.Wf) (hclear : g.moderator.localClrIoReg = true) :
    g.step.moderator.localClrIoReg = false := by
  rw [step_localClrIoReg, h hclear]
  rfl

/-! ## The file in the region -/

theorem control_eq (hclear : g.moderator.localClrIoReg = false) :
    g.control = F.control false g.file := congrArg (F.control · g.file) hclear

theorem hostPr_eq (hclear : g.moderator.localClrIoReg = false) :
    g.hostPr = F.hostPr false g.file := congrArg (F.hostPr · g.file) hclear

theorem file_step (hclear : g.moderator.localClrIoReg = false) :
    g.step.file = F.step false g.file := congrArg (F.step · g.file) hclear

theorem file_write (hclear : g.moderator.localClrIoReg = false) (ofs v : U32) :
    (g.write ofs v).file = F.write false ofs v g.file :=
  congrArg (F.write · ofs v g.file) hclear

theorem clearing_le (g : Region F) : g.clearing ≤ F.held := F.clearing_le g.file

theorem step_clearing (hclear : g.moderator.localClrIoReg = false) :
    g.step.clearing = g.clearing - 1 := by
  unfold clearing
  rw [file_step hclear, F.clearing_step]

@[simp] theorem write_clearing (g : Region F) (ofs v : U32) :
    (g.write ofs v).clearing = g.clearing := F.clearing_write _ ofs v g.file

/-- A reset takes the control register back. -/
theorem step_control_reset (hnext : g.step.moderator.localClrIoReg = false)
    (hreset : g.moderator.localClrIoReg = true ∨ 0 < g.clearing) : g.step.control = 0 :=
  (control_eq hnext).trans (F.step_reset _ g.file hreset)

/-- Without one the host's registers stay. -/
theorem step_registers (hclear : g.moderator.localClrIoReg = false) (hclearing : g.clearing = 0)
    (hnext : g.step.moderator.localClrIoReg = false) :
    g.step.control = g.control ∧ g.step.hostPr = g.hostPr ∧ g.step.clearing = 0 := by
  obtain ⟨hcontrol, hhost⟩ := F.step_there g.file hclearing
  rw [control_eq hnext, hostPr_eq hnext, control_eq hclear, hostPr_eq hclear, file_step hclear,
    step_clearing hclear, hclearing]
  exact ⟨hcontrol, hhost, rfl⟩

theorem step_control_zero (hclear : g.moderator.localClrIoReg = false) (hcontrol : g.control = 0) :
    g.step.control = 0 := by
  have hnext := step_no_pulse hcontrol
  obtain hclearing | hclearing := Nat.eq_zero_or_pos g.clearing
  · exact (step_registers hclear hclearing hnext).1.trans hcontrol
  · exact step_control_reset hnext (Or.inr hclearing)

theorem write_control {ofs : U32} (hreg : decode ofs = some .control)
    (hclear : g.moderator.localClrIoReg = false) (hclearing : g.clearing = 0) (v : U32) :
    (g.write ofs v).control = v ∧ (g.write ofs v).hostPr = g.hostPr := by
  have hwrite := F.write_control ofs v g.file hclearing hreg
  rw [← file_write hclear] at hwrite
  rw [hostPr_eq hclear]
  exact ⟨(control_eq (g := g.write ofs v) hclear).trans hwrite.1,
    (hostPr_eq (g := g.write ofs v) hclear).trans hwrite.2⟩

theorem write_control_reset (hclear : g.moderator.localClrIoReg = false)
    (hclearing : 0 < g.clearing) (ofs v : U32) : (g.write ofs v).control = 0 := by
  rw [← write_clearing g ofs v] at hclearing
  exact (control_eq (g := g.write ofs v) hclear).trans (F.control_reset _ hclearing)

theorem write_control_zero {ofs : U32} (hreg : decode ofs = some .control)
    (hclear : g.moderator.localClrIoReg = false) : (g.write ofs 0).control = 0 := by
  obtain hclearing | hclearing := Nat.eq_zero_or_pos g.clearing
  · exact (write_control hreg hclear hclearing 0).1
  · exact write_control_reset hclear hclearing ofs 0

theorem write_hostPr {ofs : U32} {k : Nat} (hreg : decode ofs = some (.hostPr k))
    (hclear : g.moderator.localClrIoReg = false) (hclearing : g.clearing = 0) (v : U32) :
    (g.write ofs v).control = g.control ∧
      (g.write ofs v).hostPr = Function.update g.hostPr k v := by
  have hwrite := F.write_hostPr ofs k v g.file hclearing hreg
  rw [← file_write hclear] at hwrite
  rw [control_eq hclear, hostPr_eq hclear]
  exact ⟨(control_eq (g := g.write ofs v) hclear).trans hwrite.1,
    (hostPr_eq (g := g.write ofs v) hclear).trans hwrite.2⟩

theorem read_prHost {ofs : U32} {k : Nat} (hreg : decode ofs = some (.prHost k)) (hk : k < 3)
    (hclear : g.moderator.localClrIoReg = false) (hclearing : g.clearing = 0) :
    g.read ofs = g.moderator.prHost ⟨k, hk⟩ := by
  unfold read
  rw [hclear, F.read_prHost ofs k g.prHost g.file hclearing hreg]
  exact dif_pos hk

end

end Region

end FpgaPartialReconfig.Gol
