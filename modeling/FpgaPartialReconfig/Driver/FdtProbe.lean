/-
  The subdrivers over a blob, and over the list of its nodes.

  `Debugfs.Fdt` has a device tree as the list of what libfdt finds for its nodes. Where the
  memory holds a blob with a tree, probing the subdrivers over the bytes is probing them over
  that list for the nodes behind the root, in preorder (`probeAll_refines`).
-/
import FpgaPartialReconfig.Driver.FdtScan

namespace FpgaPartialReconfig.Driver.Blob

open CString Flatten
open Debugfs (ProbeSteps numRegs altrPciCvpNumBars)

/-! ## Bytes and strings -/

def text (s : List Byte) : String := String.ofList (s.map fun b => Char.ofNat b.toNat)

theorem toNat_ofNat_byte (b : Byte) : (Char.ofNat b.toNat).toNat = b.toNat := by
  have hlt := b.isLt
  have hvalid : b.toNat.isValidChar := Or.inl (by omega)
  unfold Char.ofNat
  rw [dif_pos hvalid]
  rfl

theorem bytesOf_text (s : List Byte) : Tool.bytesOf (text s) = s := by
  unfold Tool.bytesOf text
  rw [String.toList_ofList, List.map_map]
  have hback : ∀ b ∈ s, ((fun c : Char => BitVec.ofNat 8 c.toNat) ∘
      fun b : Byte => Char.ofNat b.toNat) b = id b := by
    intro b _
    change BitVec.ofNat 8 (Char.ofNat b.toNat).toNat = b
    rw [toNat_ofNat_byte, BitVec.ofNat_toNat, BitVec.setWidth_eq]
  rw [List.map_congr_left hback, List.map_id]

theorem text_bytesOf_id : text (Tool.bytesOf (Debugfs.FpgaDrvEntry.id .altPr)) =
    Debugfs.FpgaDrvEntry.id .altPr := by decide

/-- The lookup in memory is the one by the string that is there. -/
theorem fpgaDrvLookup_holds {mem : Memory} {p : Nat} {s : List Byte} (h : HoldsFrom mem p s) :
    fpgaDrvLookup mem p = Debugfs.fpgaDrvLookup (text s) := by
  have hnul : 0 ∉ Tool.bytesOf (Debugfs.FpgaDrvEntry.id .altPr) := by decide
  have hsame : strcmp mem p (Tool.bytesOf (Debugfs.FpgaDrvEntry.id .altPr)) = 0 ↔
      text s = Debugfs.FpgaDrvEntry.id .altPr := by
    rw [strcmp_eq_zero hnul]
    constructor
    · intro hholds
      rw [holdsFrom_unique h hholds]
      exact text_bytesOf_id
    · intro htext
      rw [← htext, bytesOf_text]
      exact h
  have hdecide : decide (strcmp mem p (Tool.bytesOf (Debugfs.FpgaDrvEntry.id .altPr)) = 0) =
      decide (text s = Debugfs.FpgaDrvEntry.id .altPr) := decide_eq_decide.mpr hsame
  unfold fpgaDrvLookup Debugfs.fpgaDrvLookup Debugfs.fpgaDrvTab
  rw [List.find?_cons, List.find?_cons, hdecide]
  rfl

/-! ## One node -/

/-- A node as the driver's model has it. -/
def Label.fdtNode (a : Label) : Debugfs.FdtNode where
  name := some (text a.name)
  compatible := (a.get compatibleName).map fun compat => text (compat.takeWhile (· ≠ 0))
  reg := a.get regName

/-- What becomes of the card when the node is the `k`-th one. -/
def probeStep (steps : Nat → ProbeSteps) (k : Nat) (node : Debugfs.FdtNode)
    (priv : Debugfs.Priv) : Debugfs.Priv :=
  match Debugfs.probeTarget priv.barMapped node with
  | none => priv
  | some (drv, bar, offset) => (Debugfs.fpgaPcieProbeOne drv bar offset (steps k) priv).2

theorem probeNodes_numbered (steps : Nat → ProbeSteps) (k : Nat) (nodes : List Debugfs.FdtNode)
    (priv : Debugfs.Priv) :
    Debugfs.probeNodes steps k nodes priv = numbered (probeStep steps) k nodes priv := by
  induction nodes generalizing k priv with
  | nil => rfl
  | cons node nodes ih =>
    unfold Debugfs.probeNodes numbered probeStep
    cases htarget : Debugfs.probeTarget priv.barMapped node with
    | none => exact ih (k + 1) priv
    | some target => exact ih (k + 1) _

theorem numbered_map {σ α β : Type} (f : α → β) (step : Nat → β → σ → σ) (k : Nat) (xs : List α)
    (s : σ) : numbered (fun k x s => step k (f x) s) k xs s = numbered step k (xs.map f) s := by
  induction xs generalizing k s with
  | nil => rfl
  | cons x xs ih => exact ih (k + 1) (step k (f x) s)

section
variable {mem : Memory} {fdt rounds o : Nat} {tokens ts : List Token} {name : List Byte}

theorem probeNode_cursor (he : Encodes mem fdt tokens)
    (h : Cursor mem fdt (blockSize tokens) o (.beginNode name :: ts))
    (hrounds : fdtTotalsize mem fdt ≤ rounds)
    (hterm : ∀ compat, Label.get ⟨name, propsOf ts⟩ compatibleName = some compat → 0 ∈ compat)
    (steps : Nat → ProbeSteps) (k : Nat) (priv : Debugfs.Priv) :
    probeNode mem fdt rounds (steps k) o priv =
      some (probeStep steps k (Label.fdtNode ⟨name, propsOf ts⟩) priv) := by
  unfold probeNode probeStep Debugfs.probeTarget Label.fdtNode
  rw [fdtGetName_cursor he h hrounds, Option.bind_eq_bind, Option.bind_some]
  simp only [Option.bind_eq_bind, Option.bind_some]
  cases hcompat : Label.get ⟨name, propsOf ts⟩ compatibleName with
  | none =>
    rw [fdtGetprop_none he h hrounds hcompat]
    rfl
  | some compat =>
    obtain ⟨p, hgetprop, hbytes, -⟩ := fdtGetprop_some he h hrounds hcompat
    have hlookup := fpgaDrvLookup_holds (holds_of_bytesAt hbytes (hterm compat hcompat))
    simp only [hgetprop, hlookup, Option.map_some, Option.bind_some]
    cases hdrv : Debugfs.fpgaDrvLookup (text (compat.takeWhile (· ≠ 0))) with
    | none => rfl
    | some drv =>
      simp only [Option.bind_some]
      cases hreg : Label.get ⟨name, propsOf ts⟩ regName with
      | none =>
        simp only [fdtGetprop_none he h hrounds hreg]
        rfl
      | some reg =>
        obtain ⟨q, hgetreg, hcells, -⟩ := fdtGetprop_some he h hrounds hreg
        simp only [hgetreg, Option.bind_some]
        by_cases hsize : reg.length = numRegs * 4
        · have h0 := fdt32_bytesAt hcells (show 4 * 0 + 4 ≤ reg.length by rw [hsize]; decide)
          have h1 := fdt32_bytesAt hcells (show 4 * 1 + 4 ≤ reg.length by rw [hsize]; decide)
          rw [Nat.mul_zero, Nat.add_zero] at h0
          rw [Nat.mul_one] at h1
          have hlen : ¬ (reg.length : Int) ≠ numRegs * 4 := by
            rw [hsize]
            decide
          rw [if_neg hlen, if_neg (not_not_intro hsize), ← h0, ← h1]
          by_cases hbar : (fdt32 mem q).toNat < altrPciCvpNumBars ∧
              priv.barMapped (fdt32 mem q).toNat = true
          · rw [if_pos hbar, if_pos hbar]
          · rw [if_neg hbar, if_neg hbar]
        · have hlen : (reg.length : Int) ≠ numRegs * 4 := by
            intro heq
            exact hsize (Int.ofNat.inj heq)
          rw [if_pos hlen, if_pos hsize]

end

/-! ## The whole tree -/

/-- The device tree in the memory, as the driver's model has it. -/
def fdtOf (tree : Rose Label) (tokens : List Token) : Debugfs.Fdt where
  checkHeader := 0
  nodes := (visited tree tokens).map Label.fdtNode

theorem probeAll_refines {mem : Memory} {fdt rounds : Nat} {tokens : List Token}
    {tree : Rose Label} (he : Encodes mem fdt tokens) (hs : Spells tree tokens)
    (hterm : Terminated tree) (hrounds : fdtTotalsize mem fdt ≤ rounds)
    (steps : Nat → ProbeSteps) (priv : Debugfs.Priv) :
    fpgaPcieProbeAllSubdrivers mem fdt rounds steps priv =
      some (Debugfs.fpgaPcieProbeAllSubdrivers (fdtOf tree tokens) steps priv) := by
  have hseen := seen_tree hs
  have hbody : Steps mem fdt tokens
      (fun k offset priv => probeNode mem fdt rounds (steps k) offset priv)
      (fun k x priv => probeStep steps k (Label.fdtNode x.1) priv) := by
    intro k o name ts priv hcursor hmem
    rw [hseen] at hmem
    obtain ⟨a, ha, hlabel⟩ := List.mem_map.mp hmem
    have hsame : a = ⟨name, propsOf ts⟩ := congrArg Prod.fst hlabel
    exact probeNode_cursor he hcursor hrounds (by rw [← hsame]; exact hterm a ha) steps k priv
  have hloop := forNodes_spells he hs hbody hrounds priv
  have hnodes : ((visited tree tokens).map fun a => (a, -FDT_ERR_NOTFOUND)).map
      (fun x => Label.fdtNode x.1) = (fdtOf tree tokens).nodes := by
    rw [List.map_map]
    rfl
  rw [numbered_map (fun x : Label × Int => Label.fdtNode x.1) (probeStep steps), hnodes,
    ← probeNodes_numbered] at hloop
  unfold fpgaPcieProbeAllSubdrivers
  rw [if_neg (not_not_intro he.header), hloop]
  rfl

/-- All steps of every probe succeed. -/
def allSucceed : Nat → ProbeSteps := fun _ => ⟨true, 0, 0, 0⟩

def exampleCard : Debugfs.Priv := Debugfs.fpgaPcieProbe none fun bar => decide (bar = 2)

theorem probeAll_example :
    fpgaPcieProbeAllSubdrivers exampleMem exampleAddr 179 allSucceed exampleCard =
        some (Debugfs.fpgaPcieProbeAllSubdrivers (fdtOf exampleTree exampleTokens) allSucceed
          exampleCard) ∧
      (Debugfs.fpgaPcieProbeAllSubdrivers (fdtOf exampleTree exampleTokens) allSucceed
        exampleCard).2.fdevList = [⟨0, .altPr, 2, 0x1000⟩] :=
  ⟨probeAll_refines exampleEncodes exampleSpells exampleTerminated (by decide +kernel) allSucceed
    exampleCard, by decide⟩

end FpgaPartialReconfig.Driver.Blob
