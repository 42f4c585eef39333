/-
  The reader of device tree blobs that the fpga driver is linked with, and the two loops of
  the driver over the nodes of a blob: one prints them, one probes the subdrivers.

  A blob is bytes somewhere in the memory of the kernel, at `fdt`; its fields, its tags and
  the cells of its properties are big-endian. Offsets into the structure block are `int`s and
  wrap, pointers have 64 bits. From version 17 on the header says how long the structure block
  is, and `fdtOffsetPtr` keeps to it; before that nothing does.

  The loops have a number of rounds, and `none` is the answer where these are used up.
  `fdt_next_node` is called with no depth, as the driver does it. Messages are left out.
-/
import FpgaPartialReconfig.Lib.CString
import FpgaPartialReconfig.Driver.UioName
import FpgaPartialReconfig.Driver.Debugfs

namespace FpgaPartialReconfig.Driver.Blob

open CString

/-! ## Numbers -/

def FDT_MAGIC : Nat := 0xd00dfeed
def FDT_SW_MAGIC : Nat := 2 ^ 32 - 1 - FDT_MAGIC

def FDT_FIRST_SUPPORTED_VERSION : Nat := 0x10
def FDT_LAST_SUPPORTED_VERSION : Nat := 0x11

def FDT_BEGIN_NODE : Nat := 0x1
def FDT_END_NODE : Nat := 0x2
def FDT_PROP : Nat := 0x3
def FDT_NOP : Nat := 0x4
def FDT_END : Nat := 0x9

def FDT_TAGSIZE : Nat := 4

def FDT_ERR_NOTFOUND : Int := 1
def FDT_ERR_BADOFFSET : Int := 4
def FDT_ERR_BADSTATE : Int := 7
def FDT_ERR_TRUNCATED : Int := 8
def FDT_ERR_BADMAGIC : Int := 9
def FDT_ERR_BADVERSION : Int := 10
def FDT_ERR_BADSTRUCTURE : Int := 11
def FDT_ERR_INTERNAL : Int := 13

/-- An `int` as an `unsigned int`. -/
def toUnsigned (x : Int) : Nat := (x % 2 ^ 32).toNat

/-- `p + x` on pointers. -/
def ptrAdd (p : Nat) (x : Int) : Nat := ((p + x) % 2 ^ 64).toNat

/-- `FDT_TAGALIGN`, and back to an `int`. -/
def fdtTagalign (x : Int) : Int := ((x + 3) / 4 * 4).bmod (2 ^ 32)

/-! ## The header -/

/-- `fdt32_to_cpu` of the word at `p`. -/
def fdt32 (mem : Memory) (p : Nat) : U32 :=
  mem p ++ mem (p + 1) ++ mem (p + 2) ++ mem (p + 3)

def fdtMagic (mem : Memory) (fdt : Nat) : Nat := (fdt32 mem fdt).toNat
def fdtTotalsize (mem : Memory) (fdt : Nat) : Nat := (fdt32 mem (fdt + 4)).toNat
def fdtOffDtStruct (mem : Memory) (fdt : Nat) : Nat := (fdt32 mem (fdt + 8)).toNat
def fdtOffDtStrings (mem : Memory) (fdt : Nat) : Nat := (fdt32 mem (fdt + 12)).toNat
def fdtVersion (mem : Memory) (fdt : Nat) : Nat := (fdt32 mem (fdt + 20)).toNat
def fdtLastCompVersion (mem : Memory) (fdt : Nat) : Nat := (fdt32 mem (fdt + 24)).toNat
def fdtSizeDtStruct (mem : Memory) (fdt : Nat) : Nat := (fdt32 mem (fdt + 36)).toNat

def fdtCheckHeader (mem : Memory) (fdt : Nat) : Int :=
  if fdtMagic mem fdt = FDT_MAGIC then
    if fdtVersion mem fdt < FDT_FIRST_SUPPORTED_VERSION then -FDT_ERR_BADVERSION
    else if FDT_LAST_SUPPORTED_VERSION < fdtLastCompVersion mem fdt then -FDT_ERR_BADVERSION
    else 0
  else if fdtMagic mem fdt = FDT_SW_MAGIC then
    if fdtSizeDtStruct mem fdt = 0 then -FDT_ERR_BADSTATE
    else 0
  else -FDT_ERR_BADMAGIC

/-! ## Tags -/

/-- `_fdt_offset_ptr`. -/
def structPtr (mem : Memory) (fdt : Nat) (offset : Int) : Nat :=
  ptrAdd (ptrAdd fdt (fdtOffDtStruct mem fdt)) offset

def fdtOffsetPtr (mem : Memory) (fdt : Nat) (offset : Int) (len : Nat) : Option Nat :=
  let sum := (toUnsigned offset + len) % 2 ^ 32
  if 0x11 ≤ fdtVersion mem fdt ∧ (sum < toUnsigned offset ∨ fdtSizeDtStruct mem fdt < sum) then
    none
  else
    let p := structPtr mem fdt offset
    if ptrAdd p len < p then none else some p

/-- The loop over the name of a node; the answer is the offset behind it, or `none` inside
    where the block is over first. -/
def skipName (mem : Memory) (fdt : Nat) : Nat → Int → Option (Option Int)
  | 0, _ => none
  | rounds + 1, offset =>
    match fdtOffsetPtr mem fdt offset 1 with
    | none => some none
    | some p =>
      if mem p = 0 then some (some (addInt offset 1))
      else skipName mem fdt rounds (addInt offset 1)

/-- The `switch` of `fdt_next_tag`: the offset behind what belongs to the tag. -/
def skipTag (mem : Memory) (fdt rounds tag : Nat) (offset : Int) : Option (Option Int) :=
  if tag = FDT_BEGIN_NODE then skipName mem fdt rounds offset
  else if tag = FDT_PROP then
    match fdtOffsetPtr mem fdt offset 4 with
    | none => some none
    | some lenp => some (some (addInt offset (8 + (fdt32 mem lenp).toNat)))
  else if tag = FDT_END ∨ tag = FDT_END_NODE ∨ tag = FDT_NOP then some (some offset)
  else some none

/-- The tag at `startoffset`, and `*nextoffset`. -/
def fdtNextTag (mem : Memory) (fdt rounds : Nat) (startoffset : Int) : Option (Nat × Int) :=
  match fdtOffsetPtr mem fdt startoffset FDT_TAGSIZE with
  | none => some (FDT_END, -FDT_ERR_TRUNCATED)
  | some tagp =>
    let tag := (fdt32 mem tagp).toNat
    match skipTag mem fdt rounds tag (addInt startoffset FDT_TAGSIZE) with
    | none => none
    | some none => some (FDT_END, -FDT_ERR_BADSTRUCTURE)
    | some (some offset) =>
      match fdtOffsetPtr mem fdt startoffset (toUnsigned (offset - startoffset)) with
      | none => some (FDT_END, -FDT_ERR_BADSTRUCTURE)
      | some _ => some (tag, fdtTagalign offset)

/-! ## Nodes -/

/-- The check of an offset that is to be one of a `tag`. -/
def checkOffset (mem : Memory) (fdt rounds tag : Nat) (offset : Int) : Option Int :=
  if offset < 0 ∨ offset % FDT_TAGSIZE ≠ 0 then some (-FDT_ERR_BADOFFSET)
  else do
    let next ← fdtNextTag mem fdt rounds offset
    if next.1 ≠ tag then some (-FDT_ERR_BADOFFSET) else some next.2

def fdtCheckNodeOffset (mem : Memory) (fdt rounds : Nat) (offset : Int) : Option Int :=
  checkOffset mem fdt rounds FDT_BEGIN_NODE offset

def fdtCheckPropOffset (mem : Memory) (fdt rounds : Nat) (offset : Int) : Option Int :=
  checkOffset mem fdt rounds FDT_PROP offset

/-- The loop of `fdt_next_node`. -/
def nextNodeFrom (mem : Memory) (fdt rounds : Nat) : Nat → Int → Option Int
  | 0, _ => none
  | n + 1, offset => do
    let next ← fdtNextTag mem fdt rounds offset
    if next.1 = FDT_BEGIN_NODE then some offset
    else if next.1 = FDT_END then
      if 0 ≤ next.2 ∨ next.2 = -FDT_ERR_TRUNCATED then some (-FDT_ERR_NOTFOUND)
      else some next.2
    else nextNodeFrom mem fdt rounds n next.2

def fdtNextNode (mem : Memory) (fdt rounds : Nat) (offset : Int) : Option Int :=
  if 0 ≤ offset then do
    let next ← fdtCheckNodeOffset mem fdt rounds offset
    if next < 0 then some next else nextNodeFrom mem fdt rounds rounds next
  else nextNodeFrom mem fdt rounds rounds 0

/-- The name, and `*len`: its length or an error. -/
def fdtGetName (mem : Memory) (fdt rounds : Nat) (nodeoffset : Int) :
    Option (Option Nat × Int) :=
  if fdtCheckHeader mem fdt ≠ 0 then some (none, fdtCheckHeader mem fdt)
  else do
    let err ← fdtCheckNodeOffset mem fdt rounds nodeoffset
    if err < 0 then some (none, err)
    else
      let name := ptrAdd (structPtr mem fdt nodeoffset) 4
      let len ← strlen mem name rounds
      some (some name, len)

/-! ## Properties -/

def fdtString (mem : Memory) (fdt : Nat) (stroffset : Int) : Nat :=
  ptrAdd (ptrAdd fdt (fdtOffDtStrings mem fdt)) stroffset

def fdtStringEq (mem : Memory) (fdt rounds : Nat) (stroffset : Int) (s : List Byte) :
    Option Bool := do
  let p := fdtString mem fdt stroffset
  let len ← strlen mem p rounds
  some (decide (len = s.length ∧ memcmp mem p s = 0))

def nextprop (mem : Memory) (fdt rounds : Nat) : Nat → Int → Option Int
  | 0, _ => none
  | n + 1, offset => do
    let next ← fdtNextTag mem fdt rounds offset
    if next.1 = FDT_END then
      if 0 ≤ next.2 then some (-FDT_ERR_BADSTRUCTURE) else some next.2
    else if next.1 = FDT_PROP then some offset
    else if next.1 = FDT_NOP then nextprop mem fdt rounds n next.2
    else some (-FDT_ERR_NOTFOUND)

def fdtFirstPropertyOffset (mem : Memory) (fdt rounds : Nat) (nodeoffset : Int) :
    Option Int := do
  let offset ← fdtCheckNodeOffset mem fdt rounds nodeoffset
  if offset < 0 then some offset else nextprop mem fdt rounds rounds offset

def fdtNextPropertyOffset (mem : Memory) (fdt rounds : Nat) (offset : Int) : Option Int := do
  let offset ← fdtCheckPropOffset mem fdt rounds offset
  if offset < 0 then some offset else nextprop mem fdt rounds rounds offset

/-- The property, and `*lenp`: its length or an error. -/
def fdtGetPropertyByOffset (mem : Memory) (fdt rounds : Nat) (offset : Int) :
    Option (Option Nat × Int) := do
  let err ← fdtCheckPropOffset mem fdt rounds offset
  if err < 0 then some (none, err)
  else
    let prop := structPtr mem fdt offset
    some (some prop, (fdt32 mem (prop + 4)).toInt)

/-- The loop of `fdt_get_property_namelen`. -/
def propertyFrom (mem : Memory) (fdt rounds : Nat) (name : List Byte) :
    Nat → Int → Option (Option Nat × Int)
  | 0, _ => none
  | n + 1, offset =>
    if offset < 0 then some (none, offset)
    else do
      let found ← fdtGetPropertyByOffset mem fdt rounds offset
      match found with
      | (none, _) => some (none, -FDT_ERR_INTERNAL)
      | (some prop, len) =>
        let same ← fdtStringEq mem fdt rounds (fdt32 mem (prop + 8)).toInt name
        if same = true then some (some prop, len)
        else
          let next ← fdtNextPropertyOffset mem fdt rounds offset
          propertyFrom mem fdt rounds name n next

def fdtGetProperty (mem : Memory) (fdt rounds : Nat) (nodeoffset : Int) (name : List Byte) :
    Option (Option Nat × Int) := do
  let offset ← fdtFirstPropertyOffset mem fdt rounds nodeoffset
  propertyFrom mem fdt rounds name rounds offset

/-- The data of the property, and `*lenp`. -/
def fdtGetprop (mem : Memory) (fdt rounds : Nat) (nodeoffset : Int) (name : List Byte) :
    Option (Option Nat × Int) := do
  let found ← fdtGetProperty mem fdt rounds nodeoffset name
  some (found.1.map (ptrAdd · 12), found.2)

/-! ## The driver -/

open Debugfs (ProbeSteps FpgaDrvEntry fpgaDrvTab numRegs altrPciCvpNumBars)

/-- `for (offset = fdt_next_node(fdt, 0, NULL); offset >= 0; ...)` from the node at `offset`
    on, which is the `k`-th. -/
def nodeLoop {σ : Type} (mem : Memory) (fdt rounds : Nat) (body : Nat → Int → σ → Option σ) :
    Nat → Nat → Int → σ → Option σ
  | 0, _, _, _ => none
  | n + 1, k, offset, s =>
    if offset < 0 then some s
    else do
      let s ← body k offset s
      let next ← fdtNextNode mem fdt rounds offset
      nodeLoop mem fdt rounds body n (k + 1) next s

def forNodes {σ : Type} (mem : Memory) (fdt rounds : Nat) (body : Nat → Int → σ → Option σ)
    (s : σ) : Option σ := do
  let offset ← fdtNextNode mem fdt rounds 0
  nodeLoop mem fdt rounds body rounds 0 offset s

def compatibleName : List Byte := Tool.bytesOf "compatible"

def regName : List Byte := Tool.bytesOf "reg"

/-- The string at `p`, as `%s` prints it. -/
def readString (mem : Memory) (p rounds : Nat) : Option (List Byte) :=
  (strlen mem p rounds).map (cStringFrom mem p)

/-- What `dump_dtb` prints for a node. -/
inductive DumpLine where
  | noName (offset len : Int)
  | noCompatible (name : List Byte) (len : Int)
  | noReg (name : List Byte)
  | regSize (name : List Byte) (len : Int)
  | node (name compat : List Byte) (regs : List U32)
  deriving DecidableEq, Repr

def dumpNode (mem : Memory) (fdt rounds : Nat) (offset : Int) : Option DumpLine := do
  match ← fdtGetName mem fdt rounds offset with
  | (none, len) => some (.noName offset len)
  | (some name, _) =>
    let name ← readString mem name rounds
    match ← fdtGetprop mem fdt rounds offset compatibleName with
    | (none, len) => some (.noCompatible name len)
    | (some compat, _) =>
      match ← fdtGetprop mem fdt rounds offset regName with
      | (none, _) => some (.noReg name)
      | (some reg, len) =>
        if len ≠ numRegs * 4 then some (.regSize name len)
        else
          let compat ← readString mem compat rounds
          some (.node name compat [fdt32 mem reg, fdt32 mem (reg + 4), fdt32 mem (reg + 8)])

def dumpDtb (mem : Memory) (fdt rounds : Nat) : Option (List DumpLine) :=
  forNodes mem fdt rounds
    (fun _ offset lines => (dumpNode mem fdt rounds offset).map fun line => lines ++ [line]) []

def fpgaDrvLookup (mem : Memory) (id : Nat) : Option FpgaDrvEntry :=
  fpgaDrvTab.find? fun p => strcmp mem id (Tool.bytesOf p.id) = 0

/-- The body of the loop of `fpga_pcie_probe_all_subdrivers`. -/
def probeNode (mem : Memory) (fdt rounds : Nat) (steps : ProbeSteps) (offset : Int)
    (priv : Debugfs.Priv) : Option Debugfs.Priv := do
  match ← fdtGetName mem fdt rounds offset with
  | (none, _) => some priv
  | (some _, _) =>
    match ← fdtGetprop mem fdt rounds offset compatibleName with
    | (none, _) => some priv
    | (some compat, _) =>
      match fpgaDrvLookup mem compat with
      | none => some priv
      | some drv =>
        match ← fdtGetprop mem fdt rounds offset regName with
        | (none, _) => some priv
        | (some reg, len) =>
          if len ≠ numRegs * 4 then some priv
          else
            let bar := fdt32 mem reg
            if bar.toNat < altrPciCvpNumBars ∧ priv.barMapped bar.toNat = true then
              some (Debugfs.fpgaPcieProbeOne drv bar (fdt32 mem (reg + 4)) steps priv).2
            else some priv

def fpgaPcieProbeAllSubdrivers (mem : Memory) (fdt rounds : Nat) (steps : Nat → ProbeSteps)
    (priv : Debugfs.Priv) : Option (Int × Debugfs.Priv) :=
  if fdtCheckHeader mem fdt ≠ 0 then some (fdtCheckHeader mem fdt, priv)
  else do
    let priv ← forNodes mem fdt rounds
      (fun k offset priv => probeNode mem fdt rounds (steps k) offset priv) priv
    some (0, { priv with state := .baseProbed })

end FpgaPartialReconfig.Driver.Blob
