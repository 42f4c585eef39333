/-
  The loops of the driver over a blob that holds a tree.

  The tokens of a tree are those of `Flatten.Rose.flat`, with FDT_NOP between them as one
  likes (`Spells`). Both loops go through the nodes in preorder, each once, and not through the
  root, which `fdt_next_node` starts from (`forNodes_encodes`). So `dump_dtb` prints one line a
  node, and the subdrivers are probed as over the list of nodes that `Debugfs.Fdt` has.

  The loops start at offset 0. If an FDT_NOP is there, in front of the root, they find no node
  and go through none (`visited`).
-/
import FpgaPartialReconfig.Driver.FdtBlob

namespace FpgaPartialReconfig.Driver.Blob

open CString Flatten
open Debugfs (numRegs)

/-! ## Trees -/

/-- A node: its name, and its properties with their data. -/
structure Label where
  name : List Byte
  props : List (List Byte × List Byte)
  deriving DecidableEq

def Label.opening (a : Label) : List Token :=
  .beginNode a.name :: a.props.map fun p => .prop p.1 p.2

def Label.closing : List Token := [.endNode]

/-- The first property of a name. -/
def Label.get (a : Label) (key : List Byte) : Option (List Byte) :=
  (a.props.find? fun p => p.1 = key).map Prod.snd

/-- The tokens of a tree, and FDT_NOPs. -/
def Spells (tree : Rose Label) (tokens : List Token) : Prop :=
  tokens.filter (· ≠ .nop) = tree.flat Label.opening Label.closing

/-- The nodes that the loops go through. -/
def visited (tree : Rose Label) (tokens : List Token) : List Label :=
  if tokens.head? = some .nop then [] else tree.preorder.tail

/-- Every list of compatible strings ends with a NUL. -/
def Terminated (tree : Rose Label) : Prop :=
  ∀ a ∈ tree.preorder, ∀ compat ∈ a.get compatibleName, (0 : Byte) ∈ compat

/-! ## A blob with a PR core, and FDT_NOPs here and there -/

def be32 (n : Nat) : List Byte :=
  [BitVec.ofNat 8 (n / 2 ^ 24), BitVec.ofNat 8 (n / 2 ^ 16), BitVec.ofNat 8 (n / 2 ^ 8),
    BitVec.ofNat 8 n]

def coreCompatible : List Byte := Tool.bytesOf "altr,pr-ip-core" ++ [0]

def coreReg : List Byte := be32 2 ++ be32 0x1000 ++ be32 0x40

def exampleTokens : List Token :=
  [.beginNode [], .beginNode (Tool.bytesOf "bus"), .nop, .prop compatibleName [0x61, 0],
    .beginNode (Tool.bytesOf "pr@0"), .prop compatibleName coreCompatible, .nop,
    .prop regName coreReg, .endNode, .nop, .endNode, .endNode]

def exampleTree : Rose Label :=
  .node ⟨[], []⟩ [.node ⟨Tool.bytesOf "bus", [(compatibleName, [0x61, 0])]⟩
    [.node ⟨Tool.bytesOf "pr@0", [(compatibleName, coreCompatible), (regName, coreReg)]⟩ []]]

/-- The header, the tokens and the names of the properties. -/
def exampleBytes : List Byte :=
  be32 0xd00dfeed ++ be32 179 ++ be32 40 ++ be32 164 ++ be32 40 ++ be32 17 ++ be32 16 ++ be32 0 ++
    be32 15 ++ be32 124 ++
  be32 1 ++ [0, 0, 0, 0] ++
  be32 1 ++ Tool.bytesOf "bus" ++ [0] ++ be32 4 ++
  be32 3 ++ be32 2 ++ be32 0 ++ [0x61, 0, 0, 0] ++
  be32 1 ++ Tool.bytesOf "pr@0" ++ [0, 0, 0, 0] ++
  be32 3 ++ be32 16 ++ be32 0 ++ coreCompatible ++ be32 4 ++
  be32 3 ++ be32 12 ++ be32 11 ++ coreReg ++
  be32 2 ++ be32 4 ++ be32 2 ++ be32 2 ++ be32 9 ++
  compatibleName ++ [0] ++ regName ++ [0]

def exampleAddr : Nat := 0x1000

def exampleMem : Memory := fun p => exampleBytes.getD (p - exampleAddr) 0

theorem exampleEncodes : Encodes exampleMem exampleAddr exampleTokens where
  header := by decide +kernel
  held := by decide +kernel
  declared := by decide +kernel
  inside := by decide +kernel
  int := by decide
  memory := by decide +kernel

theorem exampleSpells : Spells exampleTree exampleTokens := by
  unfold Spells
  decide

theorem exampleTerminated : Terminated exampleTree := by
  unfold Terminated
  decide

/-! ## What the reader sees of a node -/

def propsOf : List Token → List (List Byte × List Byte)
  | [] => []
  | t :: ts =>
    match t with
    | .prop key data => (key, data) :: propsOf ts
    | .nop => propsOf ts
    | _ => []

/-- The nodes, each with the error behind its last property. -/
def seen : List Token → List (Label × Int)
  | [] => []
  | t :: ts =>
    match t with
    | .beginNode name => (⟨name, propsOf ts⟩, propsEnd ts) :: seen ts
    | _ => seen ts

def Place.seen (place : Place) : Label × Int :=
  (⟨place.name, propsOf place.rest⟩, propsEnd place.rest)

theorem nodesFrom_seen (o : Nat) (ts : List Token) : (nodesFrom o ts).map Place.seen = seen ts := by
  induction ts generalizing o with
  | nil => rfl
  | cons t ts ih =>
    cases t with
    | beginNode name => exact congrArg (List.cons _) (ih _)
    | prop key data => exact ih _
    | endNode => exact ih _
    | nop => exact ih _

theorem propsFrom_propsOf (o : Nat) (ts : List Token) :
    (propsFrom o ts).map Prod.snd = propsOf ts := by
  induction ts generalizing o with
  | nil => rfl
  | cons t ts ih =>
    cases t with
    | beginNode name => rfl
    | prop key data => exact congrArg (List.cons _) (ih _)
    | endNode => rfl
    | nop => exact ih _

theorem propNamed_get (name key : List Byte) (o : Nat) (ts : List Token) :
    (propNamed key o ts).map (fun found => found.2.2) = Label.get ⟨name, propsOf ts⟩ key := by
  unfold propNamed Label.get
  rw [← propsFrom_propsOf o ts, List.find?_map, Option.map_map]
  rfl

theorem propsOf_filter (ts : List Token) : propsOf (ts.filter (· ≠ .nop)) = propsOf ts := by
  induction ts with
  | nil => rfl
  | cons t ts ih =>
    cases t with
    | beginNode name => rfl
    | prop key data => exact congrArg (List.cons _) ih
    | endNode => rfl
    | nop => exact ih

theorem propsEnd_filter (ts : List Token) : propsEnd (ts.filter (· ≠ .nop)) = propsEnd ts := by
  induction ts with
  | nil => rfl
  | cons t ts ih =>
    cases t with
    | beginNode name => rfl
    | prop key data => exact ih
    | endNode => rfl
    | nop => exact ih

theorem seen_filter (ts : List Token) : seen (ts.filter (· ≠ .nop)) = seen ts := by
  induction ts with
  | nil => rfl
  | cons t ts ih =>
    cases t with
    | beginNode name =>
      have hhead : (⟨name, propsOf (ts.filter (· ≠ .nop))⟩, propsEnd (ts.filter (· ≠ .nop))) =
          ((⟨name, propsOf ts⟩, propsEnd ts) : Label × Int) := by
        rw [propsOf_filter, propsEnd_filter]
      exact List.cons_eq_cons.mpr ⟨hhead, ih⟩
    | prop key data => exact ih
    | endNode => exact ih
    | nop => exact ih

/-- No property comes next, but another node or the end of this one. -/
def Stops (ts : List Token) : Prop := propsOf ts = [] ∧ propsEnd ts = -FDT_ERR_NOTFOUND

theorem props_then (props : List (List Byte × List Byte)) (rest : List Token) :
    propsOf (props.map (fun p => Token.prop p.1 p.2) ++ rest) = props ++ propsOf rest ∧
      propsEnd (props.map (fun p => Token.prop p.1 p.2) ++ rest) = propsEnd rest ∧
      seen (props.map (fun p => Token.prop p.1 p.2) ++ rest) = seen rest := by
  induction props with
  | nil => exact ⟨rfl, rfl, rfl⟩
  | cons p props ih => exact ⟨congrArg (List.cons p) ih.1, ih.2.1, ih.2.2⟩

theorem seen_opening (a : Label) (rest : List Token) :
    seen (a.opening ++ rest) =
      (⟨a.name, propsOf (a.props.map (fun p => Token.prop p.1 p.2) ++ rest)⟩,
        propsEnd (a.props.map (fun p => Token.prop p.1 p.2) ++ rest)) ::
        seen (a.props.map (fun p => Token.prop p.1 p.2) ++ rest) := rfl

theorem reads_seen :
    Reads Label.opening Label.closing Stops seen fun a => (a, -FDT_ERR_NOTFOUND) where
  opens a rest hstops := by
    obtain ⟨hprops, hend, hseen⟩ := props_then a.props rest
    rw [hstops.1, List.append_nil] at hprops
    rw [hstops.2] at hend
    rw [seen_opening, hprops, hend, hseen]
  closes _ := rfl
  stops_opening _ _ := ⟨rfl, rfl⟩
  stops_closing _ := ⟨rfl, rfl⟩

theorem seen_tree {tree : Rose Label} {tokens : List Token} (h : Spells tree tokens) :
    seen tokens = tree.preorder.map fun a => (a, -FDT_ERR_NOTFOUND) := by
  have hflat := reads_seen.flat tree []
  rw [List.append_nil, ← h, seen_filter] at hflat
  exact hflat.trans (List.append_nil _)

theorem head_of_spells {tree : Rose Label} {tokens : List Token} (h : Spells tree tokens)
    (hroot : tokens.head? ≠ some .nop) : ∃ name ts, tokens = .beginNode name :: ts := by
  unfold Spells at h
  cases tree with
  | node a children =>
    cases tokens with
    | nil => cases h
    | cons t ts =>
      cases t with
      | beginNode name => exact ⟨name, ts, rfl⟩
      | prop key data => cases h
      | endNode => cases h
      | nop => exact absurd rfl hroot

/-! ## The loop over the nodes -/

/-- `step` for each element of a list with its number. -/
def numbered {σ β : Type} (step : Nat → β → σ → σ) : Nat → List β → σ → σ
  | _, [], s => s
  | k, b :: bs, s => numbered step (k + 1) bs (step k b s)

section
variable {mem : Memory} {fdt rounds : Nat} {tokens : List Token} {σ : Type}
  {body : Nat → Int → σ → Option σ} {step : Nat → Label × Int → σ → σ}

/-- The body does its step at each node of the blob. -/
def Steps (mem : Memory) (fdt : Nat) (tokens : List Token) (body : Nat → Int → σ → Option σ)
    (step : Nat → Label × Int → σ → σ) : Prop :=
  ∀ k o name ts s, Cursor mem fdt (blockSize tokens) o (.beginNode name :: ts) →
    Place.seen ⟨o, name, ts⟩ ∈ seen tokens →
    body k o s = some (step k (Place.seen ⟨o, name, ts⟩) s)

theorem nodeLoop_cursor (he : Encodes mem fdt tokens) (hbody : Steps mem fdt tokens body step)
    (hrounds : fdtTotalsize mem fdt ≤ rounds) {places : List Place} {o : Nat} {ts : List Token}
    (h : Cursor mem fdt (blockSize tokens) o ts) (hplaces : nodesFrom o ts = places)
    (hseen : ∀ place ∈ places, place.seen ∈ seen tokens) {n : Nat} (hn : places.length < n)
    (k : Nat) (s : σ) :
    nodeLoop mem fdt rounds body n k (firstOffset places) s =
      some (numbered step k (places.map Place.seen) s) := by
  induction places generalizing o ts n k s with
  | nil =>
    obtain ⟨n, rfl⟩ := Nat.exists_eq_succ_of_ne_zero (Nat.ne_of_gt hn)
    exact if_pos (by decide : -FDT_ERR_NOTFOUND < 0)
  | cons place places ih =>
    obtain ⟨n, rfl⟩ := Nat.exists_eq_succ_of_ne_zero (Nat.ne_of_gt (Nat.zero_lt_of_lt hn))
    obtain ⟨hnode, hlater⟩ := h.node hplaces
    have hstep := hbody k place.offset place.name place.rest s hnode
      (hseen place List.mem_cons_self)
    have hnext := fdtNextNode_cursor (Within.of_encodes he) hnode (limit_le_rounds he hrounds)
    have hrest := ih hnode.tail hlater (fun p hp => hseen p (List.mem_cons_of_mem _ hp))
      (Nat.lt_of_succ_lt_succ hn) (k + 1) (step k place.seen s)
    rw [hlater] at hnext
    unfold nodeLoop firstOffset
    rw [if_neg (Int.not_lt.mpr (Int.natCast_nonneg place.offset)), hstep, Option.bind_eq_bind,
      Option.bind_some, hnext, Option.bind_eq_bind, Option.bind_some]
    exact hrest

theorem length_nodesFrom (o : Nat) (ts : List Token) : (nodesFrom o ts).length ≤ ts.length := by
  induction ts generalizing o with
  | nil => exact Nat.le_refl 0
  | cons t ts ih =>
    cases t with
    | beginNode name => exact Nat.succ_le_succ (ih _)
    | prop key data => exact Nat.le_succ_of_le (ih _)
    | endNode => exact Nat.le_succ_of_le (ih _)
    | nop => exact Nat.le_succ_of_le (ih _)

/-- The loop goes through the nodes in their order, from the second one on. -/
theorem forNodes_encodes (he : Encodes mem fdt tokens)
    (hroot : ∃ name ts, tokens = .beginNode name :: ts) (hbody : Steps mem fdt tokens body step)
    (hrounds : fdtTotalsize mem fdt ≤ rounds) (s : σ) :
    forNodes mem fdt rounds body s = some (numbered step 0 (seen tokens).tail s) := by
  obtain ⟨name, ts, rfl⟩ := hroot
  have hlimit := limit_le_rounds he hrounds
  have hcursor := Cursor.of_encodes he
  have hfirst := fdtNextNode_cursor (Within.of_encodes he) hcursor hlimit
  have htail : (seen (.beginNode name :: ts)).tail =
      (nodesFrom (0 + Token.size (.beginNode name)) ts).map Place.seen := (nodesFrom_seen _ ts).symm
  have hmem : ∀ place ∈ nodesFrom (0 + Token.size (.beginNode name)) ts,
      place.seen ∈ seen (.beginNode name :: ts) := by
    intro place hplace
    apply List.mem_of_mem_tail
    rw [htail]
    exact List.mem_map_of_mem hplace
  have hlength : (nodesFrom (0 + Token.size (.beginNode name)) ts).length < rounds :=
    Nat.lt_of_le_of_lt (length_nodesFrom _ ts) (Nat.lt_of_lt_of_le hcursor.tail.length_lt hlimit)
  have hloop := nodeLoop_cursor he hbody hrounds hcursor.tail rfl hmem hlength 0 s
  unfold forNodes
  change (fdtNextNode mem fdt rounds ((0 : Nat) : Int) >>= _) = _
  rw [hfirst, htail, Option.bind_eq_bind, Option.bind_some]
  exact hloop

/-- With an FDT_NOP in front there is no node to start from. -/
theorem forNodes_nop {ts : List Token} (he : Encodes mem fdt (.nop :: ts))
    (hrounds : fdtTotalsize mem fdt ≤ rounds) (s : σ) :
    forNodes mem fdt rounds body s = some s := by
  have hlimit := limit_le_rounds he hrounds
  have htag := fdtNextTag_cursor (Within.of_encodes he) (Cursor.of_encodes he) hlimit
  have hnext : fdtNextNode mem fdt rounds 0 = some (-FDT_ERR_BADOFFSET) := by
    unfold fdtNextNode fdtCheckNodeOffset checkOffset
    change fdtNextTag mem fdt rounds 0 = _ at htag
    rw [htag]
    rfl
  obtain ⟨n, rfl⟩ : ∃ n, rounds = n + 1 := by
    have hroom := (Cursor.of_encodes he).room
    exact ⟨rounds - 1, by omega⟩
  unfold forNodes
  rw [hnext]
  rfl

theorem forNodes_spells {tree : Rose Label} (he : Encodes mem fdt tokens)
    (hs : Spells tree tokens) (hbody : Steps mem fdt tokens body step)
    (hrounds : fdtTotalsize mem fdt ≤ rounds) (s : σ) :
    forNodes mem fdt rounds body s =
      some (numbered step 0 ((visited tree tokens).map fun a => (a, -FDT_ERR_NOTFOUND)) s) := by
  unfold visited
  split
  · rename_i hnop
    obtain ⟨ts, rfl⟩ := List.head?_eq_some_iff.mp hnop
    exact forNodes_nop he hrounds s
  · rename_i hroot
    rw [forNodes_encodes he (head_of_spells hs hroot) hbody hrounds, seen_tree hs, List.map_tail]

end

/-! ## One node -/

section
variable {mem : Memory} {fdt rounds o : Nat} {tokens ts : List Token} {name : List Byte}

theorem fdtGetprop_none {key : List Byte} (he : Encodes mem fdt tokens)
    (h : Cursor mem fdt (blockSize tokens) o (.beginNode name :: ts))
    (hrounds : fdtTotalsize mem fdt ≤ rounds)
    (hget : Label.get ⟨name, propsOf ts⟩ key = none) :
    fdtGetprop mem fdt rounds o key = some (none, propsEnd ts) := by
  rw [← propNamed_get name key (o + Token.size (.beginNode name)) ts] at hget
  exact fdtGetprop_missing he h hrounds (Option.map_eq_none_iff.mp hget)

theorem fdtGetprop_some {key data : List Byte} (he : Encodes mem fdt tokens)
    (h : Cursor mem fdt (blockSize tokens) o (.beginNode name :: ts))
    (hrounds : fdtTotalsize mem fdt ≤ rounds)
    (hget : Label.get ⟨name, propsOf ts⟩ key = some data) :
    ∃ p, fdtGetprop mem fdt rounds o key = some (some p, (data.length : Int)) ∧
      BytesAt mem p data ∧ data.length < rounds := by
  rw [← propNamed_get name key (o + Token.size (.beginNode name)) ts] at hget
  obtain ⟨found, hfound, rfl⟩ := Option.map_eq_some_iff.mp hget
  obtain ⟨hgetprop, hbytes⟩ := fdtGetprop_found he h hrounds hfound
  obtain ⟨rest, hcursor⟩ := h.tail.property (propNamed_spec hfound).1
  have hroom := hcursor.room
  have hlen := Token.len_le_size (.prop found.2.1 found.2.2)
  have hsize : Token.len (.prop found.2.1 found.2.2) = 12 + found.2.2.length := rfl
  have hlimit := limit_le_rounds he hrounds
  exact ⟨_, hgetprop, hbytes, by omega⟩

/-- Bytes with a NUL among them hold the string up to it. -/
theorem holds_of_bytesAt {p : Nat} {data : List Byte} (h : BytesAt mem p data)
    (hnul : (0 : Byte) ∈ data) : HoldsFrom mem p (data.takeWhile (· ≠ 0)) := by
  induction data generalizing p with
  | nil => cases hnul
  | cons b data ih =>
    by_cases hb : b = 0
    · have hstop : ¬ decide (b ≠ 0) = true := fun hne => (of_decide_eq_true hne) hb
      rw [List.takeWhile_cons, if_neg hstop]
      exact h.1.trans hb
    · have hrest := (List.mem_cons.mp hnul).resolve_left (fun hzero => hb hzero.symm)
      rw [List.takeWhile_cons, if_pos (decide_eq_true hb)]
      exact ⟨⟨h.1, hb⟩, ih h.2 hrest⟩

theorem bytesAt_getD {p : Nat} {data : List Byte} (h : BytesAt mem p data) {i : Nat}
    (hi : i < data.length) : mem (p + i) = data.getD i 0 := by
  induction data generalizing p i with
  | nil => exact absurd hi (Nat.not_lt_zero i)
  | cons b data ih =>
    cases i with
    | zero => exact h.1
    | succ i =>
      have hrest := ih h.2 (Nat.lt_of_succ_lt_succ hi)
      rw [Nat.add_assoc, Nat.add_comm 1 i] at hrest
      exact hrest

/-- A cell of a property that is long enough. -/
theorem fdt32_bytesAt {p : Nat} {reg : List Byte} (h : BytesAt mem p reg) {i : Nat}
    (hi : 4 * i + 4 ≤ reg.length) : fdt32 mem (p + 4 * i) = Debugfs.fdt32ToCpu reg i := by
  have h0 := bytesAt_getD h (show 4 * i < reg.length by omega)
  have h1 := bytesAt_getD h (show 4 * i + 1 < reg.length by omega)
  have h2 := bytesAt_getD h (show 4 * i + 2 < reg.length by omega)
  have h3 := bytesAt_getD h (show 4 * i + 3 < reg.length by omega)
  unfold fdt32 Debugfs.fdt32ToCpu
  rw [← h0, ← h1, ← h2, ← h3]
  rfl

theorem readString_of_holds {p : Nat} {s : List Byte} (h : HoldsFrom mem p s)
    (hrounds : s.length < rounds) : readString mem p rounds = some s := by
  unfold readString
  rw [strlen_of_holds h hrounds, Option.map_some, cStringFrom_of_holds h, List.take_length]

theorem length_takeWhile_lt {p : Byte → Bool} {data : List Byte} {n : Nat}
    (h : data.length < n) : (data.takeWhile p).length < n :=
  Nat.lt_of_le_of_lt (List.takeWhile_prefix p).length_le h

theorem name_lt_rounds (he : Encodes mem fdt tokens)
    (h : Cursor mem fdt (blockSize tokens) o (.beginNode name :: ts))
    (hrounds : fdtTotalsize mem fdt ≤ rounds) : name.length < rounds := by
  have hroom := h.room
  have hlen := Token.len_le_size (.beginNode name)
  have hbytes : Token.len (.beginNode name) = 4 + (name.length + 1) := rfl
  have hlimit := limit_le_rounds he hrounds
  omega

end

/-! ## Printing the tree -/

/-- The line for a node, with the error behind its last property. -/
def Label.dumpLine (a : Label) (missing : Int) : DumpLine :=
  match a.get compatibleName with
  | none => .noCompatible a.name missing
  | some compat =>
    match a.get regName with
    | none => .noReg a.name
    | some reg =>
      if reg.length ≠ numRegs * 4 then .regSize a.name reg.length
      else
        .node a.name (compat.takeWhile (· ≠ 0))
          [Debugfs.fdt32ToCpu reg 0, Debugfs.fdt32ToCpu reg 1, Debugfs.fdt32ToCpu reg 2]

section
variable {mem : Memory} {fdt rounds o : Nat} {tokens ts : List Token} {name : List Byte}

theorem dumpNode_cursor (he : Encodes mem fdt tokens)
    (h : Cursor mem fdt (blockSize tokens) o (.beginNode name :: ts))
    (hrounds : fdtTotalsize mem fdt ≤ rounds)
    (hterm : ∀ compat, Label.get ⟨name, propsOf ts⟩ compatibleName = some compat → 0 ∈ compat) :
    dumpNode mem fdt rounds o =
      some (Label.dumpLine ⟨name, propsOf ts⟩ (propsEnd ts)) := by
  have hname := readString_of_holds (nodeName_holds h) (name_lt_rounds he h hrounds)
  unfold dumpNode Label.dumpLine
  rw [fdtGetName_cursor he h hrounds, Option.bind_eq_bind, Option.bind_some]
  simp only [hname, Option.bind_eq_bind, Option.bind_some]
  cases hcompat : Label.get ⟨name, propsOf ts⟩ compatibleName with
  | none =>
    rw [fdtGetprop_none he h hrounds hcompat]
    rfl
  | some compat =>
    obtain ⟨p, hgetprop, hbytes, hlength⟩ := fdtGetprop_some he h hrounds hcompat
    have hprinted := readString_of_holds (holds_of_bytesAt hbytes (hterm compat hcompat))
      (length_takeWhile_lt hlength)
    rw [hgetprop, Option.bind_some]
    cases hreg : Label.get ⟨name, propsOf ts⟩ regName with
    | none =>
      simp only [fdtGetprop_none he h hrounds hreg]
      rfl
    | some reg =>
      obtain ⟨q, hgetreg, hcells, -⟩ := fdtGetprop_some he h hrounds hreg
      simp only [hgetreg, Option.bind_some]
      by_cases hsize : reg.length = numRegs * 4
      · have h0 := fdt32_bytesAt hcells (show 4 * 0 + 4 ≤ reg.length by rw [hsize]; decide)
        have h1 := fdt32_bytesAt hcells (show 4 * 1 + 4 ≤ reg.length by rw [hsize]; decide)
        have h2 := fdt32_bytesAt hcells (show 4 * 2 + 4 ≤ reg.length by rw [hsize]; decide)
        have hlen : ¬ (reg.length : Int) ≠ numRegs * 4 := by
          rw [hsize]
          decide
        rw [if_neg hlen, if_neg (not_not_intro hsize), hprinted, ← h0, ← h1, ← h2]
        rfl
      · have hlen : (reg.length : Int) ≠ numRegs * 4 := by
          intro heq
          exact hsize (Int.ofNat.inj heq)
        rw [if_pos hlen, if_pos hsize]

theorem numbered_append {α β : Type} (f : α → β) (k : Nat) (xs : List α) (lines : List β) :
    numbered (fun _ x lines => lines ++ [f x]) k xs lines = lines ++ xs.map f := by
  induction xs generalizing k lines with
  | nil => exact (List.append_nil lines).symm
  | cons x xs ih =>
    unfold numbered
    rw [ih, List.map_cons, List.append_assoc, List.singleton_append]

/-- One line for each node but the root, in preorder; none if the root is not found. -/
theorem dumpDtb_eq {tree : Rose Label} (he : Encodes mem fdt tokens) (hs : Spells tree tokens)
    (hterm : Terminated tree) (hrounds : fdtTotalsize mem fdt ≤ rounds) :
    dumpDtb mem fdt rounds =
      some ((visited tree tokens).map fun a => a.dumpLine (-FDT_ERR_NOTFOUND)) := by
  have hseen := seen_tree hs
  have hbody : Steps mem fdt tokens
      (fun _ offset lines => (dumpNode mem fdt rounds offset).map fun line => lines ++ [line])
      (fun _ x lines => lines ++ [Label.dumpLine x.1 x.2]) := by
    intro k o name ts lines hcursor hmem
    rw [hseen] at hmem
    obtain ⟨a, ha, hlabel⟩ := List.mem_map.mp hmem
    have hsame : a = ⟨name, propsOf ts⟩ := congrArg Prod.fst hlabel
    have hnode := dumpNode_cursor he hcursor hrounds (by rw [← hsame]; exact hterm a ha)
    exact congrArg (Option.map _) hnode
  have hloop := forNodes_spells he hs hbody hrounds []
  rw [numbered_append, List.nil_append, List.map_map] at hloop
  exact hloop

end

theorem dumpDtb_example :
    dumpDtb exampleMem exampleAddr 179 =
      some [.noReg (Tool.bytesOf "bus"),
        .node (Tool.bytesOf "pr@0") (Tool.bytesOf "altr,pr-ip-core") [2, 0x1000, 0x40]] :=
  (dumpDtb_eq exampleEncodes exampleSpells exampleTerminated (by decide +kernel)).trans (by decide)

end FpgaPartialReconfig.Driver.Blob
