/-
  What the reader finds in a blob that holds a tree.

  A structure block is a sequence of tokens, each aligned to four bytes, with FDT_END behind
  them (`TokensAt`). Padding may hold anything, and FDT_NOP may stand between any two tokens.
  A `Cursor` says that the tokens `ts` stand at an offset, inside the block. At a cursor each
  function of the reader is a function of the tokens: `fdtNextTag_cursor` for one of them, then
  one lemma a loop.
-/
import FpgaPartialReconfig.Driver.Fdt
import FpgaPartialReconfig.Lib.Flatten

namespace FpgaPartialReconfig.Driver.Blob

open CString

/-! ## Tokens in memory -/

inductive Token where
  | beginNode (name : List Byte)
  | prop (key data : List Byte)
  | endNode
  | nop
  deriving DecidableEq

def Token.tag : Token → Nat
  | .beginNode _ => FDT_BEGIN_NODE
  | .prop _ _ => FDT_PROP
  | .endNode => FDT_END_NODE
  | .nop => FDT_NOP

/-- The bytes of a token without its padding. -/
def Token.len : Token → Nat
  | .beginNode name => 4 + (name.length + 1)
  | .prop _ data => 12 + data.length
  | .endNode => 4
  | .nop => 4

def Token.size (t : Token) : Nat := (t.len + 3) / 4 * 4

/-- The strings block has `s` at `stroffset`, inside the blob. -/
def StringAt (mem : Memory) (fdt stroffset : Nat) (s : List Byte) : Prop :=
  stroffset < 2 ^ 31 ∧ fdtOffDtStrings mem fdt + stroffset + s.length < fdtTotalsize mem fdt ∧
    HoldsFrom mem (fdt + fdtOffDtStrings mem fdt + stroffset) s

/-- `data` from `p` on, with anything behind it. -/
def BytesAt (mem : Memory) : Nat → List Byte → Prop
  | _, [] => True
  | p, b :: data => mem p = b ∧ BytesAt mem (p + 1) data

/-- What belongs to the token at `p`, behind its tag. -/
def Token.BodyAt (mem : Memory) (fdt p : Nat) : Token → Prop
  | .beginNode name => HoldsFrom mem (p + 4) name
  | .prop key data =>
    (fdt32 mem (p + 4)).toNat = data.length ∧ StringAt mem fdt (fdt32 mem (p + 8)).toNat key ∧
      BytesAt mem (p + 12) data
  | .endNode => True
  | .nop => True

def TokensAt (mem : Memory) (fdt : Nat) : Nat → List Token → Prop
  | p, [] => (fdt32 mem p).toNat = FDT_END
  | p, t :: ts =>
    ((fdt32 mem p).toNat = t.tag ∧ t.BodyAt mem fdt p) ∧ TokensAt mem fdt (p + t.size) ts

/-- The bytes of the structure block. -/
def blockSize : List Token → Nat
  | [] => FDT_TAGSIZE
  | t :: ts => t.size + blockSize ts

/-- The address of the structure block. -/
def blockAddr (mem : Memory) (fdt : Nat) : Nat := fdt + fdtOffDtStruct mem fdt

/-- At `fdt` is a blob with these tokens. -/
structure Encodes (mem : Memory) (fdt : Nat) (tokens : List Token) : Prop where
  header : fdtCheckHeader mem fdt = 0
  held : TokensAt mem fdt (blockAddr mem fdt) tokens
  declared : 0x11 ≤ fdtVersion mem fdt → blockSize tokens ≤ fdtSizeDtStruct mem fdt
  inside : fdtOffDtStruct mem fdt + blockSize tokens ≤ fdtTotalsize mem fdt
  int : blockSize tokens < 2 ^ 31
  memory : fdt + fdtTotalsize mem fdt < 2 ^ 64

instance instDecidableBytesAt (mem : Memory) (p : Nat) :
    (data : List Byte) → Decidable (BytesAt mem p data)
  | [] => inferInstanceAs (Decidable True)
  | b :: data =>
    have := instDecidableBytesAt mem (p + 1) data
    inferInstanceAs (Decidable (mem p = b ∧ BytesAt mem (p + 1) data))

instance (mem : Memory) (fdt stroffset : Nat) (s : List Byte) :
    Decidable (StringAt mem fdt stroffset s) :=
  inferInstanceAs (Decidable (_ ∧ _ ∧ _))

instance (mem : Memory) (fdt p : Nat) : (t : Token) → Decidable (t.BodyAt mem fdt p)
  | .beginNode name => inferInstanceAs (Decidable (HoldsFrom mem (p + 4) name))
  | .prop _ _ => inferInstanceAs (Decidable (_ ∧ _ ∧ _))
  | .endNode => inferInstanceAs (Decidable True)
  | .nop => inferInstanceAs (Decidable True)

instance instDecidableTokensAt (mem : Memory) (fdt : Nat) :
    (p : Nat) → (ts : List Token) → Decidable (TokensAt mem fdt p ts)
  | p, [] => inferInstanceAs (Decidable ((fdt32 mem p).toNat = FDT_END))
  | p, t :: ts =>
    have := instDecidableTokensAt mem fdt (p + t.size) ts
    inferInstanceAs (Decidable
      (((fdt32 mem p).toNat = t.tag ∧ t.BodyAt mem fdt p) ∧ TokensAt mem fdt (p + t.size) ts))

/-! ## Numbers that do not wrap -/

theorem toUnsigned_of_lt {n : Nat} (h : n < 2 ^ 32) : toUnsigned n = n := by
  unfold toUnsigned
  omega

theorem ptrAdd_of_lt {p n : Nat} (h : p + n < 2 ^ 64) : ptrAdd p n = p + n := by
  unfold ptrAdd
  omega

theorem addInt_nat {m n : Nat} (h : m + n < 2 ^ 31) : addInt m n = (m + n : Nat) :=
  addInt_of_small (by omega) (by omega)

theorem fdtTagalign_of_aligned {o n : Nat} (ho : 4 ∣ o) (h : o + (n + 3) / 4 * 4 < 2 ^ 31) :
    fdtTagalign (o + n : Nat) = (o + (n + 3) / 4 * 4 : Nat) := by
  obtain ⟨k, rfl⟩ := ho
  unfold fdtTagalign
  have hvalue : ((4 * k + n : Nat) + 3 : Int) / 4 * 4 = (4 * k + (n + 3) / 4 * 4 : Nat) := by omega
  rw [hvalue]
  exact Int.bmod_eq_of_le (by omega) (by omega)

theorem toInt_of_lt {x : U32} (h : x.toNat < 2 ^ 31) : x.toInt = x.toNat :=
  BitVec.toInt_eq_toNat_of_lt (by omega)

theorem Token.len_le_size (t : Token) : t.len ≤ t.size := by
  unfold Token.size
  omega

theorem Token.four_le_len (t : Token) : 4 ≤ t.len := by
  cases t with
  | beginNode name => exact Nat.le_add_right 4 _
  | prop key data =>
    have h : Token.len (.prop key data) = 12 + data.length := rfl
    omega
  | endNode => exact Nat.le_refl 4
  | nop => exact Nat.le_refl 4

theorem Token.dvd_size (t : Token) : 4 ∣ t.size := Nat.dvd_mul_left 4 _

theorem four_le_blockSize (ts : List Token) : 4 ≤ blockSize ts := by
  cases ts with
  | nil => exact Nat.le_refl 4
  | cons t ts =>
    have hlen := t.four_le_len
    have hsize := t.len_le_size
    unfold blockSize
    omega

theorem length_lt_blockSize (ts : List Token) : ts.length < blockSize ts := by
  induction ts with
  | nil => decide
  | cons t ts ih =>
    have hlen := t.four_le_len
    have hsize := t.len_le_size
    unfold blockSize
    rw [List.length_cons]
    omega

/-! ## Inside the block -/

/-- Offsets up to `limit` are inside the block, and nothing wraps on the way to them. -/
structure Within (mem : Memory) (fdt limit : Nat) : Prop where
  declared : 0x11 ≤ fdtVersion mem fdt → limit ≤ fdtSizeDtStruct mem fdt
  int : limit < 2 ^ 31
  memory : blockAddr mem fdt + limit < 2 ^ 64

/-- The tokens `ts`, and FDT_END, stand at the offset `o`. -/
structure Cursor (mem : Memory) (fdt limit o : Nat) (ts : List Token) : Prop where
  aligned : 4 ∣ o
  inside : o + blockSize ts ≤ limit
  tokens : TokensAt mem fdt (blockAddr mem fdt + o) ts

variable {mem : Memory} {fdt limit rounds o : Nat} {t : Token} {ts : List Token}

theorem Within.of_encodes {tokens : List Token} (h : Encodes mem fdt tokens) :
    Within mem fdt (blockSize tokens) := by
  refine ⟨h.declared, h.int, ?_⟩
  have hinside := h.inside
  have hmemory := h.memory
  unfold blockAddr
  omega

theorem Cursor.of_encodes {tokens : List Token} (h : Encodes mem fdt tokens) :
    Cursor mem fdt (blockSize tokens) 0 tokens :=
  ⟨Nat.dvd_zero 4, Nat.le_of_eq (Nat.zero_add _), h.held⟩

theorem Cursor.tail (h : Cursor mem fdt limit o (t :: ts)) :
    Cursor mem fdt limit (o + t.size) ts := by
  refine ⟨Nat.dvd_add h.aligned t.dvd_size, ?_, ?_⟩
  · rw [Nat.add_assoc]
    exact h.inside
  · rw [← Nat.add_assoc]
    exact h.tokens.2

/-- A token ends before FDT_END does. -/
theorem Cursor.room (h : Cursor mem fdt limit o (t :: ts)) : o + t.size + 4 ≤ limit := by
  have hinside := h.tail.inside
  have hblock := four_le_blockSize ts
  omega

theorem structPtr_within (hw : Within mem fdt limit) (ho : o ≤ limit) :
    structPtr mem fdt o = blockAddr mem fdt + o := by
  have hmemory := hw.memory
  unfold structPtr
  rw [ptrAdd_of_lt (show fdt + fdtOffDtStruct mem fdt < 2 ^ 64 by unfold blockAddr at hmemory; omega)]
  exact ptrAdd_of_lt (Nat.lt_of_le_of_lt (Nat.add_le_add_left ho _) hmemory)

theorem fdtOffsetPtr_within (hw : Within mem fdt limit) {len : Nat} (h : o + len ≤ limit) :
    fdtOffsetPtr mem fdt o len = some (blockAddr mem fdt + o) := by
  have hint := hw.int
  have hmemory := hw.memory
  have hsum : (toUnsigned o + len) % 2 ^ 32 = o + len := by
    rw [toUnsigned_of_lt (by omega)]
    exact Nat.mod_eq_of_lt (by omega)
  have hkept : ¬ (0x11 ≤ fdtVersion mem fdt ∧
      (o + len < toUnsigned o ∨ fdtSizeDtStruct mem fdt < o + len)) := by
    rintro ⟨hversion, hshort | hlong⟩
    · rw [toUnsigned_of_lt (by omega)] at hshort
      omega
    · have hdeclared := hw.declared hversion
      omega
  unfold fdtOffsetPtr
  simp only [hsum, if_neg hkept, structPtr_within hw (show o ≤ limit by omega)]
  rw [ptrAdd_of_lt (show blockAddr mem fdt + o + len < 2 ^ 64 by omega)]
  exact if_neg (by omega)

/-! ## One token -/

theorem skipName_within (hw : Within mem fdt limit) {name : List Byte}
    (hname : HoldsFrom mem (blockAddr mem fdt + o) name) (h : o + name.length + 1 ≤ limit)
    (hrounds : name.length < rounds) :
    skipName mem fdt rounds o = some (some ((o + (name.length + 1) : Nat) : Int)) := by
  have hint := hw.int
  induction name generalizing o rounds with
  | nil =>
    obtain ⟨rounds, rfl⟩ := Nat.exists_eq_succ_of_ne_zero (Nat.ne_of_gt hrounds)
    have hptr := fdtOffsetPtr_within hw (show o + 1 ≤ limit from h)
    unfold skipName
    simp only [hptr]
    exact (if_pos hname).trans (congrArg (some ∘ some) (addInt_nat (show o + 1 < 2 ^ 31 by omega)))
  | cons c name ih =>
    rw [List.length_cons] at h hrounds
    obtain ⟨rounds, rfl⟩ := Nat.exists_eq_succ_of_ne_zero (Nat.ne_of_gt (Nat.zero_lt_of_lt hrounds))
    obtain ⟨⟨hc, hne⟩, hrest⟩ := hname
    have hptr := fdtOffsetPtr_within hw (show o + 1 ≤ limit by omega)
    have hnext : addInt o 1 = (o + 1 : Nat) := addInt_nat (show o + 1 < 2 ^ 31 by omega)
    unfold skipName
    simp only [hptr, hc]
    rw [if_neg hne, hnext, ih hrest (by omega) (Nat.lt_of_succ_lt_succ hrounds), List.length_cons]
    exact congrArg (fun n : Nat => some (some (n : Int))) (by omega)

/-- The `switch` at a token leaves the offset behind it. -/
theorem skipTag_token (hw : Within mem fdt limit) (hbody : t.BodyAt mem fdt (blockAddr mem fdt + o))
    (h : o + t.size ≤ limit) (hrounds : limit ≤ rounds) :
    skipTag mem fdt rounds t.tag (o + 4 : Nat) = some (some ((o + t.len : Nat) : Int)) := by
  have hlen := t.len_le_size
  have hint := hw.int
  cases t with
  | beginNode name =>
    change o + Token.size (.beginNode name) ≤ limit at h
    have hsize : Token.len (.beginNode name) = 4 + (name.length + 1) := rfl
    have hname : HoldsFrom mem (blockAddr mem fdt + (o + 4)) name := by
      rw [← Nat.add_assoc]
      exact hbody
    unfold skipTag
    rw [Token.tag, if_pos rfl, skipName_within hw hname (by omega) (by omega), hsize]
    exact congrArg (fun n : Nat => some (some (n : Int))) (by omega)
  | prop key data =>
    have hsize : Token.len (.prop key data) = 12 + data.length := rfl
    have hptr := fdtOffsetPtr_within hw (show o + 4 + 4 ≤ limit by omega)
    have hword : (fdt32 mem (blockAddr mem fdt + (o + 4))).toNat = data.length := by
      rw [← Nat.add_assoc]
      exact hbody.1
    unfold skipTag
    rw [Token.tag, if_neg (by decide), if_pos rfl]
    simp only [hptr, hword]
    have hend := addInt_nat (show o + 4 + (8 + data.length) < 2 ^ 31 by omega)
    rw [Int.natCast_add 8] at hend
    refine congrArg (some ∘ some) (hend.trans (congrArg Nat.cast ?_))
    omega
  | endNode => rfl
  | nop => rfl

theorem skipTag_end (rounds : Nat) (offset : Int) :
    skipTag mem fdt rounds FDT_END offset = some (some offset) := rfl

/-- The tag at a cursor, and the offset of the next one. -/
theorem fdtNextTag_cursor (hw : Within mem fdt limit) (h : Cursor mem fdt limit o (t :: ts))
    (hrounds : limit ≤ rounds) :
    fdtNextTag mem fdt rounds o = some (t.tag, ((o + t.size : Nat) : Int)) := by
  have hroom := h.room
  have hint := hw.int
  have hlen := t.len_le_size
  have hfour := t.four_le_len
  have htag := fdtOffsetPtr_within hw (show o + 4 ≤ limit by omega)
  have hskip := skipTag_token hw h.tokens.1.2 (Nat.le_of_add_right_le hroom) hrounds
  have hword := addInt_nat (show o + 4 < 2 ^ 31 by omega)
  have hback : toUnsigned ((o + t.len : Nat) - (o : Nat)) = t.len :=
    (congrArg toUnsigned (show _ = ((t.len : Nat) : Int) by omega)).trans
      (toUnsigned_of_lt (by omega))
  have hend := fdtOffsetPtr_within hw (show o + t.len ≤ limit by omega)
  have halign : fdtTagalign (o + t.len : Nat) = (o + t.size : Nat) :=
    fdtTagalign_of_aligned h.aligned (show o + t.size < 2 ^ 31 by omega)
  unfold fdtNextTag FDT_TAGSIZE
  simp only [htag, h.tokens.1.1, hword, hskip, hback, hend, halign]

theorem fdtNextTag_end (hw : Within mem fdt limit) (h : Cursor mem fdt limit o [])
    (rounds : Nat) : fdtNextTag mem fdt rounds o = some (FDT_END, ((o + 4 : Nat) : Int)) := by
  have hinside : o + 4 ≤ limit := h.inside
  have hint := hw.int
  have htag := fdtOffsetPtr_within hw hinside
  have hword := addInt_nat (show o + 4 < 2 ^ 31 by omega)
  have hback : toUnsigned ((o + 4 : Nat) - (o : Nat)) = 4 :=
    (congrArg toUnsigned (show _ = ((4 : Nat) : Int) by omega)).trans
      (toUnsigned_of_lt (by decide))
  have halign : fdtTagalign (o + 4 : Nat) = (o + 4 : Nat) :=
    fdtTagalign_of_aligned h.aligned (show o + 4 < 2 ^ 31 by omega)
  have hend : (fdt32 mem (blockAddr mem fdt + o)).toNat = FDT_END := h.tokens
  unfold fdtNextTag FDT_TAGSIZE
  simp only [htag, hend, hword, skipTag_end, hback, halign]

theorem checkOffset_cursor (hw : Within mem fdt limit) (h : Cursor mem fdt limit o (t :: ts))
    (hrounds : limit ≤ rounds) :
    checkOffset mem fdt rounds t.tag o = some ((o + t.size : Nat) : Int) := by
  have hvalid : ¬ ((o : Int) < 0 ∨ (o : Int) % FDT_TAGSIZE ≠ 0) := by
    obtain ⟨k, rfl⟩ := h.aligned
    unfold FDT_TAGSIZE
    omega
  unfold checkOffset
  rw [if_neg hvalid, fdtNextTag_cursor hw h hrounds]
  exact if_neg (not_not_intro rfl)

theorem fdtCheckNodeOffset_cursor {name : List Byte} (hw : Within mem fdt limit)
    (h : Cursor mem fdt limit o (.beginNode name :: ts)) (hrounds : limit ≤ rounds) :
    fdtCheckNodeOffset mem fdt rounds o =
      some ((o + Token.size (.beginNode name) : Nat) : Int) := checkOffset_cursor hw h hrounds

theorem fdtCheckPropOffset_cursor {key data : List Byte} (hw : Within mem fdt limit)
    (h : Cursor mem fdt limit o (.prop key data :: ts)) (hrounds : limit ≤ rounds) :
    fdtCheckPropOffset mem fdt rounds o =
      some ((o + Token.size (.prop key data) : Nat) : Int) := checkOffset_cursor hw h hrounds

/-- What follows a check that finds no error. -/
theorem bind_checked {β : Type} {check : Option Int} {n : Nat} (h : check = some (n : Int))
    (f g : Int → Option β) :
    (check >>= fun next => if next < 0 then f next else g next) = g n := by
  rw [h, Option.bind_eq_bind, Option.bind_some]
  exact if_neg (Int.not_lt.mpr (Int.natCast_nonneg n))

/-! ## From one node to the next -/

/-- A node: its offset, its name and the tokens behind that. -/
structure Place where
  offset : Nat
  name : List Byte
  rest : List Token

/-- The nodes of tokens that stand at an offset. -/
def nodesFrom : Nat → List Token → List Place
  | _, [] => []
  | o, t :: ts =>
    match t with
    | .beginNode name => ⟨o, name, ts⟩ :: nodesFrom (o + t.size) ts
    | _ => nodesFrom (o + t.size) ts

/-- The offset of the first of them. -/
def firstOffset : List Place → Int
  | [] => -FDT_ERR_NOTFOUND
  | place :: _ => place.offset

theorem nextNodeFrom_cursor (hw : Within mem fdt limit) (h : Cursor mem fdt limit o ts)
    (hrounds : limit ≤ rounds) {n : Nat} (hn : ts.length < n) :
    nextNodeFrom mem fdt rounds n o = some (firstOffset (nodesFrom o ts)) := by
  induction ts generalizing o n with
  | nil =>
    obtain ⟨n, rfl⟩ := Nat.exists_eq_succ_of_ne_zero (Nat.ne_of_gt hn)
    unfold nextNodeFrom
    have hother : ¬ FDT_END = FDT_BEGIN_NODE := by decide
    rw [fdtNextTag_end hw h, Option.bind_eq_bind, Option.bind_some, if_neg hother, if_pos rfl]
    exact if_pos (Or.inl (Int.natCast_nonneg (o + 4)))
  | cons t ts ih =>
    obtain ⟨n, rfl⟩ := Nat.exists_eq_succ_of_ne_zero (Nat.ne_of_gt (Nat.zero_lt_of_lt hn))
    have hnext := ih h.tail (Nat.lt_of_succ_lt_succ hn)
    unfold nextNodeFrom
    rw [fdtNextTag_cursor hw h hrounds]
    cases t with
    | beginNode name => rfl
    | prop key data => exact hnext
    | endNode => exact hnext
    | nop => exact hnext

/-- The first node is at a cursor, and the others are those behind it. -/
theorem Cursor.node (h : Cursor mem fdt limit o ts) {place : Place} {places : List Place}
    (hnodes : nodesFrom o ts = place :: places) :
    Cursor mem fdt limit place.offset (.beginNode place.name :: place.rest) ∧
      nodesFrom (place.offset + Token.size (.beginNode place.name)) place.rest = places := by
  induction ts generalizing o with
  | nil => cases hnodes
  | cons t ts ih =>
    cases t with
    | beginNode name =>
      obtain ⟨rfl, rfl⟩ := List.cons.inj hnodes
      exact ⟨h, rfl⟩
    | prop key data => exact ih h.tail hnodes
    | endNode => exact ih h.tail hnodes
    | nop => exact ih h.tail hnodes

/-- The tokens of a cursor are fewer than the bytes. -/
theorem Cursor.length_lt (h : Cursor mem fdt limit o ts) : ts.length < limit := by
  have hlength := length_lt_blockSize ts
  have hinside := h.inside
  omega

theorem fdtNextNode_cursor {name : List Byte} (hw : Within mem fdt limit)
    (h : Cursor mem fdt limit o (.beginNode name :: ts)) (hrounds : limit ≤ rounds) :
    fdtNextNode mem fdt rounds o =
      some (firstOffset (nodesFrom (o + Token.size (.beginNode name)) ts)) := by
  have hcheck := fdtCheckNodeOffset_cursor hw h hrounds
  have hnext := nextNodeFrom_cursor hw h.tail hrounds (Nat.lt_of_lt_of_le h.tail.length_lt hrounds)
  unfold fdtNextNode
  rw [if_pos (Int.natCast_nonneg o)]
  exact (bind_checked hcheck _ _).trans hnext

/-! ## Names and properties -/

section
variable {tokens : List Token}

theorem limit_le_rounds (he : Encodes mem fdt tokens) (hrounds : fdtTotalsize mem fdt ≤ rounds) :
    blockSize tokens ≤ rounds := by
  have hinside := he.inside
  omega

theorem nodeName_holds {name : List Byte}
    (h : Cursor mem fdt limit o (.beginNode name :: ts)) :
    HoldsFrom mem (blockAddr mem fdt + o + 4) name := h.tokens.1.2

theorem fdtGetName_cursor {name : List Byte} (he : Encodes mem fdt tokens)
    (h : Cursor mem fdt (blockSize tokens) o (.beginNode name :: ts))
    (hrounds : fdtTotalsize mem fdt ≤ rounds) :
    fdtGetName mem fdt rounds o =
      some (some (blockAddr mem fdt + o + 4), (name.length : Int)) := by
  have hw := Within.of_encodes he
  have hlimit := limit_le_rounds he hrounds
  have hroom := h.room
  have hlen := Token.len_le_size (.beginNode name)
  have hbytes : Token.len (.beginNode name) = 4 + (name.length + 1) := rfl
  have hcheck := fdtCheckNodeOffset_cursor hw h hlimit
  have hptr := structPtr_within hw (show o ≤ blockSize tokens by omega)
  have hmemory := hw.memory
  have hname : ptrAdd (blockAddr mem fdt + o) 4 = blockAddr mem fdt + o + 4 :=
    ptrAdd_of_lt (show blockAddr mem fdt + o + 4 < 2 ^ 64 by omega)
  have hstrlen := strlen_of_holds (nodeName_holds h) (show name.length < rounds by omega)
  unfold fdtGetName
  rw [if_neg (not_not_intro he.header)]
  refine (bind_checked hcheck _ _).trans ?_
  simp only [hptr, hname, hstrlen]
  rfl

/-- The properties up to the next node or the end of this one: offset, name and data. -/
def propsFrom : Nat → List Token → List (Nat × List Byte × List Byte)
  | _, [] => []
  | o, t :: ts =>
    match t with
    | .prop key data => (o, key, data) :: propsFrom (o + t.size) ts
    | .nop => propsFrom (o + t.size) ts
    | _ => []

/-- The error behind the last property. -/
def propsEnd : List Token → Int
  | [] => -FDT_ERR_BADSTRUCTURE
  | t :: ts =>
    match t with
    | .prop _ _ => propsEnd ts
    | .nop => propsEnd ts
    | _ => -FDT_ERR_NOTFOUND

def firstProp (o : Nat) (ts : List Token) : Int :=
  match propsFrom o ts with
  | [] => propsEnd ts
  | found :: _ => found.1

theorem propsEnd_neg (ts : List Token) : propsEnd ts < 0 := by
  induction ts with
  | nil => decide
  | cons t ts ih =>
    cases t with
    | beginNode name => exact (by decide : -FDT_ERR_NOTFOUND < 0)
    | prop key data => exact ih
    | endNode => exact (by decide : -FDT_ERR_NOTFOUND < 0)
    | nop => exact ih

theorem nextprop_cursor (hw : Within mem fdt limit) (h : Cursor mem fdt limit o ts)
    (hrounds : limit ≤ rounds) {n : Nat} (hn : ts.length < n) :
    nextprop mem fdt rounds n o = some (firstProp o ts) := by
  induction ts generalizing o n with
  | nil =>
    obtain ⟨n, rfl⟩ := Nat.exists_eq_succ_of_ne_zero (Nat.ne_of_gt hn)
    unfold nextprop
    rw [fdtNextTag_end hw h, Option.bind_eq_bind, Option.bind_some, if_pos rfl]
    exact if_pos (Int.natCast_nonneg (o + 4))
  | cons t ts ih =>
    obtain ⟨n, rfl⟩ := Nat.exists_eq_succ_of_ne_zero (Nat.ne_of_gt (Nat.zero_lt_of_lt hn))
    have hnext := ih h.tail (Nat.lt_of_succ_lt_succ hn)
    unfold nextprop
    rw [fdtNextTag_cursor hw h hrounds]
    cases t with
    | beginNode name => rfl
    | prop key data => rfl
    | endNode => rfl
    | nop => exact hnext

theorem fdtStringEq_at (he : Encodes mem fdt tokens) (hrounds : fdtTotalsize mem fdt ≤ rounds)
    {x : U32} {key : List Byte} (hkey : StringAt mem fdt x.toNat key) (name : List Byte) :
    fdtStringEq mem fdt rounds x.toInt name = some (decide (key = name)) := by
  obtain ⟨hsmall, hinside, hholds⟩ := hkey
  have hmemory := he.memory
  have hbase : ptrAdd fdt (fdtOffDtStrings mem fdt) = fdt + fdtOffDtStrings mem fdt :=
    ptrAdd_of_lt (by omega)
  have hptr : fdtString mem fdt x.toInt = fdt + fdtOffDtStrings mem fdt + x.toNat := by
    unfold fdtString
    rw [toInt_of_lt hsmall, hbase]
    exact ptrAdd_of_lt (by omega)
  have hstrlen := strlen_of_holds hholds (show key.length < rounds by omega)
  have hsame : (key.length = name.length ∧
      memcmp mem (fdt + fdtOffDtStrings mem fdt + x.toNat) name = 0) ↔ key = name := by
    constructor
    · rintro ⟨hlength, hbytes⟩
      exact (memcmp_eq_zero hholds hlength).mp hbytes
    · rintro rfl
      exact ⟨rfl, (memcmp_eq_zero hholds rfl).mpr rfl⟩
  unfold fdtStringEq
  simp only [hptr, hstrlen]
  exact congrArg some (decide_eq_decide.mpr hsame)

theorem fdtGetPropertyByOffset_cursor {key data : List Byte} (he : Encodes mem fdt tokens)
    (h : Cursor mem fdt (blockSize tokens) o (.prop key data :: ts))
    (hrounds : fdtTotalsize mem fdt ≤ rounds) :
    fdtGetPropertyByOffset mem fdt rounds o =
      some (some (blockAddr mem fdt + o), (data.length : Int)) := by
  have hw := Within.of_encodes he
  have hroom := h.room
  have hint := hw.int
  have hlen := Token.len_le_size (.prop key data)
  have hbytes : Token.len (.prop key data) = 12 + data.length := rfl
  have hcheck := fdtCheckPropOffset_cursor hw h (limit_le_rounds he hrounds)
  have hptr := structPtr_within hw (show o ≤ blockSize tokens by omega)
  have hword : (fdt32 mem (blockAddr mem fdt + o + 4)).toNat = data.length := h.tokens.1.2.1
  unfold fdtGetPropertyByOffset
  refine (bind_checked hcheck _ _).trans ?_
  simp only [hptr]
  rw [toInt_of_lt (by omega), hword]

theorem fdtNextPropertyOffset_cursor {key data : List Byte} (hw : Within mem fdt limit)
    (h : Cursor mem fdt limit o (.prop key data :: ts)) (hrounds : limit ≤ rounds) :
    fdtNextPropertyOffset mem fdt rounds o =
      some (firstProp (o + Token.size (.prop key data)) ts) := by
  have hcheck := fdtCheckPropOffset_cursor hw h hrounds
  have hnext := nextprop_cursor hw h.tail hrounds (Nat.lt_of_lt_of_le h.tail.length_lt hrounds)
  exact (bind_checked hcheck _ _).trans hnext

theorem fdtFirstPropertyOffset_cursor {name : List Byte} (hw : Within mem fdt limit)
    (h : Cursor mem fdt limit o (.beginNode name :: ts)) (hrounds : limit ≤ rounds) :
    fdtFirstPropertyOffset mem fdt rounds o =
      some (firstProp (o + Token.size (.beginNode name)) ts) := by
  have hcheck := fdtCheckNodeOffset_cursor hw h hrounds
  have hnext := nextprop_cursor hw h.tail hrounds (Nat.lt_of_lt_of_le h.tail.length_lt hrounds)
  exact (bind_checked hcheck _ _).trans hnext

/-- The first property of a name: its offset, its name and its data. -/
def propNamed (name : List Byte) (o : Nat) (ts : List Token) :
    Option (Nat × List Byte × List Byte) :=
  (propsFrom o ts).find? fun found => found.2.1 = name

/-- The answer with it, or with the error behind the last one; `addr` is where the block is. -/
def propAnswer (addr : Nat) (name : List Byte) (o : Nat) (ts : List Token) : Option Nat × Int :=
  match propNamed name o ts with
  | some found => (some (addr + found.1), found.2.2.length)
  | none => (none, propsEnd ts)

theorem propNamed_prop (name key data : List Byte) :
    propNamed name o (.prop key data :: ts) =
      if key = name then some (o, key, data)
      else propNamed name (o + Token.size (.prop key data)) ts := by
  by_cases hname : key = name
  · rw [if_pos hname]
    exact List.find?_cons_of_pos (decide_eq_true hname)
  · rw [if_neg hname]
    exact List.find?_cons_of_neg fun h => hname (of_decide_eq_true h)

theorem propertyFrom_end (name : List Byte) {n : Nat} {e : Int} (he : e < 0) (hn : 0 < n) :
    propertyFrom mem fdt rounds name n e = some (none, e) := by
  obtain ⟨n, rfl⟩ := Nat.exists_eq_succ_of_ne_zero (Nat.ne_of_gt hn)
  unfold propertyFrom
  exact if_pos he

/-- The loop from the first property of the tokens on. -/
theorem propertyFrom_cursor (he : Encodes mem fdt tokens)
    (h : Cursor mem fdt (blockSize tokens) o ts) (hrounds : fdtTotalsize mem fdt ≤ rounds)
    (name : List Byte) {n : Nat} (hn : ts.length < n) :
    propertyFrom mem fdt rounds name n (firstProp o ts) =
      some (propAnswer (blockAddr mem fdt) name o ts) := by
  have hlimit := limit_le_rounds he hrounds
  induction ts generalizing o n with
  | nil => exact propertyFrom_end name (propsEnd_neg []) hn
  | cons t ts ih =>
    cases t with
    | beginNode child =>
      exact propertyFrom_end name (propsEnd_neg (.beginNode child :: ts)) (Nat.zero_lt_of_lt hn)
    | endNode => exact propertyFrom_end name (propsEnd_neg (.endNode :: ts)) (Nat.zero_lt_of_lt hn)
    | nop => exact ih h.tail (Nat.lt_of_succ_lt hn)
    | prop key data =>
      obtain ⟨n, rfl⟩ := Nat.exists_eq_succ_of_ne_zero (Nat.ne_of_gt (Nat.zero_lt_of_lt hn))
      have hfirst : firstProp o (.prop key data :: ts) = (o : Int) := rfl
      have hfound := fdtGetPropertyByOffset_cursor he h hrounds
      have hkey : StringAt mem fdt (fdt32 mem (blockAddr mem fdt + o + 8)).toNat key :=
        h.tokens.1.2.2.1
      have hsame := fdtStringEq_at he hrounds hkey name
      have hnext := fdtNextPropertyOffset_cursor (Within.of_encodes he) h hlimit
      have hrest := ih h.tail (Nat.lt_of_succ_lt_succ hn)
      rw [hfirst]
      unfold propertyFrom
      rw [if_neg (Int.not_lt.mpr (Int.natCast_nonneg o)), hfound, Option.bind_eq_bind,
        Option.bind_some]
      simp only [hsame, Option.bind_eq_bind, Option.bind_some]
      unfold propAnswer
      rw [propNamed_prop]
      by_cases hname : key = name
      · rw [if_pos (decide_eq_true hname), if_pos hname]
      · rw [if_neg (fun h => hname (of_decide_eq_true h)), if_neg hname, hnext, Option.bind_some]
        exact hrest

theorem fdtGetProperty_cursor {nodeName : List Byte} (he : Encodes mem fdt tokens)
    (h : Cursor mem fdt (blockSize tokens) o (.beginNode nodeName :: ts))
    (hrounds : fdtTotalsize mem fdt ≤ rounds) (name : List Byte) :
    fdtGetProperty mem fdt rounds o name =
      some (propAnswer (blockAddr mem fdt) name (o + Token.size (.beginNode nodeName)) ts) := by
  have hlimit := limit_le_rounds he hrounds
  unfold fdtGetProperty
  rw [fdtFirstPropertyOffset_cursor (Within.of_encodes he) h hlimit, Option.bind_eq_bind,
    Option.bind_some]
  exact propertyFrom_cursor he h.tail hrounds name (Nat.lt_of_lt_of_le h.tail.length_lt hlimit)

/-- A property that is found is at a cursor. -/
theorem Cursor.property (h : Cursor mem fdt limit o ts) {found : Nat × List Byte × List Byte}
    (hfound : found ∈ propsFrom o ts) :
    ∃ rest, Cursor mem fdt limit found.1 (.prop found.2.1 found.2.2 :: rest) := by
  induction ts generalizing o with
  | nil => cases hfound
  | cons t ts ih =>
    cases t with
    | beginNode name => cases hfound
    | endNode => cases hfound
    | nop => exact ih h.tail hfound
    | prop key data =>
      rcases List.mem_cons.mp hfound with rfl | hlater
      · exact ⟨ts, h⟩
      · exact ih h.tail hlater

theorem propNamed_spec {name : List Byte} {found : Nat × List Byte × List Byte}
    (hfound : propNamed name o ts = some found) : found ∈ propsFrom o ts ∧ found.2.1 = name := by
  unfold propNamed at hfound
  have hname := List.find?_some hfound
  exact ⟨List.mem_of_find?_eq_some hfound, of_decide_eq_true hname⟩

/-- The data of the first property of the name, and its length. -/
theorem fdtGetprop_found {nodeName name : List Byte} {found : Nat × List Byte × List Byte}
    (he : Encodes mem fdt tokens)
    (h : Cursor mem fdt (blockSize tokens) o (.beginNode nodeName :: ts))
    (hrounds : fdtTotalsize mem fdt ≤ rounds)
    (hfound : propNamed name (o + Token.size (.beginNode nodeName)) ts = some found) :
    fdtGetprop mem fdt rounds o name =
        some (some (blockAddr mem fdt + found.1 + 12), (found.2.2.length : Int)) ∧
      BytesAt mem (blockAddr mem fdt + found.1 + 12) found.2.2 := by
  obtain ⟨rest, hcursor⟩ := h.tail.property (propNamed_spec hfound).1
  have hroom := hcursor.room
  have hmemory := (Within.of_encodes he).memory
  have hlen := Token.len_le_size (.prop found.2.1 found.2.2)
  have hbytes : Token.len (.prop found.2.1 found.2.2) = 12 + found.2.2.length := rfl
  have hptr : ptrAdd (blockAddr mem fdt + found.1) 12 = blockAddr mem fdt + found.1 + 12 :=
    ptrAdd_of_lt (show blockAddr mem fdt + found.1 + 12 < 2 ^ 64 by omega)
  refine ⟨?_, hcursor.tokens.1.2.2.2⟩
  unfold fdtGetprop
  rw [fdtGetProperty_cursor he h hrounds name, Option.bind_eq_bind, Option.bind_some]
  unfold propAnswer
  rw [hfound]
  exact congrArg (fun p => some (some p, (found.2.2.length : Int))) hptr

theorem fdtGetprop_missing {nodeName name : List Byte} (he : Encodes mem fdt tokens)
    (h : Cursor mem fdt (blockSize tokens) o (.beginNode nodeName :: ts))
    (hrounds : fdtTotalsize mem fdt ≤ rounds)
    (hnone : propNamed name (o + Token.size (.beginNode nodeName)) ts = none) :
    fdtGetprop mem fdt rounds o name = some (none, propsEnd ts) := by
  unfold fdtGetprop
  rw [fdtGetProperty_cursor he h hrounds name, Option.bind_eq_bind, Option.bind_some]
  unfold propAnswer
  rw [hnone]
  rfl

end

end FpgaPartialReconfig.Driver.Blob
