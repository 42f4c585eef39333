/-
  The RBF file and its words.

  Both drivers stream a bitstream to the PR IP as 32-bit little-endian words. The fpga_pcie
  driver reads them from an open file with `kernel_read`; the fpga driver indexes an image
  in memory. `kernel_read` is the kernel's own, so an `RbfFile` carries it as a function
  together with what the loader relies on: a read at a non-negative offset returns the
  bytes that remain, at most as many as asked for, and leaves the rest of the buffer alone;
  a read at a negative offset (the loader's `int offset` wraps at 2 GiB) returns an error.

  `fileWords` is what a complete load writes: word `k` is bytes `4k .. 4k+3`, with zero for
  bytes past the end. `tail_word` says the masks of the remainder write give just that.
-/
import Mathlib.Data.List.Basic
import Mathlib.Tactic.IntervalCases

namespace FpgaPartialReconfig.Driver

abbrev Byte := BitVec 8
abbrev U32 := BitVec 32

/-- Memory from some base address on. -/
abbrev Mem := Nat → Byte

/-- `*(u32 *)(m + ofs)` on a little-endian machine. -/
def le32 (m : Mem) (ofs : Nat) : U32 :=
  m (ofs + 3) ++ m (ofs + 2) ++ m (ofs + 1) ++ m ofs

/-- Addition of C `int`s (the kernel is built with wrapping signed arithmetic). -/
def addInt (a b : Int) : Int := (a + b).bmod (2 ^ 32)

theorem addInt_lt (a b : Int) : addInt a b < 2 ^ 31 := by
  have h := Int.bmod_lt (x := a + b) (m := 2 ^ 32) (by decide)
  unfold addInt
  omega

theorem addInt_of_small {a b : Int} (h0 : 0 ≤ a + b) (h : a + b < 2 ^ 31) :
    addInt a b = a + b := by
  unfold addInt
  rw [Int.bmod_eq_of_le] <;> omega

/-- An offset that leaves the range of `int` becomes negative. -/
theorem addInt_wrap {a b : Int} (h0 : 2 ^ 31 ≤ a + b) (h : a + b < 2 ^ 32) :
    addInt a b < 0 := by
  unfold addInt
  rw [Int.bmod_def]
  omega

/-- The contents of `bytes` as memory, zero past the end. -/
def memOf (bytes : List Byte) : Mem := fun i => bytes.getD i 0

/-- `buf` after `n` bytes at `ofs` of the file were copied to its front. -/
def copyIn (bytes : List Byte) (ofs n : Nat) (buf : Mem) : Mem :=
  fun i => if i < n then memOf bytes (ofs + i) else buf i

/-- An open file, as the loader sees it through `kernel_read(fp, offset, buf, count)`. -/
structure RbfFile where
  bytes : List Byte
  /-- The return value and the buffer afterwards. -/
  kernelRead : Int → Nat → Mem → Int × Mem
  read_nonneg : ∀ (ofs : Int) (count : Nat) (buf : Mem), 0 ≤ ofs →
    kernelRead ofs count buf =
      (((min count (bytes.length - ofs.toNat) : Nat) : Int),
        copyIn bytes ofs.toNat (min count (bytes.length - ofs.toNat)) buf)
  read_neg : ∀ (ofs : Int) (count : Nat) (buf : Mem), ofs < 0 →
    (kernelRead ofs count buf).1 < 0

namespace RbfFile

/-- Number of bytes in the file. -/
def size (f : RbfFile) : Nat := f.bytes.length

/-- A file with the given contents, read the way `kernel_read` reads a regular file. -/
def ofBytes (bytes : List Byte) : RbfFile where
  bytes := bytes
  kernelRead ofs count buf :=
    if 0 ≤ ofs then
      (((min count (bytes.length - ofs.toNat) : Nat) : Int),
        copyIn bytes ofs.toNat (min count (bytes.length - ofs.toNat)) buf)
    else (-22, buf)
  read_nonneg ofs count buf h := by rw [if_pos h]
  read_neg ofs count buf h := by
    rw [if_neg (by omega)]
    exact (by decide : (-22 : Int) < 0)

theorem size_ofBytes (bytes : List Byte) : (ofBytes bytes).size = bytes.length := rfl

end RbfFile

/-- Word `k` of a file: its bytes `4k .. 4k+3`, little-endian, zero past the end. -/
def fileWord (bytes : List Byte) (k : Nat) : U32 := le32 (memOf bytes) (4 * k)

/-- Every word of a file, the last one padded with zero bytes. -/
def fileWords (bytes : List Byte) : List U32 :=
  (List.range ((bytes.length + 3) / 4)).map (fileWord bytes)

theorem fileWords_length (bytes : List Byte) :
    (fileWords bytes).length = (bytes.length + 3) / 4 := by
  simp [fileWords]

/-- Words `k` up to (not including) `stop`. -/
def wordsBetween (bytes : List Byte) (k stop : Nat) : List U32 :=
  (List.range' k (stop - k)).map (fileWord bytes)

theorem wordsBetween_cons (bytes : List Byte) {k stop : Nat} (h : k < stop) :
    wordsBetween bytes k stop = fileWord bytes k :: wordsBetween bytes (k + 1) stop := by
  have hk : stop - k = (stop - (k + 1)) + 1 := by omega
  simp only [wordsBetween]
  rw [hk, List.range'_succ, List.map_cons]

theorem wordsBetween_concat (bytes : List Byte) {k stop : Nat} (h : k ≤ stop) :
    wordsBetween bytes k (stop + 1) = wordsBetween bytes k stop ++ [fileWord bytes stop] := by
  have hk : stop + 1 - k = (stop - k) + 1 := by omega
  have hstop : k + 1 * (stop - k) = stop := by omega
  simp only [wordsBetween]
  rw [hk, List.range'_concat, List.map_append, hstop]
  rfl

theorem wordsBetween_self (bytes : List Byte) (k : Nat) : wordsBetween bytes k k = [] := by
  simp [wordsBetween]

theorem wordsBetween_length (bytes : List Byte) (k stop : Nat) :
    (wordsBetween bytes k stop).length = stop - k := by
  simp [wordsBetween]

/-- The padded last word, when the length is not a multiple of four. -/
def tailWords (bytes : List Byte) : List U32 :=
  if bytes.length % 4 = 0 then [] else [fileWord bytes (bytes.length / 4)]

theorem fileWords_eq (bytes : List Byte) :
    fileWords bytes = wordsBetween bytes 0 (bytes.length / 4) ++ tailWords bytes := by
  unfold fileWords wordsBetween tailWords
  rw [Nat.sub_zero, ← List.range_eq_range']
  split
  · rename_i h
    have hl : (bytes.length + 3) / 4 = bytes.length / 4 := by omega
    rw [hl, List.append_nil]
  · rename_i h
    have hl : (bytes.length + 3) / 4 = bytes.length / 4 + 1 := by omega
    rw [hl, List.range_succ, List.map_append]
    rfl

/-! ## Words of a buffer -/

theorem le32_congr {m m' : Mem} {o o' : Nat} (h : ∀ i < 4, m (o + i) = m' (o' + i)) :
    le32 m o = le32 m' o' := by
  have h0 := h 0 (by decide)
  have h1 := h 1 (by decide)
  have h2 := h 2 (by decide)
  have h3 := h 3 (by decide)
  simp only [Nat.add_zero] at h0
  simp only [le32, h0, h1, h2, h3]

/-- The mask the remainder write uses when `r` bytes are left. -/
def tailMask : Nat → U32
  | 3 => 0x00ffffff#32
  | 2 => 0x0000ffff#32
  | 1 => 0x000000ff#32
  | _ => 0

theorem le32_toNat (m : Mem) (o : Nat) :
    (le32 m o).toNat =
      (m o).toNat + 2 ^ 8 * (m (o + 1)).toNat + 2 ^ 16 * (m (o + 2)).toNat +
        2 ^ 24 * (m (o + 3)).toNat := by
  have h0 := (m o).isLt
  have h1 := (m (o + 1)).isLt
  have h2 := (m (o + 2)).isLt
  simp only [le32, BitVec.toNat_append]
  rw [← Nat.shiftLeft_add_eq_or_of_lt h2, ← Nat.shiftLeft_add_eq_or_of_lt h1,
    ← Nat.shiftLeft_add_eq_or_of_lt h0]
  simp only [Nat.shiftLeft_eq]
  omega

theorem tailMask_toNat (r : Nat) (h1 : 1 ≤ r) (h3 : r ≤ 3) :
    (tailMask r).toNat = 2 ^ (8 * r) - 1 := by
  interval_cases r <;> rfl

/-- Masking keeps the `r` low bytes and clears the others. -/
theorem le32_and_tailMask (m : Mem) (o r : Nat) (h1 : 1 ≤ r) (h3 : r ≤ 3) :
    le32 m o &&& tailMask r = le32 (fun i => if i < o + r then m i else 0) o := by
  apply BitVec.eq_of_toNat_eq
  have h0 := (m o).isLt
  have h1' := (m (o + 1)).isLt
  have h2' := (m (o + 2)).isLt
  rw [BitVec.toNat_and, tailMask_toNat r h1 h3, Nat.and_two_pow_sub_one_eq_mod, le32_toNat,
    le32_toNat]
  interval_cases r <;> simp <;> omega

/-- The remainder write puts the padded last word: the buffer holds the file's last `r`
    bytes, whatever an earlier read left behind them. -/
theorem tail_word (bytes : List Byte) (buf : Mem) (k : Nat)
    (hr : 1 ≤ bytes.length - 4 * k) (hr3 : bytes.length - 4 * k ≤ 3)
    (hbuf : ∀ i < bytes.length - 4 * k, buf i = memOf bytes (4 * k + i)) :
    le32 buf 0 &&& tailMask (bytes.length - 4 * k) = fileWord bytes k := by
  rw [le32_and_tailMask _ _ _ hr hr3]
  apply le32_congr
  intro i _
  simp only [Nat.zero_add]
  split
  · rename_i h
    exact hbuf i h
  · rename_i h
    simp only [memOf, List.getD_eq_getElem?_getD]
    rw [List.getElem?_eq_none (by omega)]
    rfl

end FpgaPartialReconfig.Driver
