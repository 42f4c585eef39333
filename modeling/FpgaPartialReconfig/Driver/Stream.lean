/-
  Streaming the bitstream to the PR IP.

  The fpga_pcie driver reads the file four bytes at a time in a `do … while` that writes
  before it tests and reads ahead into one buffer; the fpga driver counts down the bytes of
  an image in memory. Both put the same words: `feed` writes a list of words with a check
  after each 4 KiB chunk, and both loops are shown to be `feed` of the file's complete words
  followed by one remainder write (`writeLoop_feed`, `imageLoop_feed`).

  `loopStop` is how many complete words the file loop gets through: all of them below
  2 GiB, and 2^29 from there on, where the `int` offset wraps and the next read fails.
-/
import FpgaPartialReconfig.Driver.PrCore

namespace FpgaPartialReconfig.Driver

open Bus

section
variable {σ : Type} (D : Device Addr U32 σ)

/-! ## What the two drivers share -/

/-- Write `ws` to the data register. `check j` is what happens once `j` words of the current
    4 KiB chunk are written; it returns `false` to abandon the stream. -/
def feed (check : Nat → Act (Regs σ) Bool) : Nat → List U32 → Act (Regs σ) Bool
  | _, [] => pure true
  | j, w :: ws => do
    writel D w altPrData
    let ok ← check (j + 1)
    if ok = true then
      feed check (if 1024 ≤ j + 1 then 0 else j + 1) ws
    else
      pure false

/-- The remainder `switch (ret)` and the status check that ends every `write`. -/
def finishWrite (stateOf : U32 → FpgaState) (ret : Int) (word : U32) : Act (Regs σ) Int := do
  let known ← remainder
  if known = false then
    return -EFAULT
  else do
    let s ← prState D stateOf
    if s = .writeErr then
      return - EIO
    else
      return 0
where
  /-- `false` in the `default` branch. -/
  remainder : Act (Regs σ) Bool :=
    if ret = 3 then do
      writel D (word &&& tailMask 3) altPrData
      pure true
    else if ret = 2 then do
      writel D (word &&& tailMask 2) altPrData
      pure true
    else if ret = 1 then do
      writel D (word &&& tailMask 1) altPrData
      pure true
    else if ret = 0 then
      pure true
    else
      pure false

/-! ## Termination of the file loop -/

/-- How far the loop's next read is from the end of the file. -/
def readDistance (fp : RbfFile) (offset ret : Int) : Nat :=
  if 0 ≤ addInt offset ret then fp.size + 1 - (addInt offset ret).toNat else 0

theorem RbfFile.read_four {fp : RbfFile} {ofs : Int} {buf : Mem}
    (h : 4 ≤ (fp.kernelRead ofs 4 buf).1) :
    0 ≤ ofs ∧ ofs.toNat + 4 ≤ fp.size ∧ (fp.kernelRead ofs 4 buf).1 = 4 := by
  by_cases h0 : 0 ≤ ofs
  · rw [fp.read_nonneg ofs 4 buf h0] at h ⊢
    simp only [RbfFile.size] at *
    omega
  · have := fp.read_neg ofs 4 buf (by omega)
    omega

theorem readDistance_lt {fp : RbfFile} {offset ret : Int} {buf : Mem}
    (h : 4 ≤ (fp.kernelRead (addInt offset ret) 4 buf).1) :
    readDistance fp (addInt offset ret) (fp.kernelRead (addInt offset ret) 4 buf).1 <
      readDistance fp offset ret := by
  obtain ⟨h0, hsize, h4⟩ := RbfFile.read_four h
  have hlt := addInt_lt offset ret
  rw [h4]
  unfold readDistance
  generalize addInt offset ret = o at *
  by_cases hw : o + 4 < 2 ^ 31
  · rw [addInt_of_small (by omega) hw, if_pos (by omega), if_pos h0]
    omega
  · have := addInt_wrap (a := o) (b := 4) (by omega) (by omega)
    rw [if_neg (by omega), if_pos h0]
    omega

/-! ## The source's functions -/

namespace S10

/-- The `VERBOSE_TRUE` check after a 4 KiB chunk: `false` is the early `return -EIO`. Without
    `VERBOSE_TRUE` the chunk boundary only sleeps. -/
def chunkCheck (verbose : Bool) (j : Nat) : Act (Regs σ) Bool :=
  if 1024 ≤ j ∧ verbose = true then do
    let s ← prState D stateOf
    pure (s == .write)
  else
    pure true

/-- The `do … while (ret >= 4)` of the fpga_pcie driver from the top of its body; `none` is
    the early return. -/
def writeLoop (verbose : Bool) (fp : RbfFile) (j : Nat) (offset ret : Int) (buf : Mem) :
    Act (Regs σ) (Option (Int × Mem)) := do
  writel D (le32 buf 0) altPrData
  let ok ← chunkCheck D verbose (j + 1)
  if ok = true then
    if _h : 4 ≤ (fp.kernelRead (addInt offset ret) 4 buf).1 then
      writeLoop verbose fp (if 1024 ≤ j + 1 then 0 else j + 1) (addInt offset ret)
        (fp.kernelRead (addInt offset ret) 4 buf).1 (fp.kernelRead (addInt offset ret) 4 buf).2
    else
      pure (some (fp.kernelRead (addInt offset ret) 4 buf))
  else
    pure none
termination_by readDistance fp offset ret
decreasing_by exact readDistance_lt _h

/-- `buf` is the uninitialised `char buf[4]`. -/
def altPrIpFpgaWrite (verbose : Bool) (fp : RbfFile) (buf : Mem) : Act (Regs σ) Int := do
  let _ ← altPrIpFpgaState D
  let first := fp.kernelRead 0 4 buf
  let r ← writeLoop D verbose fp 0 0 first.1 first.2
  match r with
  | none => return - EIO
  | some (ret, buf) => finishWrite D stateOf ret (le32 buf 0)

/-- The counted loop of the fpga driver; the result is `count` and `i` after it. -/
def imageLoop (verbose : Bool) (image : Mem) (j count i : Nat) :
    Act (Regs σ) (Option (Nat × Nat)) :=
  if 4 ≤ count then do
    writel D (le32 image (4 * i)) altPrData
    let ok ← chunkCheck D verbose (j + 1)
    if ok = true then
      imageLoop verbose image (if 1024 ≤ j + 1 then 0 else j + 1) (count - 4) (i + 1)
    else
      pure none
  else
    pure (some (count, i))
termination_by count

/-- The timing counters, read once the image is written; the values are only printed. -/
def readPReg : Act (Regs σ) Unit := do
  let _ ← readl D (.prIp (0x0c + 0x00))
  let _ ← readl D (.prIp (0x0c + 0x04))
  let _ ← readl D (.prIp (0x0c + 0x08))
  let _ ← readl D (.prIp (0x0c + 0x0c))
  let _ ← readl D (.prIp (0x0c + 0x10))
  let _ ← readl D (.prIp (0x0c + 0x14))
  pure ()

def altPrFpgaWrite (verbose : Bool) (image : Mem) (count : Nat) : Act (Regs σ) Int :=
  if count ≤ 0 then
    pure (-EINVAL)
  else do
    let _ ← altPrFpgaState D
    let r ← imageLoop D verbose image 0 count 0
    match r with
    | none => return - EIO
    | some (count, i) =>
      let ret ← finishWrite D stateOf count (le32 image (4 * i))
      if ret = 0 then
        readPReg D
      return ret

end S10

namespace A10

/-- As on Stratix 10, without chunks. -/
def writeLoop (fp : RbfFile) (offset ret : Int) (buf : Mem) : Act (Regs σ) (Int × Mem) := do
  writel D (le32 buf 0) altPrData
  if _h : 4 ≤ (fp.kernelRead (addInt offset ret) 4 buf).1 then
    writeLoop fp (addInt offset ret) (fp.kernelRead (addInt offset ret) 4 buf).1
      (fp.kernelRead (addInt offset ret) 4 buf).2
  else
    pure (fp.kernelRead (addInt offset ret) 4 buf)
termination_by readDistance fp offset ret
decreasing_by exact readDistance_lt _h

def altPrIpFpgaWrite (fp : RbfFile) (buf : Mem) : Act (Regs σ) Int := do
  let first := fp.kernelRead 0 4 buf
  let r ← writeLoop D fp 0 first.1 first.2
  finishWrite D stateOf r.1 (le32 r.2 0)

def imageLoop (image : Mem) (count i : Nat) : Act (Regs σ) (Nat × Nat) :=
  if 4 ≤ count then do
    writel D (le32 image (4 * i)) altPrData
    imageLoop image (count - 4) (i + 1)
  else
    pure (count, i)
termination_by count

def altPrFpgaWrite (image : Mem) (count : Nat) : Act (Regs σ) Int :=
  if count ≤ 0 then
    pure (-EINVAL)
  else do
    let r ← imageLoop D image count 0
    finishWrite D stateOf r.1 (le32 image (4 * r.2))

/-- Without `VERBOSE_TRUE` a chunk boundary touches no register, so the Arria 10 file loop is
    the Stratix 10 one. -/
theorem writeLoop_eq_s10 (fp : RbfFile) (j : Nat) (offset ret : Int) (buf : Mem) (m : Regs σ) :
    S10.writeLoop D false fp j offset ret buf m =
      (some (writeLoop D fp offset ret buf m).1, (writeLoop D fp offset ret buf m).2) := by
  rw [S10.writeLoop, writeLoop]
  simp only [S10.chunkCheck, Bool.false_eq_true, and_false, if_false, Act.bind_apply,
    Act.pure_apply, if_true]
  split
  · rename_i h
    exact writeLoop_eq_s10 fp _ _ _ _ _
  · rfl
termination_by readDistance fp offset ret
decreasing_by exact readDistance_lt ‹_›

/-- The same for the image loops. -/
theorem imageLoop_eq_s10 (image : Mem) (j count i : Nat) (m : Regs σ) :
    S10.imageLoop D false image j count i m =
      (some (imageLoop D image count i m).1, (imageLoop D image count i m).2) := by
  rw [S10.imageLoop, imageLoop]
  split
  · simp only [S10.chunkCheck, Bool.false_eq_true, and_false, if_false, Act.bind_apply,
      Act.pure_apply, if_true]
    exact imageLoop_eq_s10 image _ (count - 4) (i + 1) _
  · rfl
termination_by count

end A10

/-! ## Both loops are `feed` -/

/-- How many complete words the file loop gets through. -/
def loopStop (n : Nat) : Nat := min (n / 4) (2 ^ 29)

/-- The loop's last read: the remainder of a file below 2 GiB, and an error beyond. -/
structure LastRead (fp : RbfFile) (r : Int × Mem) : Prop where
  small : fp.size < 2 ^ 31 → r.1 = (fp.size % 4 : Nat)
  bytes : fp.size < 2 ^ 31 → ∀ i < fp.size % 4,
    r.2 i = memOf fp.bytes (4 * (fp.size / 4) + i)
  large : 2 ^ 31 ≤ fp.size → r.1 < 0

/-- The offset before word `k + 1` is read. -/
theorem addInt_word {k : Nat} {offset ret : Int} (hk : k < 2 ^ 29)
    (h : addInt offset ret = ((4 * (k + 1) : Nat) : Int).bmod (2 ^ 32)) :
    addInt offset ret = if k + 1 < 2 ^ 29 then ((4 * (k + 1) : Nat) : Int) else -2 ^ 31 := by
  rw [h, Int.bmod_def]
  split <;> split <;> omega

/-- A read of the next word while there is one. -/
theorem RbfFile.read_word (fp : RbfFile) {k : Nat} {ofs : Int} (buf : Mem)
    (hofs : ofs = ((4 * k : Nat) : Int)) (hk : k < fp.size / 4) :
    (fp.kernelRead ofs 4 buf).1 = 4 ∧
      le32 (fp.kernelRead ofs 4 buf).2 0 = fileWord fp.bytes k := by
  rw [fp.read_nonneg ofs 4 buf (by omega)]
  have hn : min 4 (fp.bytes.length - ofs.toNat) = 4 := by
    simp only [RbfFile.size] at hk
    omega
  have ho : ofs.toNat = 4 * k := by omega
  rw [hn, ho]
  refine ⟨rfl, le32_congr fun i hi => ?_⟩
  simp only [copyIn, Nat.zero_add, if_pos hi]

/-- The read after the last complete word. -/
theorem RbfFile.read_last (fp : RbfFile) {k : Nat} {ofs : Int} (buf : Mem)
    (hk : k + 1 = loopStop fp.size)
    (hofs : ofs = if k + 1 < 2 ^ 29 then ((4 * (k + 1) : Nat) : Int) else -2 ^ 31) :
    ¬ 4 ≤ (fp.kernelRead ofs 4 buf).1 ∧ LastRead fp (fp.kernelRead ofs 4 buf) := by
  unfold loopStop at hk
  by_cases hsmall : fp.size < 2 ^ 31
  · have hq : k + 1 = fp.size / 4 := by omega
    have ho : ofs = ((4 * (fp.size / 4) : Nat) : Int) := by
      rw [hofs, if_pos (by omega), hq]
    have hr : fp.kernelRead ofs 4 buf =
        (((fp.size % 4 : Nat) : Int),
          copyIn fp.bytes (4 * (fp.size / 4)) (fp.size % 4) buf) := by
      have hn : min 4 (fp.bytes.length - ofs.toNat) = fp.size % 4 := by
        simp only [RbfFile.size] at ho ⊢
        omega
      rw [fp.read_nonneg ofs 4 buf (by omega), hn, ho, Int.toNat_natCast]
    rw [hr]
    refine ⟨by simp only; omega, fun _ => rfl, fun _ i hi => ?_, fun h => by omega⟩
    simp only [copyIn, if_pos hi]
  · have hneg := fp.read_neg ofs 4 buf (by
      rw [hofs, if_neg (by omega)]
      decide)
    exact ⟨by omega, fun h => absurd h hsmall, fun h => absurd h hsmall, fun _ => hneg⟩

/-- The file loop writes the complete words from word `k` on, and then makes the last read. -/
theorem S10.writeLoop_feed (verbose : Bool) (fp : RbfFile) {k : Nat} (j : Nat)
    {offset ret : Int} {buf : Mem} (hk : k < loopStop fp.size)
    (hbuf : le32 buf 0 = fileWord fp.bytes k)
    (hofs : addInt offset ret = ((4 * (k + 1) : Nat) : Int).bmod (2 ^ 32)) :
    ∃ r, LastRead fp r ∧ S10.writeLoop D verbose fp j offset ret buf =
      (do
        let ok ← feed D (S10.chunkCheck D verbose) j
          (wordsBetween fp.bytes k (loopStop fp.size))
        pure (if ok = true then some r else none)) := by
  have ho := addInt_word (by simp only [loopStop] at hk; omega) hofs
  -- induction on the words left
  generalize hd : loopStop fp.size - k = d
  induction d generalizing k j offset ret buf with
  | zero => omega
  | succ d ih =>
    rw [wordsBetween_cons _ hk]
    by_cases hlast : k + 1 = loopStop fp.size
    · obtain ⟨hstop, hr⟩ := fp.read_last buf hlast ho
      refine ⟨_, hr, funext fun m => ?_⟩
      rw [S10.writeLoop, dif_neg hstop, hlast, wordsBetween_self, feed, hbuf]
      simp only [Act.bind_apply, Act.ite_apply, Act.pure_apply, feed]
      split <;> simp [*]
    · have hk1 : k + 1 < loopStop fp.size := by omega
      have hlt : k + 1 < 2 ^ 29 ∧ k + 1 < fp.size / 4 := by
        simp only [loopStop] at hk1
        omega
      rw [if_pos hlt.1] at ho
      obtain ⟨h4, hword⟩ := fp.read_word buf ho hlt.2
      have hofs' : addInt (addInt offset ret) (fp.kernelRead (addInt offset ret) 4 buf).1 =
          ((4 * (k + 1 + 1) : Nat) : Int).bmod (2 ^ 32) := by
        rw [h4, addInt, ho]
        congr 1
      obtain ⟨r, hr, heq⟩ := ih (if 1024 ≤ j + 1 then 0 else j + 1) hk1 hword hofs'
        (addInt_word hlt.1 hofs') (by omega)
      refine ⟨r, hr, funext fun m => ?_⟩
      rw [S10.writeLoop, dif_pos (by omega), heq, hbuf]
      simp only [feed, Act.bind_apply, Act.ite_apply, Act.pure_apply]
      split <;> simp [*]

/-- The words of an image in memory. -/
theorem S10.imageLoop_feed (verbose : Bool) {bytes : List Byte} {image : Mem}
    (himage : ∀ i < bytes.length, image i = memOf bytes i) (j : Nat) {k : Nat}
    (hk : k ≤ bytes.length / 4) :
    S10.imageLoop D verbose image j (bytes.length - 4 * k) k =
      (do
        let ok ← feed D (S10.chunkCheck D verbose) j
          (wordsBetween bytes k (bytes.length / 4))
        pure (if ok = true then some (bytes.length % 4, bytes.length / 4) else none)) := by
  generalize hd : bytes.length / 4 - k = d
  induction d generalizing k j with
  | zero =>
    have hkq : k = bytes.length / 4 := by omega
    funext m
    rw [S10.imageLoop, if_neg (by omega), ← hkq, wordsBetween_self]
    have hmod : bytes.length - 4 * k = bytes.length % 4 := by omega
    simp [feed, hmod]
  | succ d ih =>
    have hlt : k < bytes.length / 4 := by omega
    have hword : le32 image (4 * k) = fileWord bytes k :=
      le32_congr fun i hi => himage _ (by omega)
    have hsub : bytes.length - 4 * k - 4 = bytes.length - 4 * (k + 1) := by omega
    funext m
    rw [S10.imageLoop, if_pos (by omega), wordsBetween_cons _ hlt, hsub,
      ih _ (by omega) (by omega), hword]
    simp only [feed, Act.bind_apply, Act.ite_apply, Act.pure_apply]
    split <;> simp [*]

/-! ## The remainder write as a list of words -/

def putWords : List U32 → Act (Regs σ) Unit
  | [] => pure ()
  | w :: ws => do
    writel D w altPrData
    putWords ws

/-- The remainder words, then the status check. -/
def closeWrite (stateOf : U32 → FpgaState) (ws : List U32) : Act (Regs σ) Int := do
  putWords D ws
  let s ← prState D stateOf
  if s = .writeErr then
    return - EIO
  else
    return 0

theorem closeWrite_nil (stateOf : U32 → FpgaState) :
    closeWrite D stateOf [] =
      (do
        let s ← prState D stateOf
        if s = .writeErr then
          return - EIO
        else
          return 0) := rfl

theorem finishWrite_eq (stateOf : U32 → FpgaState) {bytes : List Byte} {word : U32}
    (hword : ∀ r, bytes.length % 4 = r → 1 ≤ r →
      word &&& tailMask r = fileWord bytes (bytes.length / 4)) :
    finishWrite D stateOf (bytes.length % 4 : Nat) word =
      closeWrite D stateOf (tailWords bytes) := by
  have hlt : bytes.length % 4 < 4 := Nat.mod_lt _ (by decide)
  unfold finishWrite finishWrite.remainder closeWrite tailWords
  funext m
  generalize hr : bytes.length % 4 = r at *
  interval_cases r
  · simp [putWords]
  · simp [putWords, hword 1 rfl]
  · simp [putWords, hword 2 rfl]
  · simp [putWords, hword 3 rfl]

/-- Beyond 2 GiB the last read fails, and `write` ends in the `default` branch. -/
theorem finishWrite_neg (stateOf : U32 → FpgaState) {ret : Int} (h : ret < 0) (word : U32) :
    finishWrite D stateOf ret word = pure (-EFAULT) := by
  unfold finishWrite finishWrite.remainder
  funext m
  have h3 : ret ≠ 3 := by omega
  have h2 : ret ≠ 2 := by omega
  have h1 : ret ≠ 1 := by omega
  have h0 : ret ≠ 0 := by omega
  simp [h3, h2, h1, h0]

theorem LastRead.word {fp : RbfFile} {r : Int × Mem} (h : LastRead fp r)
    (hsize : fp.size < 2 ^ 31) : ∀ k, fp.bytes.length % 4 = k → 1 ≤ k →
      le32 r.2 0 &&& tailMask k = fileWord fp.bytes (fp.bytes.length / 4) := by
  intro k hk h1
  have hb := h.bytes hsize
  have hsub : fp.bytes.length - 4 * (fp.bytes.length / 4) = k := by omega
  simp only [RbfFile.size] at hb
  have ht := tail_word fp.bytes r.2 (fp.bytes.length / 4) (by omega) (by omega)
    (by rw [hsub, ← hk]; exact hb)
  rwa [hsub] at ht

theorem image_word {bytes : List Byte} {image : Mem}
    (himage : ∀ i < bytes.length, image i = memOf bytes i) : ∀ k, bytes.length % 4 = k → 1 ≤ k →
      le32 image (4 * (bytes.length / 4)) &&& tailMask k =
        fileWord bytes (bytes.length / 4) := by
  intro k hk h1
  have hsub : bytes.length - 4 * (bytes.length / 4) = k := by omega
  have ht := tail_word bytes (fun i => image (4 * (bytes.length / 4) + i)) (bytes.length / 4)
    (by omega) (by omega) (fun i hi => himage _ (by omega))
  rw [hsub] at ht
  rw [← ht]
  congr 1

/-! ## What streaming does to any device -/

/-- Writing a list of words writes a prefix of it, and all of it when no check fails. -/
theorem emits_feed {check : Nat → Act (Regs σ) Bool}
    (hcheck : ∀ j, Emits (check j) fun _ es => Silent es) (j : Nat) (ws : List U32) :
    Emits (feed D check j ws) fun ok es =>
      writesTo altPrData es <+: ws ∧ (ok = true → writesTo altPrData es = ws) := by
  induction ws generalizing j with
  | nil => exact Spec.pure fun _ _ => ⟨List.prefix_rfl, fun _ => rfl⟩
  | cons w ws ih =>
    refine (emits_writel D w altPrData).bind fun _ es h => ?_
    subst h
    refine (hcheck (j + 1)).bind fun ok es hes => Spec.ite (fun _ => ?_) fun hok => ?_
    · refine (ih _).mono fun ok' es' h => ?_
      have hw : writesTo altPrData ([.write altPrData w] ++ (es ++ es')) =
          w :: writesTo altPrData es' := by
        rw [writesTo_append, writesTo_append, hes]
        rfl
      rw [hw]
      exact ⟨(List.prefix_cons_inj w).mpr h.1, fun hok' => by rw [h.2 hok']⟩
    · refine Spec.pure fun _ _ => ⟨?_, fun h => absurd h (by decide)⟩
      rw [List.append_nil, writesTo_append, hes]
      exact ⟨ws, rfl⟩

theorem emits_putWords (ws : List U32) :
    Emits (putWords D ws) fun _ es => writesTo altPrData es = ws := by
  induction ws with
  | nil => exact Spec.pure fun _ _ => rfl
  | cons w ws ih =>
    refine (emits_writel D w altPrData).bind fun _ es h => ?_
    subst h
    refine ih.mono fun _ es' h => ?_
    exact congrArg (List.cons w) h

theorem emits_closeWrite (stateOf : U32 → FpgaState) (ws : List U32) :
    Emits (closeWrite D stateOf ws) fun ret es => ret ≤ 0 ∧ writesTo altPrData es = ws := by
  refine (emits_putWords D ws).bind fun _ es h => ?_
  refine (emits_prState D stateOf).bind fun s es' h' => ?_
  obtain ⟨v, rfl, -⟩ := h'
  have hw : writesTo altPrData (es ++ ([.read altPrCsr v] ++ [])) = ws := by
    rw [writesTo_append, h]
    exact List.append_nil ws
  exact Spec.ite (fun _ => Spec.pure fun _ _ => ⟨by decide, hw⟩) fun _ =>
    Spec.pure fun _ _ => ⟨Int.le_refl 0, hw⟩

theorem within_feed {check : Nat → Act (Regs σ) Bool}
    (hcheck : ∀ j, Within D Addr.IsPrIp (check j)) (j : Nat) (ws : List U32) :
    Within D Addr.IsPrIp (feed D check j ws) := by
  induction ws generalizing j with
  | nil => exact .pure _
  | cons w ws ih =>
    exact .bind (.put _ ⟨_, rfl⟩) fun _ => .bind (hcheck _) fun _ => .ite (ih _) (.pure _)

theorem within_closeWrite (stateOf : U32 → FpgaState) (ws : List U32) :
    Within D Addr.IsPrIp (closeWrite D stateOf ws) := by
  have hput : Within D Addr.IsPrIp (putWords D ws) := by
    induction ws with
    | nil => exact .pure _
    | cons w ws ih => exact .bind (.put _ ⟨_, rfl⟩) fun _ => ih
  exact .bind hput fun _ => .bind (within_prState D stateOf) fun _ => .ite (.pure _) (.pure _)

theorem S10.within_chunkCheck (verbose : Bool) (j : Nat) :
    Within D Addr.IsPrIp (S10.chunkCheck D verbose j) :=
  .ite (.bind (within_prState D S10.stateOf) fun _ => .pure _) (.pure _)

theorem S10.emits_chunkCheck (verbose : Bool) (j : Nat) :
    Emits (S10.chunkCheck D verbose j) fun _ es => Silent es := by
  refine Spec.ite (fun _ => ?_) fun _ => Spec.pure fun _ _ => silent_nil
  refine (emits_prState D S10.stateOf).bind fun s es h => Spec.pure fun _ _ => ?_
  obtain ⟨v, rfl, -⟩ := h
  exact silent_read _ _

end
end FpgaPartialReconfig.Driver
