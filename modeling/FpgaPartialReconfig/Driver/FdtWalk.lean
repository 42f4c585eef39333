/-
  The reader over any bytes.

  The header of a blob says how long the structure block is, and nothing else about the bytes
  is known. From the root on the reader goes from tag to tag (`Reached`). It stays inside the
  block, and each tag is behind the one before, with one exception: a property whose length
  cell is 0xfffffff4 ends where it begins, and the next tag is the same one again
  (`StuckAt`). The loops over the nodes end if and only if no such property is reached.

  Strings are read to their NUL, wherever that is; it is assumed that there is one at the end
  of the address space.
-/
import FpgaPartialReconfig.Driver.FdtBlob

namespace FpgaPartialReconfig.Driver.Blob

open CString

/-- The block ends where `int` offsets and pointers have not wrapped. -/
structure Declared (mem : Memory) (fdt : Nat) : Prop where
  version : 0x11 ≤ fdtVersion mem fdt
  int : fdtSizeDtStruct mem fdt + 4 ≤ 2 ^ 31
  memory : blockAddr mem fdt + fdtSizeDtStruct mem fdt + 4 ≤ 2 ^ 64

/-- The word of the block at `o`. -/
def word (mem : Memory) (fdt o : Nat) : Nat := (fdt32 mem (blockAddr mem fdt + o)).toNat

/-- A property that ends where it begins. -/
def StuckAt (mem : Memory) (fdt o : Nat) : Prop :=
  o + 8 ≤ fdtSizeDtStruct mem fdt ∧ word mem fdt o = FDT_PROP ∧
    word mem fdt (o + 4) = 2 ^ 32 - 12

variable {mem : Memory} {fdt rounds o : Nat}

/-! ## Pointers into the block -/

theorem fdtOffsetPtr_declared (hd : Declared mem fdt) {len : Nat} (ho : o < 2 ^ 32)
    (hlen : len < 2 ^ 32) :
    fdtOffsetPtr mem fdt o len =
      if o + len ≤ fdtSizeDtStruct mem fdt then some (blockAddr mem fdt + o) else none := by
  have hversion := hd.version
  have hint := hd.int
  have hmemory := hd.memory
  have hunsigned : toUnsigned o = o := toUnsigned_of_lt ho
  by_cases hinside : o + len ≤ fdtSizeDtStruct mem fdt
  · have hw : Within mem fdt (o + len) := ⟨fun _ => hinside, by omega, by omega⟩
    rw [if_pos hinside]
    exact fdtOffsetPtr_within hw (Nat.le_refl _)
  · rw [if_neg hinside]
    unfold fdtOffsetPtr
    simp only [hunsigned]
    exact if_pos ⟨hversion, by omega⟩

/-- A name ends inside the block, or the block ends first. -/
theorem skipName_declared (hd : Declared mem fdt) (ho : o ≤ fdtSizeDtStruct mem fdt + 4)
    (hrounds : fdtSizeDtStruct mem fdt + 4 < rounds + o) :
    skipName mem fdt rounds o = some none ∨
      ∃ e : Nat, skipName mem fdt rounds o = some (some (e : Int)) ∧ o < e ∧
        e ≤ fdtSizeDtStruct mem fdt := by
  have hint := hd.int
  induction rounds generalizing o with
  | zero => exact absurd hrounds (by omega)
  | succ rounds ih =>
    have hptr := fdtOffsetPtr_declared hd (show o < 2 ^ 32 by omega) (show 1 < 2 ^ 32 by decide)
    unfold skipName
    by_cases hinside : o + 1 ≤ fdtSizeDtStruct mem fdt
    · have hnext : addInt o 1 = (o + 1 : Nat) := addInt_nat (show o + 1 < 2 ^ 31 by omega)
      rw [if_pos hinside] at hptr
      simp only [hptr, hnext]
      by_cases hnul : mem (blockAddr mem fdt + o) = 0
      · rw [if_pos hnul]
        exact .inr ⟨o + 1, rfl, Nat.lt_succ_self o, hinside⟩
      · rw [if_neg hnul]
        rcases ih (o := o + 1) (by omega) (by omega) with hnone | ⟨e, he, hlow, hhigh⟩
        · exact .inl hnone
        · exact .inr ⟨e, he, by omega, hhigh⟩
    · rw [if_neg hinside] at hptr
      simp only [hptr]
      exact .inl trivial

/-! ## One tag -/

/-- What is known of a tag at `o` that is not FDT_END, and of the offset behind it. -/
structure Advances (mem : Memory) (fdt o tag : Nat) (next : Int) : Prop where
  inside : o + 4 ≤ fdtSizeDtStruct mem fdt
  word : word mem fdt o = tag
  next : ∃ o' : Nat, next = o' ∧ 4 ∣ o' ∧ o' ≤ fdtSizeDtStruct mem fdt + 3 ∧
    (o < o' ∧ ¬ StuckAt mem fdt o ∨ o' = o ∧ StuckAt mem fdt o)

/-- The end of what belongs to the tag, `len` bytes behind it, is aligned. -/
theorem tagEnd_declared (hd : Declared mem fdt) (haligned : 4 ∣ o) {e : Int} {len : Nat}
    (ho : o < 2 ^ 31) (hlen : len < 2 ^ 32) (he : toUnsigned (e - o) = len)
    (hsmall : o + len ≤ fdtSizeDtStruct mem fdt → e = (o + len : Nat)) (tag : Nat) :
    (match fdtOffsetPtr mem fdt o (toUnsigned (e - o)) with
      | none => some (FDT_END, -FDT_ERR_BADSTRUCTURE)
      | some _ => some (tag, fdtTagalign e)) =
    if o + len ≤ fdtSizeDtStruct mem fdt then some (tag, ((o + (len + 3) / 4 * 4 : Nat) : Int))
    else some (FDT_END, -FDT_ERR_BADSTRUCTURE) := by
  have hint := hd.int
  rw [he, fdtOffsetPtr_declared hd (by omega) hlen]
  by_cases hinside : o + len ≤ fdtSizeDtStruct mem fdt
  · rw [if_pos hinside, if_pos hinside, hsmall hinside]
    exact congrArg (fun x => some (tag, x)) (fdtTagalign_of_aligned haligned (by omega))
  · rw [if_neg hinside, if_neg hinside]

theorem toUnsigned_bmod (x : Int) (n : Nat) :
    toUnsigned ((x + n).bmod (2 ^ 32) - x) = n % 2 ^ 32 := by
  unfold toUnsigned
  rw [Int.bmod_def]
  split <;> omega

theorem not_stuck_of_word {tag : Nat} (hword : word mem fdt o = tag) (htag : tag ≠ FDT_PROP) :
    ¬ StuckAt mem fdt o := fun h => htag (hword.symm.trans h.2.1)

/-- Behind a tag: an error, or an end `len` bytes behind `o`, where `len` is 0 at a property
    that is stuck and only there. -/
theorem skipTag_declared (hd : Declared mem fdt) (ho : o + 4 ≤ fdtSizeDtStruct mem fdt)
    (hrounds : fdtSizeDtStruct mem fdt + 4 < rounds) :
    (skipTag mem fdt rounds (word mem fdt o) (o + 4 : Nat) = some none ∧ ¬ StuckAt mem fdt o) ∨
      ∃ (e : Int) (len : Nat),
        skipTag mem fdt rounds (word mem fdt o) (o + 4 : Nat) = some (some e) ∧
          toUnsigned (e - o) = len ∧ len < 2 ^ 32 ∧
          (o + len ≤ fdtSizeDtStruct mem fdt → e = (o + len : Nat)) ∧
          (0 < len ∧ ¬ StuckAt mem fdt o ∨ len = 0 ∧ StuckAt mem fdt o) := by
  have hint := hd.int
  unfold skipTag
  by_cases hbegin : word mem fdt o = FDT_BEGIN_NODE
  · have hfree := not_stuck_of_word hbegin (by decide)
    rw [if_pos hbegin]
    rcases skipName_declared hd (show o + 4 ≤ fdtSizeDtStruct mem fdt + 4 by omega)
      (show fdtSizeDtStruct mem fdt + 4 < rounds + (o + 4) by omega) with hnone | ⟨e, he, hlow, hhigh⟩
    · exact .inl ⟨hnone, hfree⟩
    · refine .inr ⟨e, e - o, he, ?_, by omega, fun _ => by omega, .inl ⟨by omega, hfree⟩⟩
      unfold toUnsigned
      omega
  · rw [if_neg hbegin]
    by_cases hprop : word mem fdt o = FDT_PROP
    · rw [if_pos hprop, fdtOffsetPtr_declared hd (by omega) (by decide)]
      by_cases hcell : o + 4 + 4 ≤ fdtSizeDtStruct mem fdt
      · rw [if_pos hcell]
        have hlt : word mem fdt (o + 4) < 2 ^ 32 := (fdt32 mem (blockAddr mem fdt + (o + 4))).isLt
        have hend : addInt (o + 4 : Nat) (8 + word mem fdt (o + 4)) =
            ((o : Int) + (12 + word mem fdt (o + 4) : Nat)).bmod (2 ^ 32) := by
          unfold addInt
          exact congrArg (Int.bmod · (2 ^ 32)) (by omega)
        refine .inr ⟨_, (12 + word mem fdt (o + 4)) % 2 ^ 32, rfl, ?_, Nat.mod_lt _ (by decide),
          ?_, ?_⟩
        · change toUnsigned (addInt _ (8 + (word mem fdt (o + 4) : Int)) - o) = _
          rw [hend, toUnsigned_bmod]
        · intro hinside
          change addInt _ (8 + (word mem fdt (o + 4) : Int)) = _
          rw [hend, Int.bmod_def]
          split <;> omega
        · by_cases hlen : word mem fdt (o + 4) = 2 ^ 32 - 12
          · refine .inr ⟨by omega, hcell, hprop, hlen⟩
          · refine .inl ⟨by omega, fun h => hlen h.2.2⟩
      · rw [if_neg hcell]
        exact .inl ⟨rfl, fun h => hcell h.1⟩
    · have hfree := not_stuck_of_word rfl hprop
      rw [if_neg hprop]
      split
      · refine .inr ⟨_, 4, rfl, ?_, by decide, fun _ => rfl, .inl ⟨by decide, hfree⟩⟩
        unfold toUnsigned
        omega
      · exact .inl ⟨rfl, hfree⟩

theorem fdtNextTag_inside (hd : Declared mem fdt) (ho : o + 4 ≤ fdtSizeDtStruct mem fdt) :
    fdtNextTag mem fdt rounds o =
      match skipTag mem fdt rounds (word mem fdt o) (o + 4 : Nat) with
      | none => none
      | some none => some (FDT_END, -FDT_ERR_BADSTRUCTURE)
      | some (some e) =>
        match fdtOffsetPtr mem fdt o (toUnsigned (e - o)) with
        | none => some (FDT_END, -FDT_ERR_BADSTRUCTURE)
        | some _ => some (word mem fdt o, fdtTagalign e) := by
  have hint := hd.int
  have htag := fdtOffsetPtr_declared hd (show o < 2 ^ 32 by omega) (show 4 < 2 ^ 32 by decide)
  have hoffset := addInt_nat (show o + 4 < 2 ^ 31 by omega)
  rw [if_pos ho] at htag
  unfold fdtNextTag FDT_TAGSIZE
  simp only [htag, hoffset]
  rfl

theorem fdtNextTag_declared (hd : Declared mem fdt) (haligned : 4 ∣ o)
    (ho : o ≤ fdtSizeDtStruct mem fdt + 3) (hrounds : fdtSizeDtStruct mem fdt + 4 < rounds) :
    ∃ tag next, fdtNextTag mem fdt rounds o = some (tag, next) ∧
      (tag ≠ FDT_END → Advances mem fdt o tag next) ∧ (StuckAt mem fdt o → tag = FDT_PROP) := by
  have hint := hd.int
  by_cases hinside : o + 4 ≤ fdtSizeDtStruct mem fdt
  · rw [fdtNextTag_inside hd hinside]
    rcases skipTag_declared hd hinside hrounds with ⟨hnone, hfree⟩ | ⟨e, len, he, hlen, hlt, hsmall, hstuck⟩
    · rw [hnone]
      exact ⟨_, _, rfl, fun h => absurd rfl h, fun h => absurd h hfree⟩
    · rw [he]
      simp only []
      rw [tagEnd_declared hd haligned (by omega) hlt hlen hsmall]
      by_cases hends : o + len ≤ fdtSizeDtStruct mem fdt
      · rw [if_pos hends]
        refine ⟨_, _, rfl, fun _ => ⟨hinside, rfl, _, rfl, ?_, by omega, ?_⟩, fun h => h.2.1⟩
        · exact Nat.dvd_add haligned (Nat.dvd_mul_left 4 _)
        · rcases hstuck with ⟨hpos, hfree⟩ | ⟨rfl, hstuck⟩
          · exact .inl ⟨by omega, hfree⟩
          · exact .inr ⟨rfl, hstuck⟩
      · rw [if_neg hends]
        refine ⟨_, _, rfl, fun h => absurd rfl h, fun h => ?_⟩
        rcases hstuck with ⟨-, hfree⟩ | ⟨rfl, -⟩
        · exact absurd h hfree
        · exact absurd hinside (by omega)
  · have htag := fdtOffsetPtr_declared hd (show o < 2 ^ 32 by omega) (show 4 < 2 ^ 32 by decide)
    rw [if_neg hinside] at htag
    unfold fdtNextTag FDT_TAGSIZE
    simp only [htag]
    exact ⟨_, _, rfl, fun h => absurd rfl h, fun h => absurd h.1 (by omega)⟩

/-! ## More rounds -/

theorem skipName_mono {rounds' : Nat} (hle : rounds ≤ rounds') {x : Int} {r : Option Int}
    (h : skipName mem fdt rounds x = some r) : skipName mem fdt rounds' x = some r := by
  induction rounds generalizing rounds' x with
  | zero => cases h
  | succ rounds ih =>
    obtain ⟨rounds', rfl⟩ := Nat.exists_eq_succ_of_ne_zero (Nat.ne_of_gt (Nat.zero_lt_of_lt hle))
    unfold skipName at h ⊢
    cases hptr : fdtOffsetPtr mem fdt x 1 with
    | none =>
      rw [hptr] at h
      exact h
    | some p =>
      rw [hptr] at h
      by_cases hnul : mem p = 0
      · simp only [if_pos hnul] at h ⊢
        exact h
      · simp only [if_neg hnul] at h ⊢
        exact ih (Nat.le_of_succ_le_succ hle) h

theorem skipTag_mono {rounds' tag : Nat} (hle : rounds ≤ rounds') {x : Int} {r : Option Int}
    (h : skipTag mem fdt rounds tag x = some r) : skipTag mem fdt rounds' tag x = some r := by
  unfold skipTag at h ⊢
  by_cases hbegin : tag = FDT_BEGIN_NODE
  · rw [if_pos hbegin] at h ⊢
    exact skipName_mono hle h
  · rw [if_neg hbegin] at h ⊢
    exact h

theorem fdtNextTag_mono {rounds' : Nat} (hle : rounds ≤ rounds') {x : Int} {r : Nat × Int}
    (h : fdtNextTag mem fdt rounds x = some r) : fdtNextTag mem fdt rounds' x = some r := by
  unfold fdtNextTag at h ⊢
  cases hptr : fdtOffsetPtr mem fdt x FDT_TAGSIZE with
  | none =>
    rw [hptr] at h
    exact h
  | some p =>
    rw [hptr] at h
    simp only at h ⊢
    cases hskip : skipTag mem fdt rounds (fdt32 mem p).toNat (addInt x FDT_TAGSIZE) with
    | none =>
      rw [hskip] at h
      cases h
    | some e =>
      rw [hskip] at h
      rw [skipTag_mono hle hskip]
      exact h

/-! ## From tag to tag -/

/-- `tag` is at `o`, and the next one is at `next`. -/
def TagAt (mem : Memory) (fdt o tag : Nat) (next : Int) : Prop :=
  ∃ rounds, fdtNextTag mem fdt rounds o = some (tag, next)

/-- The offsets the reader comes to behind the tag of the root. -/
inductive Reached (mem : Memory) (fdt : Nat) : Nat → Prop where
  | root (o : Nat) : TagAt mem fdt 0 FDT_BEGIN_NODE o → Reached mem fdt o
  | step (o tag o' : Nat) : Reached mem fdt o → TagAt mem fdt o tag o' → tag ≠ FDT_END →
      Reached mem fdt o'

theorem TagAt.unique {tag tag' : Nat} {next next' : Int} (h : TagAt mem fdt o tag next)
    (h' : TagAt mem fdt o tag' next') : tag = tag' ∧ next = next' := by
  obtain ⟨n, hn⟩ := h
  obtain ⟨n', hn'⟩ := h'
  have hmax := fdtNextTag_mono (Nat.le_max_left n n') hn
  have hmax' := fdtNextTag_mono (Nat.le_max_right n n') hn'
  exact Prod.mk.inj (Option.some.inj (hmax.symm.trans hmax'))

/-- What a round that is not cut short finds. -/
theorem TagAt.run {tag : Nat} {next : Int} (h : TagAt mem fdt o tag next) (rounds : Nat) :
    fdtNextTag mem fdt rounds o = none ∨ fdtNextTag mem fdt rounds o = some (tag, next) := by
  cases hrun : fdtNextTag mem fdt rounds o with
  | none => exact .inl rfl
  | some found =>
    obtain ⟨htag, hnext⟩ := h.unique ⟨rounds, hrun⟩
    exact .inr (congrArg some (Prod.ext htag.symm hnext.symm))

structure Aligned (mem : Memory) (fdt o : Nat) : Prop where
  aligned : 4 ∣ o
  bound : o ≤ fdtSizeDtStruct mem fdt + 3

theorem tagAt_declared (hd : Declared mem fdt) (ho : Aligned mem fdt o) :
    ∃ tag next, TagAt mem fdt o tag next ∧
      (∀ rounds, fdtSizeDtStruct mem fdt + 4 < rounds →
        fdtNextTag mem fdt rounds o = some (tag, next)) ∧
      (tag ≠ FDT_END → Advances mem fdt o tag next) ∧ (StuckAt mem fdt o → tag = FDT_PROP) := by
  obtain ⟨tag, next, hrun, hrest⟩ :=
    fdtNextTag_declared hd ho.aligned ho.bound (Nat.lt_succ_self (fdtSizeDtStruct mem fdt + 4))
  exact ⟨tag, next, ⟨_, hrun⟩, fun rounds hrounds => fdtNextTag_mono hrounds hrun, hrest⟩

theorem TagAt.advances (hd : Declared mem fdt) (ho : Aligned mem fdt o) {tag : Nat} {next : Int}
    (h : TagAt mem fdt o tag next) (htag : tag ≠ FDT_END) : Advances mem fdt o tag next := by
  obtain ⟨tag', next', hat, -, hadvances, -⟩ := tagAt_declared hd ho
  obtain ⟨rfl, rfl⟩ := h.unique hat
  exact hadvances htag

theorem Advances.aligned {tag o' : Nat} (h : Advances mem fdt o tag o') : Aligned mem fdt o' := by
  obtain ⟨n, hn, haligned, hbound, -⟩ := h.next
  obtain rfl : o' = n := Int.ofNat.inj hn
  exact ⟨haligned, hbound⟩

theorem Reached.isAligned (hd : Declared mem fdt) (h : Reached mem fdt o) : Aligned mem fdt o := by
  induction h with
  | root o hroot =>
    have hzero : Aligned mem fdt 0 := ⟨Nat.dvd_zero 4, Nat.zero_le _⟩
    exact (hroot.advances hd hzero (by decide)).aligned
  | step o tag o' _ hat htag ih => exact (hat.advances hd ih htag).aligned

/-! ## The loops end -/

/-- A loop over tags: `stop` says where it ends and with what. -/
structure TagLoop (mem : Memory) (fdt rounds tag : Nat) (loop : Nat → Int → Option Int) : Prop where
  /-- It ends with an error or at the offset of a `tag`, or goes on behind another one. -/
  succ : ∀ n o tag' next, fdtNextTag mem fdt rounds o = some (tag', next) →
    (∃ r, loop (n + 1) o = some r ∧ r < 0) ∨ (tag' = tag ∧ loop (n + 1) o = some o) ∨
      (tag' ≠ FDT_END ∧ loop (n + 1) o = loop n next)

theorem nextNodeFrom_succ {x next : Int} {tag n : Nat}
    (h : fdtNextTag mem fdt rounds x = some (tag, next)) :
    nextNodeFrom mem fdt rounds (n + 1) x =
      if tag = FDT_BEGIN_NODE then some x
      else if tag = FDT_END then
        if 0 ≤ next ∨ next = -FDT_ERR_TRUNCATED then some (-FDT_ERR_NOTFOUND) else some next
      else nextNodeFrom mem fdt rounds n next := by
  rw [nextNodeFrom, h, Option.bind_eq_bind, Option.bind_some]

theorem nextprop_succ {x next : Int} {tag n : Nat}
    (h : fdtNextTag mem fdt rounds x = some (tag, next)) :
    nextprop mem fdt rounds (n + 1) x =
      if tag = FDT_END then
        if 0 ≤ next then some (-FDT_ERR_BADSTRUCTURE) else some next
      else if tag = FDT_PROP then some x
      else if tag = FDT_NOP then nextprop mem fdt rounds n next
      else some (-FDT_ERR_NOTFOUND) := by
  rw [nextprop, h, Option.bind_eq_bind, Option.bind_some]

theorem nextNodeFrom_loop :
    TagLoop mem fdt rounds FDT_BEGIN_NODE (nextNodeFrom mem fdt rounds) where
  succ n o tag next h := by
    rw [nextNodeFrom_succ h]
    by_cases hbegin : tag = FDT_BEGIN_NODE
    · exact .inr (.inl ⟨hbegin, if_pos hbegin⟩)
    · by_cases hend : tag = FDT_END
      · refine .inl ?_
        rw [if_neg hbegin, if_pos hend]
        by_cases hlast : 0 ≤ next ∨ next = -FDT_ERR_TRUNCATED
        · exact ⟨_, if_pos hlast, by decide⟩
        · exact ⟨_, if_neg hlast, Int.not_le.mp fun h => hlast (.inl h)⟩
      · rw [if_neg hbegin, if_neg hend]
        exact .inr (.inr ⟨hend, rfl⟩)

theorem nextprop_loop : TagLoop mem fdt rounds FDT_PROP (nextprop mem fdt rounds) where
  succ n o tag next h := by
    rw [nextprop_succ h]
    by_cases hend : tag = FDT_END
    · refine .inl ?_
      rw [if_pos hend]
      by_cases hlast : 0 ≤ next
      · exact ⟨_, if_pos hlast, by decide⟩
      · exact ⟨_, if_neg hlast, Int.not_le.mp hlast⟩
    · rw [if_neg hend]
      by_cases hprop : tag = FDT_PROP
      · exact .inr (.inl ⟨hprop, if_pos hprop⟩)
      · rw [if_neg hprop]
        by_cases hnop : tag = FDT_NOP
        · exact .inr (.inr ⟨hend, if_pos hnop⟩)
        · exact .inl ⟨_, if_neg hnop, by decide⟩

/-- No property that is reached is stuck. -/
def Free (mem : Memory) (fdt : Nat) : Prop := ∀ o, Reached mem fdt o → ¬ StuckAt mem fdt o

/-- A loop over tags that ended: with an error, or at a `tag` not before `o`. -/
def Ended (mem : Memory) (fdt tag o : Nat) (r : Int) : Prop :=
  r < 0 ∨ ∃ (o' : Nat) (next : Int), r = o' ∧ o ≤ o' ∧ Reached mem fdt o' ∧
    TagAt mem fdt o' tag next

theorem TagLoop.ends {tag : Nat} {loop : Nat → Int → Option Int}
    (hloop : TagLoop mem fdt rounds tag loop) (hd : Declared mem fdt) (hfree : Free mem fdt)
    (hrounds : fdtSizeDtStruct mem fdt + 4 < rounds) (ho : Reached mem fdt o) {n : Nat}
    (hn : fdtSizeDtStruct mem fdt + 3 < n + o) :
    ∃ r, loop n o = some r ∧ Ended mem fdt tag o r := by
  induction n generalizing o with
  | zero =>
    have hbound := (ho.isAligned hd).bound
    omega
  | succ n ih =>
    obtain ⟨tag', next, hat, hrun, hadvances, -⟩ := tagAt_declared hd (ho.isAligned hd)
    rcases hloop.succ n o tag' next (hrun rounds hrounds) with
      ⟨r, hr, hneg⟩ | ⟨rfl, hr⟩ | ⟨hend, hnext⟩
    · exact ⟨r, hr, .inl hneg⟩
    · exact ⟨_, hr, .inr ⟨o, next, rfl, Nat.le_refl o, ho, hat⟩⟩
    · obtain ⟨o', rfl, -, -, hlater⟩ := (hadvances hend).next
      have hlt : o < o' := by
        rcases hlater with ⟨hlt, -⟩ | ⟨-, hstuck⟩
        · exact hlt
        · exact absurd hstuck (hfree o ho)
      obtain ⟨r, hr, hended⟩ := ih (.step o tag' o' ho hat hend) (by omega)
      refine ⟨r, hnext.trans hr, ?_⟩
      rcases hended with hneg | ⟨o'', next, rfl, hle, hreached, hat'⟩
      · exact .inl hneg
      · exact .inr ⟨o'', next, rfl, by omega, hreached, hat'⟩

end FpgaPartialReconfig.Driver.Blob
