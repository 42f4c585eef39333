/-
  C strings.

  A string in memory is what stands before the first NUL (`HoldsFrom`). The functions of the
  C library are given by what they read and write: `strnlen` and `strncmp` up to a bound,
  `snprintf` (for a text that is already formatted) and `fgets` into a buffer with a size.
  On memory that holds strings they are functions of these strings: `cString_of_holds` for
  what a callee reads, `strncmp_eq_zero` for the comparison, `holds_put` for what is written.
-/
import Mathlib.Data.List.Basic

namespace FpgaPartialReconfig.CString

/-- Bytes from some base address on. -/
abbrev Memory := Nat → BitVec 8

/-- At `ofs` there is the string `s`, with its NUL. -/
def HoldsFrom (m : Memory) (ofs : Nat) : List (BitVec 8) → Prop
  | [] => m ofs = 0
  | c :: s => (m ofs = c ∧ c ≠ 0) ∧ HoldsFrom m (ofs + 1) s

instance instDecidableHoldsFrom (m : Memory) (ofs : Nat) :
    (s : List (BitVec 8)) → Decidable (HoldsFrom m ofs s)
  | [] => inferInstanceAs (Decidable (m ofs = 0))
  | c :: s =>
    have := instDecidableHoldsFrom m (ofs + 1) s
    inferInstanceAs (Decidable ((m ofs = c ∧ c ≠ 0) ∧ HoldsFrom m (ofs + 1) s))

abbrev Holds (m : Memory) (s : List (BitVec 8)) : Prop := HoldsFrom m 0 s

def cStringFrom (m : Memory) (ofs : Nat) : Nat → List (BitVec 8)
  | 0 => []
  | n + 1 => if m ofs = 0 then [] else m ofs :: cStringFrom m (ofs + 1) n

/-- The string that a function finds in at most `n` bytes. -/
def cString (m : Memory) (n : Nat) : List (BitVec 8) := cStringFrom m 0 n

def strnlen (m : Memory) (n : Nat) : Nat := (cString m n).length

def strncmpFrom (a b : Memory) (ofs : Nat) : Nat → Int
  | 0 => 0
  | n + 1 =>
    if a ofs ≠ b ofs then
      Int.ofNat (a ofs).toNat - Int.ofNat (b ofs).toNat
    else if a ofs = 0 then
      0
    else
      strncmpFrom a b (ofs + 1) n

def strncmp (a b : Memory) (n : Nat) : Int := strncmpFrom a b 0 n

/-- `s` and a NUL at the front of the buffer. -/
def put (s : List (BitVec 8)) (m : Memory) : Memory :=
  fun i => if i < s.length + 1 then s.getD i 0 else m i

/-- The return value, the length of the whole text, and the buffer afterwards. -/
def snprintf (size : Nat) (text : List (BitVec 8)) (buf : Memory) : Nat × Memory :=
  (text.length, put (text.take (size - 1)) buf)

/-- The length of the string at `ofs`, `none` where no NUL is found in so many rounds. -/
def strlen (m : Memory) (ofs : Nat) : Nat → Option Nat
  | 0 => none
  | rounds + 1 => if m ofs = 0 then some 0 else (strlen m (ofs + 1) rounds).map (· + 1)

/-- The string at `ofs` against a string constant `s`. -/
def strcmp (m : Memory) (ofs : Nat) : List (BitVec 8) → Int
  | [] => Int.ofNat (m ofs).toNat
  | c :: s =>
    if m ofs ≠ c then Int.ofNat (m ofs).toNat - Int.ofNat c.toNat else strcmp m (ofs + 1) s

/-- As many bytes at `ofs` as `s` has, against `s`. -/
def memcmp (m : Memory) (ofs : Nat) : List (BitVec 8) → Int
  | [] => 0
  | c :: s =>
    if m ofs ≠ c then Int.ofNat (m ofs).toNat - Int.ofNat c.toNat else memcmp m (ofs + 1) s

def newline : BitVec 8 := 10

/-- Up to the first newline, and with it. -/
def line : List (BitVec 8) → List (BitVec 8)
  | [] => []
  | c :: content => if c = newline then [c] else c :: line content

/-- The buffer after the first line of a file was read, `none` for the return value NULL. -/
def fgets (size : Nat) (content : List (BitVec 8)) (buf : Memory) : Option Memory :=
  if content = [] then none else some (put ((line content).take (size - 1)) buf)

/-! ## Reading -/

variable {m : Memory} {ofs : Nat} {s t : List (BitVec 8)}

theorem cStringFrom_of_holds (h : HoldsFrom m ofs s) (n : Nat) :
    cStringFrom m ofs n = s.take n := by
  induction s generalizing ofs n with
  | nil =>
    cases n with
    | zero => rfl
    | succ n => exact if_pos h
  | cons c s ih =>
    obtain ⟨⟨hc, hne⟩, hrest⟩ := h
    cases n with
    | zero => rfl
    | succ n =>
      unfold cStringFrom
      rw [hc, if_neg hne, ih hrest n]
      rfl

theorem cString_of_holds (h : Holds m s) {n : Nat} (hn : s.length ≤ n) : cString m n = s := by
  unfold cString
  rw [cStringFrom_of_holds h, List.take_of_length_le hn]

theorem strnlen_of_holds (h : Holds m s) {n : Nat} (hn : s.length ≤ n) :
    strnlen m n = s.length := by
  unfold strnlen
  rw [cString_of_holds h hn]

theorem toNat_sub_toNat_ne_zero {a b : BitVec 8} (h : a ≠ b) :
    Int.ofNat a.toNat - Int.ofNat b.toNat ≠ 0 := by
  intro hdiff
  have hsame : a.toNat = b.toNat := Int.ofNat.inj (Int.eq_of_sub_eq_zero hdiff)
  exact h (BitVec.eq_of_toNat_eq hsame)

theorem strncmpFrom_eq_zero {a b : Memory} (ha : HoldsFrom a ofs s) (hb : HoldsFrom b ofs t)
    (n : Nat) : strncmpFrom a b ofs n = 0 ↔ s.take n = t.take n := by
  induction n generalizing ofs s t with
  | zero => exact iff_of_true rfl rfl
  | succ n ih =>
    unfold strncmpFrom
    by_cases hsame : a ofs = b ofs
    · rw [if_neg (not_not_intro hsame)]
      match s, t, ha, hb with
      | [], [], ha, _ => exact iff_of_true (if_pos ha) rfl
      | [], d :: t, ha, hb =>
        exact absurd (hb.1.1.symm.trans (hsame.symm.trans ha)) hb.1.2
      | c :: s, [], ha, hb =>
        exact absurd (ha.1.1.symm.trans (hsame.trans hb)) ha.1.2
      | c :: s, d :: t, ha, hb =>
        have hhead : c = d := ha.1.1.symm.trans (hsame.trans hb.1.1)
        have hne : a ofs ≠ 0 := fun hzero => ha.1.2 (ha.1.1.symm.trans hzero)
        rw [if_neg hne, ih ha.2 hb.2, List.take_succ_cons, List.take_succ_cons, hhead]
        constructor
        · exact congrArg (List.cons d)
        · exact fun heq => (List.cons.inj heq).2
    · rw [if_pos hsame]
      refine iff_of_false (toNat_sub_toNat_ne_zero hsame) ?_
      intro heq
      match s, t, ha, hb with
      | [], [], ha, hb => exact hsame (ha.trans hb.symm)
      | [], d :: t, ha, hb => exact absurd heq (by simp)
      | c :: s, [], ha, hb => exact absurd heq (by simp)
      | c :: s, d :: t, ha, hb =>
        have hhead := (List.cons.inj heq).1
        exact hsame (ha.1.1.trans (hhead.trans hb.1.1.symm))

/-- Compared over the length of the second string, which need not be all of the first. -/
theorem strncmp_eq_zero {a b : Memory} (ha : Holds a s) (hb : Holds b t) :
    strncmp a b t.length = 0 ↔ t <+: s := by
  unfold strncmp
  rw [strncmpFrom_eq_zero ha hb, List.take_length, List.prefix_iff_eq_take]
  exact eq_comm

theorem strlen_of_holds (h : HoldsFrom m ofs s) {rounds : Nat} (hrounds : s.length < rounds) :
    strlen m ofs rounds = some s.length := by
  induction s generalizing ofs rounds with
  | nil =>
    obtain ⟨rounds, rfl⟩ := Nat.exists_eq_succ_of_ne_zero (Nat.ne_of_gt hrounds)
    exact if_pos h
  | cons c s ih =>
    obtain ⟨⟨hc, hne⟩, hrest⟩ := h
    obtain ⟨rounds, rfl⟩ := Nat.exists_eq_succ_of_ne_zero (Nat.ne_of_gt (Nat.zero_lt_of_lt hrounds))
    unfold strlen
    rw [hc, if_neg hne, ih hrest (Nat.lt_of_succ_lt_succ hrounds)]
    rfl

/-- A NUL that comes within the rounds ends the string at the latest. -/
theorem strlen_ends {q : Nat} (hq : m q = 0) {rounds : Nat} (hlow : ofs ≤ q)
    (hrounds : q < rounds + ofs) : ∃ len, strlen m ofs rounds = some len := by
  induction rounds generalizing ofs with
  | zero => exact absurd hlow (by omega)
  | succ rounds ih =>
    by_cases hnul : m ofs = 0
    · exact ⟨0, if_pos hnul⟩
    · have hne : ofs ≠ q := fun h => hnul (h ▸ hq)
      obtain ⟨len, hlen⟩ := ih (show ofs + 1 ≤ q by omega) (by omega)
      refine ⟨len + 1, (if_neg hnul).trans ?_⟩
      rw [hlen, Option.map_some]

theorem strcmp_eq_zero (h0 : 0 ∉ s) : strcmp m ofs s = 0 ↔ HoldsFrom m ofs s := by
  induction s generalizing ofs with
  | nil =>
    have hbyte : Int.ofNat (m ofs).toNat = 0 ↔ m ofs = 0 := by
      rw [← BitVec.toNat_inj]
      exact Int.ofNat_eq_zero
    exact hbyte
  | cons c s ih =>
    have hc : c ≠ 0 := fun hzero => List.ne_of_not_mem_cons h0 hzero.symm
    unfold strcmp HoldsFrom
    by_cases hsame : m ofs = c
    · rw [if_neg (not_not_intro hsame), ih (List.not_mem_of_not_mem_cons h0)]
      exact (and_iff_right ⟨hsame, hc⟩).symm
    · rw [if_pos hsame]
      exact iff_of_false (toNat_sub_toNat_ne_zero hsame) fun h => hsame h.1.1

/-- The comparison of two strings of one length. -/
theorem memcmp_eq_zero (h : HoldsFrom m ofs s) (hlength : s.length = t.length) :
    memcmp m ofs t = 0 ↔ s = t := by
  induction s generalizing ofs t with
  | nil =>
    rw [List.eq_nil_of_length_eq_zero hlength.symm]
    exact iff_of_true rfl rfl
  | cons c s ih =>
    cases t with
    | nil => exact absurd hlength (Nat.succ_ne_zero _)
    | cons d t =>
      unfold memcmp
      rw [h.1.1, List.cons.injEq]
      by_cases hsame : c = d
      · rw [if_neg (not_not_intro hsame), ih h.2 (Nat.succ.inj hlength)]
        exact (and_iff_right hsame).symm
      · rw [if_pos hsame]
        exact iff_of_false (toNat_sub_toNat_ne_zero hsame) fun heq => hsame heq.1

theorem holdsFrom_unique (hs : HoldsFrom m ofs s) (ht : HoldsFrom m ofs t) : s = t := by
  induction s generalizing ofs t with
  | nil =>
    cases t with
    | nil => rfl
    | cons d t => exact absurd (ht.1.1.symm.trans hs) ht.1.2
  | cons c s ih =>
    cases t with
    | nil => exact absurd (hs.1.1.symm.trans ht) hs.1.2
    | cons d t => rw [← hs.1.1, ← ht.1.1, ih hs.2 ht.2]

/-! ## Writing -/

theorem holdsFrom_of_getD (h0 : 0 ∉ s) (h : ∀ i, i < s.length + 1 → m (ofs + i) = s.getD i 0) :
    HoldsFrom m ofs s := by
  induction s generalizing ofs with
  | nil => exact h 0 (Nat.zero_lt_succ _)
  | cons c s ih =>
    have hc := List.ne_of_not_mem_cons h0
    have hs := List.not_mem_of_not_mem_cons h0
    refine ⟨⟨h 0 (Nat.zero_lt_succ _), fun hzero => hc hzero.symm⟩, ih hs ?_⟩
    intro i hi
    have hnext := h (i + 1) (Nat.succ_lt_succ hi)
    rw [← Nat.add_assoc, Nat.add_right_comm] at hnext
    exact hnext

theorem holds_put (h0 : 0 ∉ s) (m : Memory) : Holds (put s m) s := by
  apply holdsFrom_of_getD h0
  intro i hi
  unfold put
  rw [Nat.zero_add, if_pos hi]

theorem not_mem_take {c : BitVec 8} (h : c ∉ s) (n : Nat) : c ∉ s.take n :=
  fun hmem => h (List.mem_of_mem_take hmem)

theorem line_of_newline (h : newline ∉ s) : line (s ++ [newline]) = s ++ [newline] := by
  induction s with
  | nil => rfl
  | cons c s ih =>
    have hc := List.ne_of_not_mem_cons h
    have hs := List.not_mem_of_not_mem_cons h
    rw [List.cons_append]
    unfold line
    rw [if_neg (fun hnl => hc hnl.symm), ih hs]

end FpgaPartialReconfig.CString
