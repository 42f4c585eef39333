/-
  Finding the UIO device by its name.

  `uio_find_dev_num` opens the name files of the devices 0, 1, … up to the first one that is
  missing. The path and the line that is read share a buffer of 80 bytes. The line still has
  its newline, so the comparison is over the length of the name that is looked for: any device
  whose line begins with it is taken (`scan_hit`). So the number is the right one only where
  no other device comes first whose line begins with the name (`picks_right_iff`).

  What is in the files is a parameter, and so is what was in the buffer. `int i` wraps.
-/
import FpgaPartialReconfig.Lib.CString
import FpgaPartialReconfig.Driver.PrCore

namespace FpgaPartialReconfig.Driver.Tool

open CString

def ENOENT : Int := 2

def bytesOf (text : String) : List Byte := text.toList.map fun c => BitVec.ofNat 8 c.toNat

/-- The text of `"/sys/class/uio/uio%d/name"`. -/
def namePath (i : Int) : List Byte :=
  bytesOf "/sys/class/uio/uio" ++ bytesOf (toString i) ++ bytesOf "/name"

/-- The contents of the file at a path, `none` where `fopen` fails. -/
abbrev Files := List Byte → Option (List Byte)

def sizeofBuf : Nat := 80

/-- The loop of `uio_find_dev_num`, from device `i` on; `none` where the rounds are used up. -/
def scanNames (files : Files) (uioName : Mem) (nameLen : Nat) : Nat → Int → Mem → Option Int
  | 0, _, _ => none
  | rounds + 1, i, buf =>
    let (ret, buf) := snprintf sizeofBuf (namePath i) buf
    if sizeofBuf ≤ ret then
      some (-EINVAL)
    else
      match files (cString buf sizeofBuf) with
      | none => some (-ENOENT)
      | some content =>
        match fgets sizeofBuf content buf with
        | none => some (-ENOENT)
        | some buf =>
          if strncmp buf uioName nameLen = 0 then
            some i
          else
            scanNames files uioName nameLen rounds (addInt i 1) buf

/-- `buf` as it is at the beginning. -/
def uioFindDevNum (files : Files) (uioName : Option Mem) (buf : Mem) (rounds : Nat) :
    Option Int :=
  match uioName with
  | none => some (-EINVAL)
  | some uioName =>
    let nameLen := strnlen uioName sizeofBuf
    if sizeofBuf ≤ nameLen then
      some (-EINVAL)
    else
      scanNames files uioName nameLen rounds 0 buf

/-! ## The path fits in the buffer -/

theorem bytesOf_append (a b : String) : bytesOf (a ++ b) = bytesOf a ++ bytesOf b := by
  unfold bytesOf
  rw [String.toList_append, List.map_append]

theorem toNat_digit {c : Char} (h : c.isDigit = true) :
    (BitVec.ofNat 8 c.toNat).toNat = c.toNat ∧ 48 ≤ c.toNat := by
  have hrange : 48 ≤ c.toNat ∧ c.toNat ≤ 57 := by
    unfold Char.isDigit at h
    rw [Bool.and_eq_true, decide_eq_true_iff, decide_eq_true_iff] at h
    exact h
  refine ⟨?_, hrange.1⟩
  rw [BitVec.toNat_ofNat]
  exact Nat.mod_eq_of_lt (by omega)

theorem isDigit_of_mem {n : Nat} {c : Char} (hc : c ∈ Nat.toDigits 10 n) : c.isDigit = true :=
  Nat.isDigit_of_mem_toDigits (by decide) (by decide) hc

theorem bytesOf_repr {n : Nat} {b : Byte} (hb : b.toNat < 48) : b ∉ bytesOf n.repr := by
  unfold bytesOf
  rw [Nat.toList_repr]
  intro hmem
  obtain ⟨c, hc, hvalue⟩ := List.mem_map.mp hmem
  obtain ⟨hsame, hdigit⟩ := toNat_digit (isDigit_of_mem hc)
  rw [hvalue] at hsame
  omega

theorem length_bytesOf_repr {n : Nat} (h : n < 10 ^ 10) : (bytesOf n.repr).length ≤ 10 := by
  unfold bytesOf
  rw [List.length_map, Nat.toList_repr, Nat.length_toDigits_le_iff (by decide) (by decide)]
  exact h

/-- An `int` in decimal. -/
theorem bytesOf_int {i : Int} (hlow : -2 ^ 31 ≤ i) (hhigh : i < 2 ^ 31) :
    0 ∉ bytesOf (toString i) ∧ (bytesOf (toString i)).length ≤ 11 := by
  rw [Int.toString_eq_repr, Int.repr_eq_if]
  split
  · have hlength := length_bytesOf_repr (show i.toNat < 10 ^ 10 by omega)
    exact ⟨bytesOf_repr (by decide), by omega⟩
  · have hlength := length_bytesOf_repr (show (-i).toNat < 10 ^ 10 by omega)
    have hsign : bytesOf "-" = [45] := by decide
    rw [bytesOf_append, hsign, List.singleton_append, List.length_cons]
    refine ⟨?_, by omega⟩
    exact List.not_mem_cons_of_ne_of_not_mem (by decide) (bytesOf_repr (by decide))

theorem namePath_fits {i : Int} (hlow : -2 ^ 31 ≤ i) (hhigh : i < 2 ^ 31) :
    0 ∉ namePath i ∧ (namePath i).length < sizeofBuf := by
  obtain ⟨hnul, hlength⟩ := bytesOf_int hlow hhigh
  have hdir : 0 ∉ bytesOf "/sys/class/uio/uio" := by decide
  have hname : 0 ∉ bytesOf "/name" := by decide
  have hdirLength : (bytesOf "/sys/class/uio/uio").length = 18 := by decide
  have hnameLength : (bytesOf "/name").length = 5 := by decide
  unfold namePath sizeofBuf
  rw [List.mem_append, List.mem_append, List.length_append, List.length_append]
  refine ⟨?_, by omega⟩
  intro h
  rcases h with (h | h) | h
  · exact hdir h
  · exact hnul h
  · exact hname h

/-! ## One round -/

/-- The files of the devices `names`, with a newline after each name, and no others. -/
structure UioNames (files : Files) (names : List (List Byte)) : Prop where
  present : ∀ (i : Nat) (name : List Byte), names[i]? = some name →
    files (namePath i) = some (name ++ [newline])
  missing : files (namePath names.length) = none
  nonneg : ∀ i : Int, i < 0 → files (namePath i) = none
  short : ∀ name ∈ names, name.length < sizeofBuf
  text : ∀ name ∈ names, 0 ∉ name ∧ newline ∉ name

/-- What `fopen` is called with. -/
theorem path_read {i : Int} (hlow : -2 ^ 31 ≤ i) (hhigh : i < 2 ^ 31) (buf : Mem) :
    cString (snprintf sizeofBuf (namePath i) buf).2 sizeofBuf = namePath i := by
  obtain ⟨hnul, hlength⟩ := namePath_fits hlow hhigh
  have hcut : (namePath i).take (sizeofBuf - 1) = namePath i :=
    List.take_of_length_le (by omega)
  unfold snprintf
  rw [hcut]
  exact cString_of_holds (holds_put hnul buf) (Nat.le_of_lt hlength)

section
variable {files : Files} {uioName : Mem} {query : List Byte} {i : Int}

theorem scanNames_succ (nameLen rounds : Nat) (buf : Mem) :
    scanNames files uioName nameLen (rounds + 1) i buf =
      if sizeofBuf ≤ (namePath i).length then
        some (-EINVAL)
      else
        match files (cString (snprintf sizeofBuf (namePath i) buf).2 sizeofBuf) with
        | none => some (-ENOENT)
        | some content =>
          match fgets sizeofBuf content (snprintf sizeofBuf (namePath i) buf).2 with
          | none => some (-ENOENT)
          | some buf =>
            if strncmp buf uioName nameLen = 0 then
              some i
            else
              scanNames files uioName nameLen rounds (addInt i 1) buf := rfl

theorem scanNames_missing (hlow : -2 ^ 31 ≤ i) (hhigh : i < 2 ^ 31)
    (hfile : files (namePath i) = none) (nameLen rounds : Nat) (buf : Mem) :
    scanNames files uioName nameLen (rounds + 1) i buf = some (-ENOENT) := by
  have hret : ¬ sizeofBuf ≤ (namePath i).length := Nat.not_le.mpr (namePath_fits hlow hhigh).2
  rw [scanNames_succ, if_neg hret, path_read hlow hhigh, hfile]

/-- The line of a file against the name that is looked for. -/
theorem scanNames_present {name : List Byte} (hlow : -2 ^ 31 ≤ i) (hhigh : i < 2 ^ 31)
    (hfile : files (namePath i) = some (name ++ [newline])) (htext : 0 ∉ name ∧ newline ∉ name)
    (hquery : Holds uioName query) (hshort : query.length < sizeofBuf) (rounds : Nat) (buf : Mem) :
    ∃ buf', scanNames files uioName query.length (rounds + 1) i buf =
      if query <+: name ++ [newline] then some i
      else scanNames files uioName query.length rounds (addInt i 1) buf' := by
  have hret : ¬ sizeofBuf ≤ (namePath i).length := Nat.not_le.mpr (namePath_fits hlow hhigh).2
  have hnul : 0 ∉ name ++ [newline] := by
    rw [List.mem_append]
    intro h
    exact h.elim htext.1 (by decide)
  have hcut : query <+: (name ++ [newline]).take (sizeofBuf - 1) ↔ query <+: name ++ [newline] := by
    rw [List.prefix_take_iff]
    exact and_iff_left (by omega)
  have hline : fgets sizeofBuf (name ++ [newline]) (snprintf sizeofBuf (namePath i) buf).2 =
      some (put ((name ++ [newline]).take (sizeofBuf - 1))
        (snprintf sizeofBuf (namePath i) buf).2) := by
    unfold fgets
    rw [if_neg (List.concat_ne_nil newline name), line_of_newline htext.2]
  rw [scanNames_succ, if_neg hret, path_read hlow hhigh, hfile]
  simp only [hline, strncmp_eq_zero (holds_put (not_mem_take hnul _) _) hquery, hcut]
  exact ⟨_, rfl⟩

/-! ## The scan -/

variable {names : List (List Byte)}

/-- Device `k` is taken if it is looked at. -/
def TakenAt (names : List (List Byte)) (query : List Byte) (k : Nat) : Prop :=
  ∃ name, names[k]? = some name ∧ query <+: name ++ [newline]

theorem lt_length_of_takenAt {k : Nat} (h : TakenAt names query k) : k < names.length := by
  obtain ⟨name, hname, -⟩ := h
  exact (List.getElem?_eq_some_iff.mp hname).1

theorem takenAt_of_exact {k : Nat} (h : names[k]? = some query) : TakenAt names query k :=
  ⟨query, h, List.prefix_append query [newline]⟩

/-- A device that is there: it is taken, or the next one is looked at. -/
theorem scanNames_device (hnames : UioNames files names) (hquery : Holds uioName query)
    (hshort : query.length < sizeofBuf) {k : Nat} (hk : k < names.length) (hint : k < 2 ^ 31)
    (rounds : Nat) (buf : Mem) :
    (TakenAt names query k →
      scanNames files uioName query.length (rounds + 1) k buf = some (Int.ofNat k)) ∧
    (¬ TakenAt names query k → ∃ buf',
      scanNames files uioName query.length (rounds + 1) k buf =
        scanNames files uioName query.length rounds (addInt k 1) buf') := by
  have hname : names[k]? = some names[k] := List.getElem?_eq_getElem hk
  obtain ⟨buf', hround⟩ := scanNames_present (by omega) (by omega) (hnames.present k _ hname)
    (hnames.text _ (List.getElem_mem hk)) hquery hshort rounds buf
  constructor
  · intro htaken
    obtain ⟨name, hsame, hbegins⟩ := htaken
    rw [Option.some.inj (hname.symm.trans hsame), if_pos hbegins] at hround
    exact hround
  · intro hnot
    rw [if_neg fun hbegins => hnot ⟨_, hname, hbegins⟩] at hround
    exact ⟨buf', hround⟩

theorem scanNames_skip (hnames : UioNames files names) (hquery : Holds uioName query)
    (hshort : query.length < sizeofBuf) (rounds : Nat) {k n : Nat} (hlength : k + n ≤ names.length)
    (hint : k + n < 2 ^ 31) (hnone : ∀ j, k ≤ j → j < k + n → ¬ TakenAt names query j) (buf : Mem) :
    ∃ buf', scanNames files uioName query.length (n + rounds) k buf =
      scanNames files uioName query.length rounds (k + n : Nat) buf' := by
  induction n generalizing k buf with
  | zero => exact ⟨buf, by rw [Nat.zero_add, Nat.add_zero]⟩
  | succ n ih =>
    have hrounds : n + 1 + rounds = n + rounds + 1 := Nat.add_right_comm n 1 rounds
    have hnot : ¬ TakenAt names query k := hnone k (Nat.le_refl k) (by omega)
    obtain ⟨buf₁, hround⟩ :=
      (scanNames_device hnames hquery hshort (by omega) (by omega) (n + rounds) buf).2 hnot
    have hnext : addInt k 1 = (k + 1 : Nat) := addInt_of_small (by omega) (by omega)
    have hlater : ∀ j, k + 1 ≤ j → j < k + 1 + n → ¬ TakenAt names query j :=
      fun j hlow hhigh => hnone j (by omega) (by omega)
    obtain ⟨buf', hrest⟩ := ih (by omega) (by omega) hlater buf₁
    refine ⟨buf', ?_⟩
    rw [hrounds, hround, hnext, hrest, Nat.add_right_comm]
    rfl

/-- `r` is what is returned, whatever is in the buffer before. -/
def Finds (files : Files) (uioName : Option Mem) (r : Int) : Prop :=
  ∃ n, ∀ rounds, n ≤ rounds → ∀ buf, uioFindDevNum files uioName buf rounds = some r

theorem Finds.unique {uioName : Option Mem} {r r' : Int} (h : Finds files uioName r)
    (h' : Finds files uioName r') : r = r' := by
  obtain ⟨n, hn⟩ := h
  obtain ⟨n', hn'⟩ := h'
  have hr := hn (max n n') (Nat.le_max_left n n') (fun _ => 0)
  have hr' := hn' (max n n') (Nat.le_max_right n n') (fun _ => 0)
  exact Option.some.inj (hr.symm.trans hr')

theorem uioFindDevNum_eq_scan (hquery : Holds uioName query) (hshort : query.length < sizeofBuf)
    (buf : Mem) (rounds : Nat) :
    uioFindDevNum files (some uioName) buf rounds =
      scanNames files uioName query.length rounds (0 : Nat) buf := by
  unfold uioFindDevNum
  simp only [strnlen_of_holds hquery (Nat.le_of_lt hshort)]
  rw [if_neg (Nat.not_le.mpr hshort)]
  rfl

/-- The first device whose line begins with the name. -/
theorem scan_hit (hnames : UioNames files names) (hquery : Holds uioName query)
    (hshort : query.length < sizeofBuf) {k : Nat} (hint : k < 2 ^ 31)
    (htaken : TakenAt names query k) (hfirst : ∀ j < k, ¬ TakenAt names query j) :
    Finds files (some uioName) k := by
  have hlength := lt_length_of_takenAt htaken
  refine ⟨k + 1, ?_⟩
  intro rounds hrounds buf
  have hsplit : rounds = k + (rounds - (k + 1) + 1) := by omega
  obtain ⟨buf', hskip⟩ := scanNames_skip hnames hquery hshort (rounds - (k + 1) + 1)
    (show 0 + k ≤ names.length by omega) (by omega) (fun j _ hj => hfirst j (by omega)) buf
  rw [uioFindDevNum_eq_scan hquery hshort, hsplit, hskip, Nat.zero_add]
  exact (scanNames_device hnames hquery hshort hlength hint _ buf').1 htaken

theorem scan_miss (hnames : UioNames files names) (hquery : Holds uioName query)
    (hshort : query.length < sizeofBuf) (hnone : ∀ j < 2 ^ 31, ¬ TakenAt names query j) :
    Finds files (some uioName) (-ENOENT) := by
  by_cases hlength : names.length < 2 ^ 31
  · refine ⟨names.length + 1, ?_⟩
    intro rounds hrounds buf
    have hsplit : rounds = names.length + (rounds - (names.length + 1) + 1) := by omega
    obtain ⟨buf', hskip⟩ := scanNames_skip hnames hquery hshort (rounds - (names.length + 1) + 1)
      (show 0 + names.length ≤ names.length by omega) (by omega)
      (fun j _ hj => hnone j (by omega)) buf
    rw [uioFindDevNum_eq_scan hquery hshort, hsplit, hskip, Nat.zero_add]
    exact scanNames_missing (by omega) (by omega) hnames.missing _ _ buf'
  · -- after the last number of an `int` comes a negative one, which is no device
    refine ⟨2 ^ 31 + 1, ?_⟩
    intro rounds hrounds buf
    have hsplit : rounds = 2 ^ 31 - 1 + (rounds - (2 ^ 31 + 1) + 1 + 1) := by omega
    obtain ⟨buf₁, hskip⟩ := scanNames_skip hnames hquery hshort
      (rounds - (2 ^ 31 + 1) + 1 + 1) (show 0 + (2 ^ 31 - 1) ≤ names.length by omega) (by omega)
      (fun j _ hj => hnone j (by omega)) buf
    obtain ⟨buf₂, hlast⟩ := (scanNames_device hnames hquery hshort
      (show 2 ^ 31 - 1 < names.length by omega) (by omega) (rounds - (2 ^ 31 + 1) + 1) buf₁).2
      (hnone _ (by omega))
    have hwrap : addInt (2 ^ 31 - 1 : Nat) 1 = -2 ^ 31 := by decide
    rw [uioFindDevNum_eq_scan hquery hshort, hsplit, hskip, Nat.zero_add, hlast, hwrap]
    exact scanNames_missing (by omega) (by omega) (hnames.nonneg _ (by omega)) _ _ buf₂

end

/-! ## The files of a list of names -/

theorem bytesOf_repr_inj {m n : Nat} (h : bytesOf m.repr = bytesOf n.repr) : m = n := by
  have hchars : ∀ k : Nat, (bytesOf k.repr).map (fun b => Char.ofNat b.toNat) =
      Nat.toDigits 10 k := by
    intro k
    unfold bytesOf
    rw [Nat.toList_repr, List.map_map]
    have hback : ∀ c ∈ Nat.toDigits 10 k,
        ((fun b : Byte => Char.ofNat b.toNat) ∘ fun c => BitVec.ofNat 8 c.toNat) c = id c := by
      intro c hc
      exact (congrArg Char.ofNat (toNat_digit (isDigit_of_mem hc)).1).trans (Char.ofNat_toNat c)
    rw [List.map_congr_left hback, List.map_id]
  have hdigits : Nat.toDigits 10 m = Nat.toDigits 10 n := by
    rw [← hchars, ← hchars, h]
  have hvalue := congrArg (fun digits => Nat.ofDigitChars 10 digits 0) hdigits
  simp only [Nat.ofDigitChars_ten_toDigits] at hvalue
  exact hvalue

theorem bytesOf_of_namePath {i j : Int} (h : namePath i = namePath j) :
    bytesOf (toString i) = bytesOf (toString j) := by
  unfold namePath at h
  exact List.append_cancel_left (List.append_cancel_right h)

theorem namePath_inj {j k : Nat} (h : namePath j = namePath k) : j = k := by
  have hnumber := bytesOf_of_namePath h
  exact bytesOf_repr_inj hnumber

/-- A negative number has a sign. -/
theorem namePath_ne {i : Int} (hi : i < 0) (k : Nat) : namePath i ≠ namePath k := by
  intro h
  have hsigned : (45 : Byte) ∈ bytesOf (toString i) := by
    have hsign : bytesOf "-" = [45] := by decide
    rw [Int.toString_eq_repr, Int.repr_eq_if, if_neg (Int.not_le.mpr hi), bytesOf_append, hsign]
    exact List.mem_cons_self
  rw [bytesOf_of_namePath h] at hsigned
  exact bytesOf_repr (by decide) hsigned

/-- The name files of the devices from `k` on. -/
def uioFiles (k : Nat) : List (List Byte) → Files
  | [], _ => none
  | name :: names, path =>
    if path = namePath k then some (name ++ [newline]) else uioFiles (k + 1) names path

theorem uioFiles_none {path : List Byte} {k : Nat} (names : List (List Byte))
    (h : ∀ j, k ≤ j → j < k + names.length → path ≠ namePath j) : uioFiles k names path = none := by
  induction names generalizing k with
  | nil => rfl
  | cons name names ih =>
    rw [List.length_cons] at h
    unfold uioFiles
    rw [if_neg (h k (Nat.le_refl k) (by omega))]
    exact ih fun j hlow hhigh => h j (by omega) (by omega)

theorem uioFiles_present {names : List (List Byte)} {k i : Nat} {name : List Byte}
    (h : names[i]? = some name) :
    uioFiles k names (namePath (k + i : Nat)) = some (name ++ [newline]) := by
  induction names generalizing k i with
  | nil => exact absurd h (by simp)
  | cons first names ih =>
    unfold uioFiles
    cases i with
    | zero => rw [Nat.add_zero, if_pos rfl, Option.some.inj h]
    | succ i =>
      have hother : namePath (k + (i + 1) : Nat) ≠ namePath k := by
        intro hsame
        have hindex := namePath_inj hsame
        omega
      have hshift : k + (i + 1) = k + 1 + i := by omega
      rw [if_neg hother, hshift]
      exact ih h

/-- Every list of names is one of devices. -/
theorem uioNames_uioFiles {names : List (List Byte)}
    (hshort : ∀ name ∈ names, name.length < sizeofBuf)
    (htext : ∀ name ∈ names, 0 ∉ name ∧ newline ∉ name) : UioNames (uioFiles 0 names) names where
  present i name hname := by
    have hfile := @uioFiles_present names 0 i name hname
    rw [Nat.zero_add] at hfile
    exact hfile
  missing := by
    apply uioFiles_none
    intro j _ hj hsame
    have hindex := namePath_inj hsame
    omega
  nonneg i hi := uioFiles_none names fun j _ _ => namePath_ne hi j
  short := hshort
  text := htext

/-! ## The right device -/

/-- Entry `i` is the first one with exactly this name. -/
def FirstExact (names : List (List Byte)) (query : List Byte) (i : Nat) : Prop :=
  names[i]? = some query ∧ ∀ j < i, names[j]? ≠ some query

def PicksRight (files : Files) (uioName : Mem) (names : List (List Byte)) (query : List Byte) :
    Prop :=
  ∃ r, Finds files (some uioName) r ∧ (∀ i : Nat, r = i ↔ FirstExact names query i) ∧
    (query ∉ names → r = -ENOENT)

/-- A device that can be taken has the name, or one before it has, and the name is not only to
    be found past the range of an `int`. -/
structure Unambiguous (names : List (List Byte)) (query : List Byte) : Prop where
  taken : ∀ k < 2 ^ 31, TakenAt names query k → ∃ j ≤ k, names[j]? = some query
  reached : query ∈ names → ∃ j < 2 ^ 31, names[j]? = some query

section
variable {files : Files} {uioName : Mem} {names : List (List Byte)} {query : List Byte}

theorem firstExact_of_mem (h : query ∈ names) : ∃ i, FirstExact names query i := by
  have hex : ∃ i, names[i]? = some query := List.getElem?_of_mem h
  exact ⟨Nat.find hex, Nat.find_spec hex, fun j hj => Nat.find_min hex hj⟩

theorem FirstExact.unique {i j : Nat} (hi : FirstExact names query i)
    (hj : FirstExact names query j) : i = j := by
  rcases Nat.lt_trichotomy i j with h | h | h
  · exact absurd hi.1 (hj.2 i h)
  · exact h
  · exact absurd hj.1 (hi.2 j h)

/-- The scan ends at the first device that is taken, or at no device at all. -/
theorem finds_cases (hnames : UioNames files names) (hquery : Holds uioName query)
    (hshort : query.length < sizeofBuf) :
    (∃ k < 2 ^ 31, TakenAt names query k ∧ (∀ j < k, ¬ TakenAt names query j) ∧
        Finds files (some uioName) k) ∨
      (∀ k < 2 ^ 31, ¬ TakenAt names query k) ∧ Finds files (some uioName) (-ENOENT) := by
  classical
  by_cases hex : ∃ k, k < 2 ^ 31 ∧ TakenAt names query k
  · obtain ⟨hint, htaken⟩ := Nat.find_spec hex
    have hfirst : ∀ j < Nat.find hex, ¬ TakenAt names query j :=
      fun j hj htaken' => Nat.find_min hex hj ⟨by omega, htaken'⟩
    exact .inl ⟨_, hint, htaken, hfirst, scan_hit hnames hquery hshort hint htaken hfirst⟩
  · have hnone : ∀ k < 2 ^ 31, ¬ TakenAt names query k := fun k hk htaken => hex ⟨k, hk, htaken⟩
    exact .inr ⟨hnone, scan_miss hnames hquery hshort hnone⟩

theorem unambiguous_of_picksRight (hnames : UioNames files names) (hquery : Holds uioName query)
    (hshort : query.length < sizeofBuf) (h : PicksRight files uioName names query) :
    Unambiguous names query := by
  obtain ⟨r, hfinds, hexact, hnone⟩ := h
  rcases finds_cases hnames hquery hshort with ⟨k, hint, htaken, hfirst, hk⟩ | ⟨hnot, hmissing⟩
  · have hr : r = k := hfinds.unique hk
    obtain ⟨hname, -⟩ := (hexact k).mp hr
    refine ⟨?_, fun _ => ⟨k, hint, hname⟩⟩
    intro k' _ htaken'
    have hle : k ≤ k' := Nat.le_of_not_lt fun hlt => hfirst k' hlt htaken'
    exact ⟨k, hle, hname⟩
  · have hr : r = -ENOENT := hfinds.unique hmissing
    refine ⟨fun k hint htaken => absurd htaken (hnot k hint), ?_⟩
    intro hmem
    obtain ⟨i, hi⟩ := firstExact_of_mem hmem
    have hnumber : -ENOENT = (i : Int) := hr.symm.trans ((hexact i).mpr hi)
    unfold ENOENT at hnumber
    omega

theorem picksRight_of_unambiguous (hnames : UioNames files names) (hquery : Holds uioName query)
    (hshort : query.length < sizeofBuf) (h : Unambiguous names query) :
    PicksRight files uioName names query := by
  rcases finds_cases hnames hquery hshort with ⟨k, hint, htaken, hfirst, hk⟩ | ⟨hnot, hmissing⟩
  · obtain ⟨j, hj, hname⟩ := h.taken k hint htaken
    have hjk : j = k := by
      by_contra hne
      exact hfirst j (by omega) (takenAt_of_exact hname)
    subst hjk
    have hexact : FirstExact names query j :=
      ⟨hname, fun j' hj' hname' => hfirst j' hj' (takenAt_of_exact hname')⟩
    refine ⟨j, hk, ?_, fun hnone => absurd (List.mem_of_getElem? hname) hnone⟩
    intro i
    constructor
    · intro hi
      rw [← Int.ofNat.inj hi]
      exact hexact
    · intro hi
      rw [hexact.unique hi]
  · refine ⟨-ENOENT, hmissing, ?_, fun _ => rfl⟩
    intro i
    constructor
    · intro hi
      unfold ENOENT at hi
      omega
    · intro hi
      obtain ⟨j, hint, hname⟩ := h.reached (List.mem_of_getElem? hi.1)
      exact absurd (takenAt_of_exact hname) (hnot j hint)

end

/-! ## Names that begin alike -/

/-- Two cards, by their PCIe ids. -/
def cardNames : List (List Byte) := [bytesOf "0000:03:00.0", bytesOf "0000:04:00.0"]

theorem uioNames_cards : UioNames (uioFiles 0 cardNames) cardNames :=
  uioNames_uioFiles (by decide) (by decide)

theorem holds_memOf {s : List Byte} (h0 : 0 ∉ s) : Holds (memOf s) s := by
  apply holdsFrom_of_getD h0
  intro i _
  rw [Nat.zero_add]
  rfl

/-- Any beginning of an id finds the first card that has it, and of two names one of which
    begins the other the longer one is taken if it comes first. -/
theorem beginning_is_taken :
    (UioNames (uioFiles 0 cardNames) cardNames ∧
        ¬ PicksRight (uioFiles 0 cardNames) (memOf (bytesOf "0000:0")) cardNames
          (bytesOf "0000:0")) ∧
      (UioNames (uioFiles 0 [bytesOf "card10", bytesOf "card1"])
          [bytesOf "card10", bytesOf "card1"] ∧
        ¬ PicksRight (uioFiles 0 [bytesOf "card10", bytesOf "card1"]) (memOf (bytesOf "card1"))
          [bytesOf "card10", bytesOf "card1"] (bytesOf "card1")) := by
  have hnames : UioNames (uioFiles 0 [bytesOf "card10", bytesOf "card1"])
      [bytesOf "card10", bytesOf "card1"] := uioNames_uioFiles (by decide) (by decide)
  refine ⟨⟨uioNames_cards, ?_⟩, hnames, ?_⟩
  · intro hright
    obtain ⟨htaken, -⟩ := unambiguous_of_picksRight uioNames_cards (holds_memOf (by decide))
      (by decide) hright
    have hfirst : TakenAt cardNames (bytesOf "0000:0") 0 := ⟨_, rfl, by decide⟩
    obtain ⟨j, hj, hname⟩ := htaken 0 (by decide) hfirst
    rw [Nat.le_zero.mp hj] at hname
    exact absurd hname (by decide)
  · intro hright
    obtain ⟨htaken, -⟩ := unambiguous_of_picksRight hnames (holds_memOf (by decide)) (by decide)
      hright
    have hfirst : TakenAt [bytesOf "card10", bytesOf "card1"] (bytesOf "card1") 0 :=
      ⟨_, rfl, by decide⟩
    obtain ⟨j, hj, hname⟩ := htaken 0 (by decide) hfirst
    rw [Nat.le_zero.mp hj] at hname
    exact absurd hname (by decide)

theorem picks_right_iff (files : Files) (uioName : Mem) (names : List (List Byte))
    (query : List Byte) (hnames : UioNames files names) (hquery : Holds uioName query)
    (hshort : query.length < sizeofBuf) :
    PicksRight files uioName names query ↔ Unambiguous names query :=
  ⟨unambiguous_of_picksRight hnames hquery hshort, picksRight_of_unambiguous hnames hquery hshort⟩

/-- The whole id of the second card. -/
theorem picks_right_card :
    PicksRight (uioFiles 0 cardNames) (memOf (bytesOf "0000:04:00.0")) cardNames
      (bytesOf "0000:04:00.0") := by
  have hunambiguous : Unambiguous cardNames (bytesOf "0000:04:00.0") := by
    refine ⟨?_, fun _ => ⟨1, by omega, rfl⟩⟩
    intro k _ htaken
    have hother : ¬ k = 0 := by
      intro hfirst
      rw [hfirst] at htaken
      obtain ⟨name, hname, hbegins⟩ := htaken
      rw [← Option.some.inj hname] at hbegins
      exact absurd hbegins (by decide)
    exact ⟨1, Nat.one_le_iff_ne_zero.mpr hother, rfl⟩
  exact (picks_right_iff _ _ cardNames _ uioNames_cards (holds_memOf (by decide))
    (by decide)).mpr hunambiguous

end FpgaPartialReconfig.Driver.Tool
