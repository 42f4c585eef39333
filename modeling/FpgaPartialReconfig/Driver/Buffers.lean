/-
  The buffers behind the manager's debugfs files.

  `Books` is a ledger: the name that is held is live and nothing is freed twice; a write to
  `image`, and a copy from user space that fails, leave their buffer behind. A write to
  `firmware_name` that gets through sets one byte behind its own buffer, and one of no bytes
  does not come back (`run_buffers`).

  What `firmware_name` reads as is what was last written to it only while nobody else has
  written to that byte, and if it fits into a page (`Legible`); otherwise what is behind the
  buffer, or behind the page, is given out as well.
-/
import FpgaPartialReconfig.Driver.Manager
import Mathlib.Data.List.GetD
import Mathlib.Data.List.Nodup
import Mathlib.Data.List.TakeWhile

namespace FpgaPartialReconfig.Driver.Manager

open Bus

/-! ## The operations without their loads -/

def Mgr.alloc (mgr : Mgr) : Mgr := { mgr with allocations := mgr.allocations + 1 }

/-- `fpga_mgr_debugfs_remove` frees the name. -/
def Mgr.release (mgr : Mgr) : Mgr := { kfree mgr.firmwareName mgr with firmwareName := none }

/-- The newest buffer is the name, and a byte has been set behind it. -/
def Mgr.keep (content : List Byte) (mgr : Mgr) : Mgr :=
  { mgr with
    firmwareName := some (mgr.allocations - 1, content)
    overrun := mgr.overrun ++ [mgr.allocations - 1] }

/-- The operation but for the load. -/
def Op.files (mgr : Mgr) : Op → Mgr
  | .write .firmwareName bytes allocated copied =>
    if bytes = [] then { mgr with faults := mgr.faults + 1 }
    else if allocated = false then mgr
    else if copied = false then mgr.alloc
    else mgr.alloc.release.keep (bufOf bytes)
  | .write .image bytes allocated copied =>
    if bytes = [] then mgr.release
    else if allocated = false then mgr
    else if copied = false then mgr.alloc
    else mgr.alloc.release
  | .read reading => (fpgaMgrFirmwareReadFile reading mgr).2
  | .setInfo info => { mgr with info := info }

/-- The operation leaves its buffer behind. -/
def Op.loses : Op → Bool
  | .write .image bytes allocated _ => !bytes.isEmpty && allocated
  | .write .firmwareName bytes allocated copied => !bytes.isEmpty && allocated && !copied
  | _ => false

/-- It sets a byte behind its buffer. -/
def Op.overruns : Op → Bool
  | .write .firmwareName bytes allocated copied => !bytes.isEmpty && allocated && copied
  | _ => false

/-- It does not come back. -/
def Op.faults : Op → Bool
  | .write .firmwareName bytes _ _ => bytes.isEmpty
  | _ => false

/-- What was last written to `firmware_name`, if that is still what counts. -/
def Op.leaves (last : Option (List Byte)) : Op → Option (List Byte)
  | .write .firmwareName bytes allocated copied =>
    if bytes ≠ [] ∧ allocated = true ∧ copied = true then some bytes else last
  | .write .image bytes allocated copied =>
    if bytes = [] ∨ allocated = true ∧ copied = true then none else last
  | _ => last

section
variable (mgr : Mgr)

theorem kfree_eq (name : Option (Nat × List Byte)) :
    kfree name mgr = { mgr with freed := mgr.freed ++ (name.map Prod.fst).toList } := by
  cases name with
  | none => exact (congrArg (fun freed => { mgr with freed := freed }) (List.append_nil _)).symm
  | some name => rfl

theorem release_eq : mgr.release =
    { mgr with
      firmwareName := none
      freed := mgr.freed ++ (mgr.firmwareName.map Prod.fst).toList } := by
  unfold Mgr.release
  rw [kfree_eq]

theorem readFile_files (r : Reading) :
    (fpgaMgrFirmwareReadFile r mgr).2 = mgr ∨
      (fpgaMgrFirmwareReadFile r mgr).2 =
        { mgr.alloc with freed := mgr.freed ++ [mgr.allocations] } := by
  unfold fpgaMgrFirmwareReadFile
  split
  · exact .inl rfl
  · split
    · exact .inl rfl
    · exact .inr rfl

end

section
variable {σ : Type} (D : Device Addr U32 σ) (core : Core) (firmware : Firmware)

/-- The load changes the state and nothing else. -/
theorem apply_files (op : Op) (mgr : Mgr) (m : Regs σ) :
    ∃ state, (op.apply D core firmware mgr m).1.2 = { op.files mgr with state := state } := by
  cases op with
  | setInfo info => exact ⟨mgr.state, rfl⟩
  | read reading => exact ⟨_, rfl⟩
  | write file bytes allocated copied =>
    cases file with
    | firmwareName =>
      unfold Op.apply fpgaMgrFirmwareWriteFile Op.files
      by_cases hempty : bytes = []
      · exact ⟨mgr.state, by simp only [if_pos hempty]; rfl⟩
      simp only [if_neg hempty]
      cases allocated with
      | false => exact ⟨mgr.state, rfl⟩
      | true =>
        cases copied with
        | false => exact ⟨mgr.state, rfl⟩
        | true =>
          simp only [Bool.true_eq_false, if_false, Act.bind_apply, Act.ite_apply, Act.pure_apply]
          simp only [kfree_eq, release_eq]
          split
          · exact ⟨_, rfl⟩
          · exact ⟨_, rfl⟩
    | image =>
      unfold Op.apply fpgaMgrImageWriteFile Op.files
      by_cases hempty : bytes = []
      · simp only [hempty, ne_eq, not_true_eq_false, false_and, if_false]
        exact ⟨_, rfl⟩
      simp only [hempty, ne_eq, not_false_eq_true, true_and]
      cases allocated with
      | false => exact ⟨mgr.state, rfl⟩
      | true =>
        cases copied with
        | false => exact ⟨mgr.state, rfl⟩
        | true => exact ⟨_, rfl⟩

end

/-! ## The ledger -/

def Mgr.held (mgr : Mgr) : Nat := if mgr.firmwareName.isSome then 1 else 0

/-- The books on the buffers, of which `lost` are neither freed nor held. -/
structure Books (lost : Nat) (mgr : Mgr) : Prop where
  nodup : mgr.freed.Nodup
  below : ∀ buf ∈ mgr.freed, buf < mgr.allocations
  live : ∀ name ∈ mgr.firmwareName, name.1 < mgr.allocations ∧ name.1 ∉ mgr.freed
  count : mgr.allocations = mgr.freed.length + mgr.held + lost
  once : mgr.overrun.Nodup
  own : ∀ buf ∈ mgr.overrun, buf < mgr.allocations

theorem books_register (state : FpgaState) : Books 0 (register state) where
  nodup := List.nodup_nil
  below _ h := absurd h List.not_mem_nil
  live _ h := absurd h nofun
  count := rfl
  once := List.nodup_nil
  own _ h := absurd h List.not_mem_nil

theorem nodup_concat {l : List Nat} {n : Nat} (h : l.Nodup) (hn : n ∉ l) : (l ++ [n]).Nodup :=
  List.concat_eq_append ▸ List.Nodup.concat hn h

theorem forall_mem_concat {p : Nat → Prop} {l : List Nat} {n : Nat} (h : ∀ a ∈ l, p a)
    (hn : p n) : ∀ a ∈ l ++ [n], p a :=
  List.forall_mem_append.mpr ⟨h, List.forall_mem_singleton.mpr hn⟩

section
variable {lost : Nat} {mgr : Mgr}

theorem Books.alloc (h : Books lost mgr) : Books (lost + 1) mgr.alloc where
  nodup := h.nodup
  below buf hbuf := Nat.lt_succ_of_lt (h.below buf hbuf)
  live name hname := ⟨Nat.lt_succ_of_lt (h.live name hname).1, (h.live name hname).2⟩
  count := congrArg (· + 1) h.count
  once := h.once
  own buf hbuf := Nat.lt_succ_of_lt (h.own buf hbuf)

/-- The name that is held is freed, and nothing is held then. -/
theorem Books.release (h : Books lost mgr) : Books lost mgr.release := by
  have hcount := h.count
  unfold Mgr.held at hcount
  rw [release_eq]
  cases hname : mgr.firmwareName with
  | none =>
    rw [hname] at hcount
    refine ⟨?_, ?_, fun _ hmem => absurd hmem nofun, ?_, h.once, h.own⟩
    · simpa using h.nodup
    · simpa using h.below
    · simpa [Mgr.held] using hcount
  | some name =>
    obtain ⟨hbelow, hfresh⟩ := h.live name hname
    rw [hname] at hcount
    refine ⟨nodup_concat h.nodup hfresh, forall_mem_concat h.below hbelow,
      fun _ hmem => absurd hmem nofun, ?_, h.once, h.own⟩
    show mgr.allocations = (mgr.freed ++ [name.1]).length + 0 + lost
    rw [List.length_append, List.length_singleton]
    exact hcount

/-- The newest buffer, lost so far, is kept as the name. -/
theorem Books.keep (h : Books (lost + 1) mgr) (hnone : mgr.firmwareName = none)
    (hfreed : mgr.allocations - 1 ∉ mgr.freed) (hown : mgr.allocations - 1 ∉ mgr.overrun)
    (content : List Byte) : Books lost (mgr.keep content) := by
  have hcount := h.count
  unfold Mgr.held at hcount
  rw [hnone] at hcount
  have hpos : mgr.allocations - 1 < mgr.allocations := by
    omega
  refine ⟨h.nodup, h.below, ?_, ?_, nodup_concat h.once hown, forall_mem_concat h.own hpos⟩
  · rintro name ⟨rfl⟩
    exact ⟨hpos, hfreed⟩
  · show mgr.allocations = mgr.freed.length + 1 + lost
    simp only [Option.isSome_none, Bool.false_eq_true, if_false] at hcount
    omega

/-- The page that a read prints to is freed behind it. -/
theorem Books.page (h : Books lost mgr) :
    Books lost { mgr.alloc with freed := mgr.freed ++ [mgr.allocations] } := by
  have hfresh : mgr.allocations ∉ mgr.freed :=
    fun hmem => absurd (h.below _ hmem) (Nat.lt_irrefl _)
  refine ⟨nodup_concat h.nodup hfresh, forall_mem_concat h.alloc.below (Nat.lt_succ_self _), ?_, ?_,
    h.once, h.alloc.own⟩
  · intro name hname
    obtain ⟨hbelow, hnot⟩ := h.live name hname
    refine ⟨Nat.lt_succ_of_lt hbelow, fun hmem => ?_⟩
    rcases List.mem_append.mp hmem with hold | hnew
    · exact hnot hold
    · exact absurd (List.mem_singleton.mp hnew) (Nat.ne_of_lt hbelow)
  · show mgr.allocations + 1 = (mgr.freed ++ [mgr.allocations]).length + mgr.held + lost
    have hcount := h.count
    rw [List.length_append, List.length_singleton]
    omega

theorem Books.state (h : Books lost mgr) (state : FpgaState) :
    Books lost { mgr with state := state } :=
  ⟨h.nodup, h.below, h.live, h.count, h.once, h.own⟩

/-- An operation loses one buffer or none. -/
theorem Books.files (h : Books lost mgr) (op : Op) :
    Books (lost + if op.loses then 1 else 0) (op.files mgr) := by
  cases op with
  | setInfo info => exact ⟨h.nodup, h.below, h.live, h.count, h.once, h.own⟩
  | read reading =>
    show Books lost (fpgaMgrFirmwareReadFile reading mgr).2
    rcases readFile_files mgr reading with hfiles | hfiles
    · rw [hfiles]
      exact h
    · rw [hfiles]
      exact h.page
  | write file bytes allocated copied =>
    cases file with
    | image =>
      cases bytes with
      | nil => exact h.release
      | cons byte bytes =>
        cases allocated with
        | false => exact h
        | true =>
          cases copied with
          | false => exact h.alloc
          | true => exact h.alloc.release
    | firmwareName =>
      cases bytes with
      | nil => exact ⟨h.nodup, h.below, h.live, h.count, h.once, h.own⟩
      | cons byte bytes =>
        cases allocated with
        | false => exact h
        | true =>
          cases copied with
          | false => exact h.alloc
          | true =>
            have hreleased := h.release
            have hbooks := h.alloc.release
            have hnew : mgr.alloc.release.allocations - 1 = mgr.release.allocations := by
              simp only [release_eq, Mgr.alloc, Nat.add_sub_cancel]
            have hfreed : mgr.alloc.release.freed = mgr.release.freed := by
              simp only [release_eq, Mgr.alloc]
            have hoverrun : mgr.alloc.release.overrun = mgr.release.overrun := by
              simp only [release_eq, Mgr.alloc]
            refine hbooks.keep rfl ?_ ?_ (bufOf (byte :: bytes))
            · rw [hnew, hfreed]
              exact fun hmem => absurd (hreleased.below _ hmem) (Nat.lt_irrefl _)
            · rw [hnew, hoverrun]
              exact fun hmem => absurd (hreleased.own _ hmem) (Nat.lt_irrefl _)

/-- What an operation does behind the buffers, and what it leaves as the name. -/
theorem files_tally (op : Op) (mgr : Mgr) :
    (op.files mgr).overrun.length = mgr.overrun.length + (if op.overruns then 1 else 0) ∧
      (op.files mgr).faults = mgr.faults + (if op.faults then 1 else 0) := by
  cases op with
  | setInfo info => exact ⟨rfl, rfl⟩
  | read reading =>
    show (fpgaMgrFirmwareReadFile reading mgr).2.overrun.length = _ ∧
      (fpgaMgrFirmwareReadFile reading mgr).2.faults = _
    rcases readFile_files mgr reading with hfiles | hfiles
    · rw [hfiles]
      exact ⟨rfl, rfl⟩
    · rw [hfiles]
      exact ⟨rfl, rfl⟩
  | write file bytes allocated copied =>
    have hsame : mgr.release.overrun = mgr.overrun ∧ mgr.release.faults = mgr.faults := by
      rw [release_eq]
      exact ⟨rfl, rfl⟩
    have halloc : mgr.alloc.release.overrun = mgr.overrun ∧
        mgr.alloc.release.faults = mgr.faults := by
      rw [release_eq]
      exact ⟨rfl, rfl⟩
    cases file with
    | image =>
      cases bytes with
      | nil => exact ⟨congrArg List.length hsame.1, hsame.2⟩
      | cons byte bytes =>
        cases allocated with
        | false => exact ⟨rfl, rfl⟩
        | true =>
          cases copied with
          | false => exact ⟨rfl, rfl⟩
          | true => exact ⟨congrArg List.length halloc.1, halloc.2⟩
    | firmwareName =>
      cases bytes with
      | nil => exact ⟨rfl, rfl⟩
      | cons byte bytes =>
        cases allocated with
        | false => exact ⟨rfl, rfl⟩
        | true =>
          cases copied with
          | false => exact ⟨rfl, rfl⟩
          | true =>
            refine ⟨?_, halloc.2⟩
            show (mgr.alloc.release.overrun ++ [_]).length = mgr.overrun.length + 1
            rw [List.length_append, halloc.1]
            rfl

theorem files_leaves (op : Op) {mgr : Mgr} {last : Option (List Byte)}
    (h : mgr.firmwareName.map Prod.snd = last.map bufOf) :
    (op.files mgr).firmwareName.map Prod.snd = (op.leaves last).map bufOf := by
  cases op with
  | setInfo info => exact h
  | read reading =>
    show (fpgaMgrFirmwareReadFile reading mgr).2.firmwareName.map Prod.snd = _
    rcases readFile_files mgr reading with hfiles | hfiles
    · rw [hfiles]
      exact h
    · rw [hfiles]
      exact h
  | write file bytes allocated copied =>
    cases file <;> cases bytes <;> cases allocated <;> cases copied <;> first | exact h | rfl

end

/-! ## Reading the name back -/

/-- The string ends in its buffer or right behind it, and fits into the page with its end. -/
def Legible (r : Reading) (bytes : List Byte) : Prop :=
  (nameOf bytes).length + 1 < PAGE_SIZE ∧ (0 ∈ bufOf bytes ∨ r.behind = [])

/-- A read that goes for the whole text. -/
def Whole (r : Reading) (bytes : List Byte) : Prop :=
  r.pos = 0 ∧ (nameOf bytes).length + r.behind.length + 1 ≤ r.count

/-- The name that was last written is read, or nothing. -/
def ReadsBack (r : Reading) (mgr : Mgr) (last : Option (List Byte)) : Prop :=
  (fpgaMgrFirmwareReadFile r mgr).1 =
    .ok (((last.elim [] fun bytes => nameOf bytes ++ [10]).drop r.pos).take r.count)

theorem zero_not_mem_nameOf (bytes : List Byte) : 0 ∉ nameOf bytes :=
  fun hmem => absurd (List.mem_takeWhile_imp hmem) (by decide)

/-- The string is the name, and then what is behind it. -/
theorem stringIn_eq (bytes behind : List Byte) :
    stringIn (bufOf bytes) behind =
      nameOf bytes ++ if 0 ∈ bufOf bytes then [] else behind := by
  unfold stringIn nameOf
  split
  · rw [List.append_nil]
  · rename_i hends
    rw [List.takeWhile_eq_self_iff.mpr]
    intro byte hbyte
    exact decide_eq_true fun hzero => hends (hzero ▸ hbyte)

section
variable {text : List Byte} (past : Mem)

theorem printed_eq (h : text.length < PAGE_SIZE) :
    (List.range text.length).map (printed text past) = text := by
  refine List.ext_getElem (by rw [List.length_map, List.length_range]) fun i _ hi => ?_
  rw [List.getElem_map, List.getElem_range, printed, if_pos (Nat.lt_trans hi h),
    List.take_of_length_le (Nat.le_sub_one_of_lt h), List.getD_eq_getElem _ _ hi]

/-- The last byte of a full page is not the text's. -/
theorem printed_last (h : PAGE_SIZE ≤ text.length) :
    ((List.range text.length).map (printed text past))[PAGE_SIZE - 1]? = some 0 := by
  have hlt : PAGE_SIZE - 1 < text.length := Nat.lt_of_lt_of_le (by decide) h
  rw [List.getElem?_map, List.getElem?_range hlt, Option.map_some, printed,
    if_pos (by decide), List.getD_eq_default]
  exact List.length_take_le _ _

end

section
variable {r : Reading} {mgr : Mgr}

theorem readFile_none (h : mgr.firmwareName = none) :
    (fpgaMgrFirmwareReadFile r mgr).1 = .ok [] := by
  unfold fpgaMgrFirmwareReadFile
  rw [h]

theorem readFile_some {content : List Byte} (h : mgr.firmwareName.map Prod.snd = some content)
    (hpage : r.allocated = true) :
    (fpgaMgrFirmwareReadFile r mgr).1 =
      .ok ((((List.range (stringIn content r.behind ++ [10]).length).map
        (printed (stringIn content r.behind ++ [10]) r.past)).drop r.pos).take r.count) := by
  obtain ⟨⟨buf, content⟩, hname, rfl⟩ := Option.map_eq_some_iff.mp h
  unfold fpgaMgrFirmwareReadFile
  rw [hname]
  simp only [hpage, Bool.true_eq_false, if_false]

theorem readsBack_of_legible {last : Option (List Byte)}
    (hheld : mgr.firmwareName.map Prod.snd = last.map bufOf) (hpage : r.allocated = true)
    (h : ∀ bytes ∈ last, Legible r bytes) : ReadsBack r mgr last := by
  unfold ReadsBack
  cases last with
  | none =>
    rw [readFile_none (Option.map_eq_none_iff.mp hheld)]
    simp only [Option.elim_none, List.drop_nil, List.take_nil]
  | some bytes =>
    obtain ⟨hfits, hends⟩ := h bytes rfl
    have htext : stringIn (bufOf bytes) r.behind = nameOf bytes := by
      rw [stringIn_eq]
      rcases hends with hzero | hbehind
      · rw [if_pos hzero, List.append_nil]
      · rw [hbehind, ite_self, List.append_nil]
    have hlength : (nameOf bytes ++ [10]).length < PAGE_SIZE := by
      rw [List.length_append]
      exact hfits
    rw [readFile_some hheld hpage, htext, printed_eq r.past hlength]
    rfl

/-- What does not end in time shows, and so does the page. -/
theorem legible_of_readsBack {bytes : List Byte}
    (hheld : mgr.firmwareName.map Prod.snd = some (bufOf bytes)) (hpage : r.allocated = true)
    (hwhole : Whole r bytes) (h : ReadsBack r mgr (some bytes)) : Legible r bytes := by
  obtain ⟨hpos, hcount⟩ := hwhole
  unfold ReadsBack at h
  rw [readFile_some hheld hpage, stringIn_eq, hpos, List.drop_zero, List.drop_zero,
    Option.elim_some] at h
  have hread := Except.ok.inj h
  generalize hrest : (if 0 ∈ bufOf bytes then [] else r.behind) = rest at hread
  have hlength : rest.length ≤ r.behind.length := by
    rw [← hrest]
    split
    · exact Nat.zero_le _
    · exact Nat.le_refl _
  rw [List.take_of_length_le, List.take_of_length_le] at hread
  · have hends : rest = [] := by
      have hsame := congrArg List.length hread
      simp only [List.length_map, List.length_range, List.length_append,
        List.length_singleton] at hsame
      exact List.eq_nil_of_length_eq_zero (by omega)
    refine ⟨?_, ?_⟩
    · by_contra hlong
      have htext : PAGE_SIZE ≤ (nameOf bytes ++ [10]).length := by
        rw [List.length_append, List.length_singleton]
        omega
      have hlast := printed_last r.past htext
      rw [hends, List.append_nil] at hread
      rw [hread] at hlast
      rcases List.mem_append.mp (List.mem_of_getElem? hlast) with hname | hnewline
      · exact zero_not_mem_nameOf bytes hname
      · exact absurd (List.mem_singleton.mp hnewline) (by decide)
    · by_cases hzero : 0 ∈ bufOf bytes
      · exact .inl hzero
      · rw [if_neg hzero] at hrest
        exact .inr (hrest.trans hends)
  · rw [List.length_append, List.length_singleton]
    omega
  · simp only [List.length_map, List.length_range, List.length_append, List.length_singleton]
    omega

end

/-! ## A run -/

section
variable {σ : Type} (D : Device Addr U32 σ) (core : Core) (firmware : Firmware)

theorem run_files (ops : List Op) {lost : Nat} {mgr : Mgr} {last : Option (List Byte)}
    (h : Books lost mgr) (hheld : mgr.firmwareName.map Prod.snd = last.map bufOf) (m : Regs σ) :
    let mgr' := (runOps D core firmware ops mgr m).1
    Books (lost + ops.countP Op.loses) mgr' ∧
      mgr'.overrun.length = mgr.overrun.length + ops.countP Op.overruns ∧
      mgr'.faults = mgr.faults + ops.countP Op.faults ∧
      mgr'.firmwareName.map Prod.snd = (ops.foldl Op.leaves last).map bufOf := by
  induction ops generalizing lost mgr last m with
  | nil => exact ⟨h, rfl, rfl, hheld⟩
  | cons op ops ih =>
    obtain ⟨state, hfiles⟩ := apply_files D core firmware op mgr m
    have htally : ({ op.files mgr with state := state } : Mgr).overrun.length =
          mgr.overrun.length + (if op.overruns then 1 else 0) ∧
        ({ op.files mgr with state := state } : Mgr).faults =
          mgr.faults + (if op.faults then 1 else 0) := files_tally op mgr
    have hbooks := (h.files op).state state
    have hleft : ({ op.files mgr with state := state } : Mgr).firmwareName.map Prod.snd =
        (op.leaves last).map bufOf := files_leaves op hheld
    rw [← hfiles] at htally hbooks hleft
    obtain ⟨hrest, hoverruns, hfaulted, hlast⟩ :=
      ih hbooks hleft (op.apply D core firmware mgr m).2
    refine ⟨?_, ?_, ?_, hlast⟩
    · rw [List.countP_cons, Nat.add_comm (ops.countP Op.loses), ← Nat.add_assoc]
      exact hrest
    · rw [List.countP_cons, Nat.add_comm (ops.countP Op.overruns), ← Nat.add_assoc, ← htally.1]
      exact hoverruns
    · rw [List.countP_cons, Nat.add_comm (ops.countP Op.faults), ← Nat.add_assoc, ← htally.2]
      exact hfaulted

/-- Buffers over any operations on a registered manager, up to its removal. -/
theorem run_buffers (ops : List Op) (state : FpgaState) (m : Regs σ) :
    let mgr := (runOps D core firmware ops (register state) m).1
    let last := ops.foldl Op.leaves none
    (∀ name ∈ mgr.firmwareName, name.1 < mgr.allocations ∧ name.1 ∉ mgr.freed) ∧
      (fpgaMgrDebugfsRemove mgr).freed.Nodup ∧
      mgr.allocations = (fpgaMgrDebugfsRemove mgr).freed.length + ops.countP Op.loses ∧
      (mgr.overrun.Nodup ∧ (∀ buf ∈ mgr.overrun, buf < mgr.allocations) ∧
        mgr.overrun.length = ops.countP Op.overruns) ∧
      mgr.faults = ops.countP Op.faults ∧
      ∀ r : Reading, r.allocated = true →
        ((∀ bytes ∈ last, Legible r bytes) → ReadsBack r mgr last) ∧
        ∀ bytes ∈ last, Whole r bytes → ReadsBack r mgr last → Legible r bytes := by
  have hnone : (register state).firmwareName.map Prod.snd =
      (none : Option (List Byte)).map bufOf := rfl
  obtain ⟨hbooks, hoverrun, hfaults, hlast⟩ :=
    run_files D core firmware ops (books_register state) hnone m
  rw [Nat.zero_add] at hbooks
  have hremoved := hbooks.release
  refine ⟨hbooks.live, hremoved.nodup, ?_, ⟨hbooks.once, hbooks.own, ?_⟩, ?_, ?_⟩
  · have hsame : ∀ mgr : Mgr, mgr.release.allocations = mgr.allocations := fun mgr => by
      rw [release_eq]
    exact (hsame _).symm.trans hremoved.count
  · exact hoverrun.trans (Nat.zero_add _)
  · exact hfaults.trans (Nat.zero_add _)
  · intro r hpage
    refine ⟨readsBack_of_legible hlast hpage, ?_⟩
    intro bytes hbytes hwhole hreads
    rw [hbytes] at hreads
    rw [hbytes] at hlast
    exact legible_of_readsBack hlast hpage hwhole hreads

end

end FpgaPartialReconfig.Driver.Manager
