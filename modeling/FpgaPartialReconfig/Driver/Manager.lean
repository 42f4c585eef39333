/-
  The FPGA manager of the fpga driver and its debugfs files.

  `firmware_name` takes the name of an image, which `request_firmware` looks up, and `image`
  takes the bytes of one. Both load what they have through `fpga_mgr_buf_load`; the write to
  `image` drops the result. `flags` and `config_to` are what the loads read.

  `ShownBy` says what the `state` file is worth: it shows `operating` only where the last
  thing that was done to the PR IP was a load that ended well (`run_state`).

  A write to `firmware_name` ends its string with a byte behind the buffer: `overrun` keeps
  whose. For a write of no bytes there is no buffer, and that byte is nowhere.

  Left out: messages, the reference counting of `of_fpga_mgr_get`, and what a reader of
  `firmware_name` has for a buffer.
-/
import FpgaPartialReconfig.Driver.Loader
import FpgaPartialReconfig.Driver.Debugfs

namespace FpgaPartialReconfig.Driver.Manager

open Bus

/-! ## The manager and its files -/

/-- What `request_firmware` returns for a name, and the image where that is 0. -/
abbrev Firmware := List Byte → Int × List Byte

/-- `struct fpga_manager` with its `fpga_mgr_debugfs`. The number of an allocation stands for
    its address, and the name is kept with what is in its buffer; `freed` is what `kfree` was
    called with, `overrun` the buffers behind which a byte was set, and `faults` counts the
    writes to no memory. -/
structure Mgr where
  state : FpgaState
  info : FpgaImageInfo
  firmwareName : Option (Nat × List Byte)
  allocations : Nat
  freed : List Nat
  overrun : List Nat
  faults : Nat

/-- `fpga_mgr_register` and `fpga_mgr_debugfs_add`, after which the fields of `info` are 0. -/
def register (state : FpgaState) : Mgr where
  state := state
  info := ⟨false, 0⟩
  firmwareName := none
  allocations := 0
  freed := []
  overrun := []
  faults := 0

inductive File where
  | firmwareName | image
  deriving DecidableEq, Repr

/-- A read of `firmware_name`: `count` bytes from `pos` on. The string goes on with `behind` if
    it does not end in its buffer, and `past` is behind the page that it is printed to. -/
structure Reading where
  pos : Nat
  count : Nat
  allocated : Bool
  behind : List Byte
  past : Mem

/-- What is done to the files: a write of `bytes`, for which the buffer is allocated and
    filled or not, a read, or new values of `flags` and `config_to`. -/
inductive Op where
  | write (file : File) (bytes : List Byte) (allocated copied : Bool)
  | read (reading : Reading)
  | setInfo (info : FpgaImageInfo)

def PAGE_SIZE : Nat := 4096

/-- What is in the buffer of a write to `firmware_name`: a newline at its end goes. -/
def bufOf (bytes : List Byte) : List Byte :=
  if bytes.getLast? = some 10 then bytes.dropLast ++ [0] else bytes

/-- The string there, when the byte behind it has been set. -/
def nameOf (bytes : List Byte) : List Byte := (bufOf bytes).takeWhile (· ≠ 0)

/-- The string there later. -/
def stringIn (buf behind : List Byte) : List Byte :=
  if 0 ∈ buf then buf.takeWhile (· ≠ 0) else buf ++ behind

def kfree (name : Option (Nat × List Byte)) (mgr : Mgr) : Mgr :=
  match name with
  | none => mgr
  | some (buf, _) => { mgr with freed := mgr.freed ++ [buf] }

section
variable {σ : Type} (D : Device Addr U32 σ) (core : Core) (firmware : Firmware)

def fpgaMgrFirmwareLoad (info : FpgaImageInfo) (imageName : List Byte) :
    Act (Regs σ) (Int × FpgaState) :=
  let found := firmware imageName
  if found.1 ≠ 0 then
    pure (found.1, .firmwareReqErr)
  else
    fpgaMgrBufLoad D core info (memOf found.2) found.2.length

/-- No value where the writer does not come back. -/
def fpgaMgrFirmwareWriteFile (bytes : List Byte) (allocated copied : Bool) (mgr : Mgr) :
    Act (Regs σ) (Option Int × Mgr) :=
  if bytes = [] then
    -- `kzalloc(0)` is no memory, and `buf[0] = 0` faults
    pure (none, { mgr with faults := mgr.faults + 1 })
  else if allocated = false then
    pure (some (-Debugfs.ENOMEM), mgr)
  else
    let buf := mgr.allocations
    let mgr := { mgr with allocations := buf + 1 }
    if copied = false then
      pure (some (-EFAULT), mgr)
    else do
      let mgr := { kfree mgr.firmwareName { mgr with overrun := mgr.overrun ++ [buf] } with
        firmwareName := some (buf, bufOf bytes) }
      let ret ← fpgaMgrFirmwareLoad D core firmware mgr.info (nameOf bytes)
      let mgr := { mgr with state := ret.2 }
      if ret.1 ≠ 0 then
        return (some ret.1, mgr)
      else
        return (some bytes.length, mgr)

/-- No bytes take no allocation and are always there. -/
def fpgaMgrImageWriteFile (bytes : List Byte) (allocated copied : Bool) (mgr : Mgr) :
    Act (Regs σ) (Option Int × Mgr) :=
  if bytes ≠ [] ∧ allocated = false then
    pure (some (-Debugfs.ENOMEM), mgr)
  else
    let mgr := if bytes = [] then mgr else { mgr with allocations := mgr.allocations + 1 }
    if bytes ≠ [] ∧ copied = false then
      pure (some (-EFAULT), mgr)
    else do
      let mgr := { kfree mgr.firmwareName mgr with firmwareName := none }
      let ret ← fpgaMgrBufLoad D core mgr.info (memOf bytes) bytes.length
      -- a failure is reported in the log only
      return (some bytes.length, { mgr with state := ret.2 })

/-- Byte `i` of the page with the text, and what is behind it: `snprintf` stops there. -/
def printed (text : List Byte) (past : Mem) (i : Nat) : Byte :=
  if i < PAGE_SIZE then (text.take (PAGE_SIZE - 1)).getD i 0 else past (i - PAGE_SIZE)

/-- The bytes that are read, or an error. As many of the page are given out as the text has,
    be they in it or not. -/
def fpgaMgrFirmwareReadFile (r : Reading) (mgr : Mgr) : Except Int (List Byte) × Mgr :=
  match mgr.firmwareName with
  | none => (.ok [], mgr)
  | some (_, buf) =>
    if r.allocated = false then
      (.error (-Debugfs.ENOMEM), mgr)
    else
      let text := stringIn buf r.behind ++ [10]
      let bytes := (List.range text.length).map (printed text r.past)
      (.ok ((bytes.drop r.pos).take r.count),
        { mgr with
          allocations := mgr.allocations + 1
          freed := mgr.freed ++ [mgr.allocations] })

def Op.apply (op : Op) (mgr : Mgr) : Act (Regs σ) (Option Int × Mgr) :=
  match op with
  | .write .firmwareName bytes allocated copied =>
    fpgaMgrFirmwareWriteFile D core firmware bytes allocated copied mgr
  | .write .image bytes allocated copied => fpgaMgrImageWriteFile D core bytes allocated copied mgr
  | .read reading =>
    let ret := fpgaMgrFirmwareReadFile reading mgr
    pure (some (match ret.1 with
      | .error err => err
      | .ok bytes => bytes.length), ret.2)
  | .setInfo info => pure (some 0, { mgr with info := info })

/-- One operation after the other. -/
def runOps : List Op → Mgr → Act (Regs σ) Mgr
  | [], mgr => pure mgr
  | op :: ops, mgr => do
    let ret ← op.apply D core firmware mgr
    runOps ops ret.2

end

/-- `fpga_mgr_debugfs_remove`, up to the `kfree` of the debugfs structure itself. -/
def fpgaMgrDebugfsRemove (mgr : Mgr) : Mgr := kfree mgr.firmwareName mgr

/-! ## What a load does on any device -/

section
variable {σ : Type} (D : Device Addr U32 σ) (core : Core)

theorem emits_altPrFpgaWriteInit (partialReconfig : Bool) (buf : Mem) (count : Nat) :
    Emits (core.altPrFpgaWriteInit D partialReconfig buf count) fun ret es =>
      ret ≤ 0 ∧ writesTo altPrData es = [] := by
  have hdenied : Emits (pure (-EINVAL) : Act (Regs σ) Int) fun ret es =>
      ret ≤ 0 ∧ writesTo altPrData es = [] := Spec.pure fun _ _ => ⟨by decide, rfl⟩
  cases core with
  | a10 => exact Spec.ite (fun _ => hdenied) fun _ => Core.emits_altPrIpWriteInit D .a10 buf count
  | s10 verbose =>
    exact Spec.ite (fun _ => hdenied) fun _ =>
      Core.emits_altPrIpWriteInit D (.s10 verbose) buf count

theorem emits_readPReg : Emits (S10.readPReg D) fun _ es => Silent es := by
  refine (emits_readl D _).bind fun _ _ h₁ => (emits_readl D _).bind fun _ _ h₂ => ?_
  refine (emits_readl D _).bind fun _ _ h₃ => (emits_readl D _).bind fun _ _ h₄ => ?_
  refine (emits_readl D _).bind fun _ _ h₅ => (emits_readl D _).bind fun _ _ h₆ => ?_
  refine Spec.pure fun _ _ => ?_
  subst h₁ h₂ h₃ h₄ h₅ h₆
  intro a
  rfl

theorem emits_postWrite (ret : Int) : Emits (core.postWrite D ret) fun _ es => Silent es := by
  cases core with
  | a10 => exact Spec.pure fun _ _ => silent_nil
  | s10 verbose => exact Spec.ite (fun _ => emits_readPReg D) fun _ => Spec.pure fun _ _ => silent_nil

/-- `write` returns zero only once every word of the image is written. -/
theorem emits_altPrFpgaWrite (bytes : List Byte) :
    Emits (core.altPrFpgaWrite D (memOf bytes) bytes.length) fun ret es =>
      ret ≤ 0 ∧ (ret = 0 → writesTo altPrData es = fileWords bytes) := by
  by_cases h0 : 0 < bytes.length
  · rw [core.altPrFpgaWrite_eq D (fun _ _ => rfl) h0]
    refine (core.emits_stream D _ (· = tailWords bytes)
      ((emits_closeWrite D _ _).mono fun _ _ h => ⟨h.1, fun _ => h.2⟩)).bind fun ret es h => ?_
    refine (emits_postWrite D core ret).bind fun _ es' h' => Spec.pure fun _ _ => ⟨h.1, ?_⟩
    intro hret
    obtain ⟨tail, rfl, hes⟩ := h.2 hret
    rw [List.append_nil, writesTo_append, hes, h' altPrData, List.append_nil, fileWords_eq]
  · have hempty : bytes.length ≤ 0 := Nat.le_of_not_lt h0
    have hdenied : Emits (pure (-EINVAL) : Act (Regs σ) Int) fun ret es =>
        ret ≤ 0 ∧ (ret = 0 → writesTo altPrData es = fileWords bytes) :=
      Spec.pure fun _ _ => ⟨by decide, fun h => absurd h (by decide)⟩
    cases core with
    | a10 => exact Spec.ite (fun _ => hdenied) fun h => absurd hempty h
    | s10 verbose => exact Spec.ite (fun _ => hdenied) fun h => absurd hempty h

theorem emits_altPrFpgaWriteComplete (timeout : U32) :
    Emits (core.altPrFpgaWriteComplete D timeout) fun ret es => Silent es ∧
      (ret < 0 ∨
        ret = 0 ∧ ∃ es₀ v, es = es₀ ++ [.read altPrCsr v] ∧ core.stateOf v = .operating) := by
  cases core with
  | a10 => exact emits_pollComplete D A10.stateOf _
  | s10 verbose => exact emits_pollComplete D S10.stateOf _

/-- The states that a load can end in without success. -/
def Failed (state : FpgaState) : Prop :=
  state = .firmwareReqErr ∨ state = .writeInitErr ∨ state = .writeErr ∨ state = .writeCompleteErr

/-- A load succeeds with the image loaded and the state set, or fails with an error. -/
theorem emits_fpgaMgrBufLoad (info : FpgaImageInfo) (bytes : List Byte) :
    Emits (fpgaMgrBufLoad D core info (memOf bytes) bytes.length) fun r es =>
      r = (0, .operating) ∧ Loaded core.stateOf (fileWords bytes) es ∨ r.1 < 0 ∧ Failed r.2 := by
  refine (emits_altPrFpgaWriteInit D core _ _ _).bind fun ret es₁ h₁ => ?_
  refine Spec.ite (fun hret => Spec.pure fun _ _ => .inr ⟨?_, .inr (.inl rfl)⟩) fun _ => ?_
  · have hle := h₁.1
    simp only
    omega
  refine (emits_altPrFpgaWrite D core bytes).bind fun ret es₂ h₂ => ?_
  refine Spec.ite (fun hret => Spec.pure fun _ _ => .inr ⟨?_, .inr (.inr (.inl rfl))⟩) fun hret₂ => ?_
  · have hle := h₂.1
    simp only
    omega
  refine (emits_altPrFpgaWriteComplete D core _).bind fun ret es₃ h₃ => ?_
  obtain ⟨hsilent, hout⟩ := h₃
  refine Spec.ite (fun hret => Spec.pure fun _ _ => .inr ⟨?_, .inr (.inr (.inr rfl))⟩) fun hret₃ => ?_
  · rcases hout with hneg | ⟨hzero, -⟩
    · exact hneg
    · exact absurd hzero hret
  rcases hout with hneg | ⟨-, es₀, v, rfl, hop⟩
  · omega
  refine Spec.pure fun _ _ => .inl ⟨rfl, ?_, es₁ ++ (es₂ ++ es₀), v, [], ?_, hop, rfl⟩
  · rw [List.append_nil, writesTo_append, writesTo_append, h₁.2, h₂.2 (by omega), hsilent,
      List.append_nil, List.nil_append]
  · simp only [List.append_assoc, List.append_nil]

end

/-! ## What the state file shows -/

/-- What the state is after the accesses `es`, begun with the state `start`: nothing was
    loaded, or the last load failed, or `es` ends with a load of a whole image that the IP
    reported as a success. -/
def ShownBy (core : Core) (start : FpgaState) (es : List (Access Addr U32)) (state : FpgaState) :
    Prop :=
  (state = start ∧ es = []) ∨ Failed state ∨
    state = .operating ∧ ∃ before image last,
      es = before ++ last ∧ Loaded core.stateOf (fileWords image) last

theorem ShownBy.trans {core : Core} {start mid state : FpgaState}
    {es es' : List (Access Addr U32)} (h : ShownBy core start es mid)
    (h' : ShownBy core mid es' state) : ShownBy core start (es ++ es') state := by
  rcases h' with ⟨rfl, rfl⟩ | hfailed | ⟨hop, before, image, last, rfl, hloaded⟩
  · rw [List.append_nil]
    exact h
  · exact .inr (.inl hfailed)
  · exact .inr (.inr ⟨hop, es ++ before, image, last, (List.append_assoc _ _ _).symm, hloaded⟩)

/-- What a load returns, and what it leaves as the state. -/
def Reports (core : Core) (r : Int × FpgaState) (es : List (Access Addr U32)) : Prop :=
  (r = (0, .operating) ∧ ∃ image, Loaded core.stateOf (fileWords image) es) ∨
    r.1 ≠ 0 ∧ Failed r.2

theorem Reports.shown {core : Core} {r : Int × FpgaState} {es : List (Access Addr U32)}
    (h : Reports core r es) (start : FpgaState) : ShownBy core start es r.2 := by
  rcases h with ⟨rfl, image, hloaded⟩ | ⟨-, hfailed⟩
  · exact .inr (.inr ⟨rfl, [], image, es, rfl, hloaded⟩)
  · exact .inr (.inl hfailed)

section
variable {σ : Type} (D : Device Addr U32 σ) (core : Core) (firmware : Firmware)

theorem emits_load (info : FpgaImageInfo) (bytes : List Byte) :
    Emits (fpgaMgrBufLoad D core info (memOf bytes) bytes.length) (Reports core) := by
  refine (emits_fpgaMgrBufLoad D core info bytes).mono fun r es h => ?_
  rcases h with ⟨hr, hloaded⟩ | ⟨hneg, hfailed⟩
  · exact .inl ⟨hr, bytes, hloaded⟩
  · exact .inr ⟨Int.ne_of_lt hneg, hfailed⟩

theorem emits_fpgaMgrFirmwareLoad (info : FpgaImageInfo) (imageName : List Byte) :
    Emits (fpgaMgrFirmwareLoad D core firmware info imageName) fun r es =>
      (r = (0, .operating) ∧ (firmware imageName).1 = 0 ∧
        Loaded core.stateOf (fileWords (firmware imageName).2) es) ∨
      (r.1 < 0 ∨ r.1 = (firmware imageName).1 ∧ r.1 ≠ 0) ∧ Failed r.2 := by
  refine Spec.ite (fun herr => Spec.pure fun _ _ => .inr ⟨.inr ⟨rfl, herr⟩, .inl rfl⟩) fun hfound => ?_
  refine (emits_fpgaMgrBufLoad D core info _).mono fun r es h => ?_
  rcases h with ⟨hr, hloaded⟩ | ⟨hneg, hfailed⟩
  · exact .inl ⟨hr, not_not.mp hfound, hloaded⟩
  · exact .inr ⟨.inl hneg, hfailed⟩

theorem state_readFile (r : Reading) (mgr : Mgr) :
    (fpgaMgrFirmwareReadFile r mgr).2.state = mgr.state := by
  unfold fpgaMgrFirmwareReadFile
  split
  · rfl
  · split <;> rfl

theorem emits_apply (op : Op) (mgr : Mgr) :
    Emits (op.apply D core firmware mgr) fun r es => ShownBy core mgr.state es r.2.state := by
  have hsame : ∀ r : Option Int × Mgr, r.2.state = mgr.state →
      Emits (pure r : Act (Regs σ) (Option Int × Mgr)) fun r es =>
        ShownBy core mgr.state es r.2.state :=
    fun r hr => Spec.pure fun _ _ => .inl ⟨hr, rfl⟩
  cases op with
  | setInfo info => exact hsame _ rfl
  | read reading => exact hsame _ (state_readFile reading mgr)
  | write file bytes allocated copied =>
    cases file with
    | firmwareName =>
      refine Spec.ite (fun _ => hsame _ rfl) fun _ => ?_
      refine Spec.ite (fun _ => hsame _ rfl) fun _ => Spec.ite (fun _ => hsame _ rfl) fun _ => ?_
      refine (emits_fpgaMgrFirmwareLoad D core firmware _ _).bind fun r es h => ?_
      have hshown : ShownBy core mgr.state (es ++ []) r.2 := by
        rw [List.append_nil]
        rcases h with ⟨rfl, -, hloaded⟩ | ⟨-, hfailed⟩
        · exact .inr (.inr ⟨rfl, [], _, es, rfl, hloaded⟩)
        · exact .inr (.inl hfailed)
      exact Spec.ite (fun _ => Spec.pure fun _ _ => hshown) fun _ => Spec.pure fun _ _ => hshown
    | image =>
      refine Spec.ite (fun _ => hsame _ rfl) fun _ => ?_
      refine Spec.ite (fun _ => hsame _ (apply_ite Mgr.state _ _ _ |>.trans (ite_self _))) fun _ => ?_
      refine (emits_load D core _ bytes).bind fun r es h => Spec.pure fun _ _ => ?_
      have hshown : ShownBy core mgr.state (es ++ []) r.2 := by
        rw [List.append_nil]
        exact h.shown mgr.state
      exact hshown

/-- The state after any operations on the files. -/
theorem run_state (ops : List Op) (mgr : Mgr) :
    Emits (runOps D core firmware ops mgr) fun mgr' es =>
      ShownBy core mgr.state es mgr'.state := by
  induction ops generalizing mgr with
  | nil => exact Spec.pure fun _ _ => .inl ⟨rfl, rfl⟩
  | cons op ops ih =>
    refine (emits_apply D core firmware op mgr).bind fun r es h => ?_
    exact (ih r.2).mono fun mgr' es' h' => h.trans h'

end

end FpgaPartialReconfig.Driver.Manager
