/-
  The host program's Game of Life test.

  `do_gol_persona` resets the persona's logic through the control register, loads the board,
  starts the game, polls the busy flag, resets again and compares the result with its own
  game. Every access goes through the character device, whose driver reads back what it
  writes. `doGolPersona_passes`: whatever the persona was at before, and however slow the
  host is, the test ends and passes.

  The argument follows the region from access to access: `Reset` is where a reset of the
  logic leads to, `Ready` has the game in its registers, `Started` is from the start pulse on,
  `AtLeast` counts the generations that the polls have waited for, and `Result` stays through
  the second reset.

  Left out: messages, timers and `print_board`; and `rand`, whose values are the board.
-/
import FpgaPartialReconfig.Driver.Ioctl
import FpgaPartialReconfig.Gol.Game
import FpgaPartialReconfig.Gol.RegFile

namespace FpgaPartialReconfig.Gol

open Bus Driver Hosted

/-! ## The program -/

def prControlRegister : U32 := 0x10
def golBusyReg : U32 := 0x20
def golTopEnd : U32 := 0x30
def golBotEnd : U32 := 0x40
def golCounterLimitAddress : U32 := 0xa0
def golTopHalf : U32 := 0xb0
def golBotHalf : U32 := 0xc0
def golStartMask : Nat := 1

section
variable {σ : Type} (D : Device Addr U32 σ) (core : Core) (stack : Mem)

/-- The argument is on the program's stack, where the driver finds it; its data is not set. -/
def readPr (offset : U32) : Act (Priv σ) U32 := do
  let reply ← myIoctl D core stack 0 (.prRegionRead (some ⟨offset, 0⟩) true)
  return (reply.bind Reply.data).getD 0

def writePr (offset data : U32) : Act (Priv σ) Unit := do
  let _ ← myIoctl D core stack 0 (.prRegionWrite (some ⟨offset, data⟩))

def resetPrLogic (regionOffset : U32) : Act (Priv σ) Unit := do
  writePr D core stack (prControlRegister + regionOffset) 0
  writePr D core stack (prControlRegister + regionOffset) 1
  writePr D core stack (prControlRegister + regionOffset) 0

/-- The loop over the busy flag, with `polls` readings left: whether it has ended. -/
def pollGolBusy (regionOffset : U32) : Nat → Act (Priv σ) Bool
  | 0 => pure false
  | polls + 1 => do
    let busy ← readPr D core stack (golBusyReg + regionOffset)
    if busy ≠ 0 then
      pollGolBusy regionOffset polls
    else
      return true

def runGolAccelerated (regionOffset topHalf bottomHalf numberOfRuns : U32) (polls : Nat) :
    Act (Priv σ) Bool := do
  writePr D core stack (golTopHalf + regionOffset) topHalf
  writePr D core stack (golBotHalf + regionOffset) bottomHalf
  writePr D core stack (golCounterLimitAddress + regionOffset) numberOfRuns
  writePr D core stack (prControlRegister + regionOffset) (0 <<< golStartMask)
  writePr D core stack (prControlRegister + regionOffset) (1 <<< golStartMask)
  writePr D core stack (prControlRegister + regionOffset) (0 <<< golStartMask)
  pollGolBusy D core stack regionOffset polls

/-- The exit status, `none` while the program polls. -/
def doGolPersona (regionOffset topHalf bottomHalf numberOfRuns : U32) (polls : Nat) :
    Act (Priv σ) (Option Nat) := do
  resetPrLogic D core stack regionOffset
  let ended ← runGolAccelerated D core stack regionOffset topHalf bottomHalf numberOfRuns polls
  if ended = false then
    return none
  else do
    resetPrLogic D core stack regionOffset
    let topHalfFinal ← readPr D core stack (golTopEnd + regionOffset)
    let bottomHalfFinal ← readPr D core stack (golBotEnd + regionOffset)
    let acceleratedResult := hostBoard topHalfFinal bottomHalfFinal
    match runGolVerify (hostBoard topHalf bottomHalf) numberOfRuns with
    | none => return some 1
    | some hostGeneratedResult =>
      if hostGeneratedResult ≠ acceleratedResult then
        return some 1
      else
        return some 0

end

/-! ## Accesses -/

variable {F : RegFile}

/-- What the region behind the driver satisfies. -/
def At (P : Region F → Prop) (priv : Priv (State (Region F))) : Prop := P priv.regs.dev.machine

section
variable {regionOffset : U32} {wait : Nat → Nat} (hwait : ∀ k, F.held ≤ wait k)
  (core : Core) (stack : Mem)
include hwait

theorem ensures_readPr {P Q : Region F → Prop} {R : U32 → Region F → Prop} {ofs : U32}
    (hsettles : Settles Region.step F.held P Q)
    (hread : ∀ g, Q g → R (g.read ofs) g.step) :
    Act.Ensures (At P)
      (readPr (Region.device F regionOffset wait) core stack (ofs + regionOffset))
      fun v => At (R v) := by
  intro priv hpriv
  obtain ⟨g, hg, hvalue, hmachine⟩ := hsettles.read (Region.get regionOffset)
    (Region.put regionOffset) hwait (.prBar (ofs + regionOffset)) priv.regs.dev hpriv
  have hresult := hread g hg
  rw [← Region.get_add regionOffset, ← hvalue, ← hmachine] at hresult
  exact hresult

/-- The driver reads back what it writes. -/
theorem ensures_writePr {P Q R S T : Region F → Prop} {ofs v : U32}
    (hsettles : Settles Region.step F.held P Q)
    (hwrite : ∀ g, Q g → R (g.write ofs v).step)
    (hback : Settles Region.step F.held R S) (hstep : ∀ g, S g → T g.step) :
    Act.Ensures (At P)
      (writePr (Region.device F regionOffset wait) core stack (ofs + regionOffset) v)
      fun _ => At T := by
  intro priv hpriv
  obtain ⟨g, hg, hmachine⟩ := hsettles.write (Region.get regionOffset)
    (Region.put regionOffset) hwait (.prBar (ofs + regionOffset)) v priv.regs.dev hpriv
  have hwritten := hwrite g hg
  rw [← Region.put_add regionOffset, ← hmachine] at hwritten
  obtain ⟨g', hg', -, hmachine'⟩ := hback.read (Region.get regionOffset)
    (Region.put regionOffset) hwait (.prBar (ofs + regionOffset)) _ hwritten
  have hresult := hstep g' hg'
  rw [← hmachine'] at hresult
  exact hresult

end

/-! ## A reset of the logic -/

/-- No game is on, and none is asked for. -/
structure Cleared (g : Region F) : Prop where
  startPulse : g.moderator.startPulse = false
  startPulseD : g.moderator.startPulseD = false
  startGameDelay : g.moderator.startGameDelay = false
  localClrIoReg : g.moderator.localClrIoReg = false
  control : g.control = 0

/-- And the registers are there for the host. -/
structure Reset (g : Region F) : Prop extends Cleared g where
  clearing : g.clearing = 0

section
variable {g : Region F}

theorem Cleared.step (h : Cleared g) : Cleared g.step := by
  have hruns := Region.runs h.localClrIoReg
  have hbits : g.moderatorIn.hostCntrlRegister = 0 := h.control
  refine ⟨?_, ?_, ?_, ?_, Region.step_control_zero h.localClrIoReg h.control⟩
  · rw [Region.moderator_step, Moderator.step_startPulse hruns, hbits]
    exact Bool.and_false _
  · rw [Region.moderator_step, Moderator.step_startPulseD hruns, hbits]
    rfl
  · exact Moderator.step_not_started h.startPulse h.startGameDelay
  · exact Region.step_no_pulse h.control

theorem Cleared.write (h : Cleared g) {ofs : U32} (hreg : decode ofs = some .control) :
    Cleared (g.write ofs 0) :=
  ⟨h.startPulse, h.startPulseD, h.startGameDelay, h.localClrIoReg,
    Region.write_control_zero hreg h.localClrIoReg⟩

theorem Reset.step (h : Reset g) : Reset g.step := by
  refine ⟨h.toCleared.step, ?_⟩
  rw [Region.step_clearing h.localClrIoReg, h.clearing]

/-- Without a clear pulse a reset wears off. -/
theorem clearing_iterate {P : Region F → Prop} (hsteady : Steady Region.step P)
    (hno : ∀ g, P g → g.moderator.localClrIoReg = false) {g : Region F} (hg : P g) (n : Nat) :
    (Region.step^[n] g).clearing = g.clearing - n := by
  induction n with
  | zero => rfl
  | succ n ih =>
    rw [Function.iterate_succ_apply', Region.step_clearing (hno _ (hsteady.iterate n hg)), ih]
    omega

theorem settles_clearing {P : Region F → Prop} (hsteady : Steady Region.step P)
    (hno : ∀ g, P g → g.moderator.localClrIoReg = false) :
    Settles Region.step F.held P fun g => P g ∧ g.clearing = 0 := by
  intro g k hk hg
  refine ⟨hsteady.iterate k hg, ?_⟩
  rw [clearing_iterate hsteady hno hg]
  have hle := g.clearing_le
  omega

end

/-! The first write takes the bit back, the second sets it, the third takes it back again. -/

/-- No clear pulse is on or to come. -/
structure Quiet (g : Region F) : Prop where
  localClrIoReg : g.moderator.localClrIoReg = false
  noClear : g.control = 0

/-- The clear pulse. -/
structure Pulse (g : Region F) : Prop where
  localClrIoReg : g.moderator.localClrIoReg = true
  localClrIoRegQ : g.moderator.localClrIoRegQ = true

section
variable {g : Region F} {ofs : U32}

theorem Quiet.step (h : Quiet g) : Quiet g.step :=
  ⟨Region.step_no_pulse h.noClear, Region.step_control_zero h.localClrIoReg h.noClear⟩

/-- A state without a pulse writes the register; a pulse clears it anyway. -/
theorem quiet_of_write (hreg : decode ofs = some .control) (h : g.Wf) :
    Quiet (g.write ofs 0).step := by
  by_cases hclear : g.moderator.localClrIoReg = true
  · have hwf : (g.write ofs 0).Wf := h
    have hnext := hwf.step_pulse hclear
    exact ⟨hnext, Region.step_control_reset hnext (Or.inl hclear)⟩
  · rw [Bool.not_eq_true] at hclear
    exact Quiet.step ⟨hclear, Region.write_control_zero hreg hclear⟩

theorem Pulse.step (h : Pulse g) : Cleared g.step := by
  have hnext : g.step.moderator.localClrIoReg = false :=
    Region.Wf.step_pulse (fun _ => h.localClrIoRegQ) h.localClrIoReg
  refine ⟨?_, ?_, ?_, hnext, Region.step_control_reset hnext (Or.inl h.localClrIoReg)⟩
  · simp [Region.step, Moderator.step, h.localClrIoReg]
  · simp [Region.step, Moderator.step, h.localClrIoReg]
  · simp [Region.step, Moderator.step, h.localClrIoReg]

theorem pulse_of_write (hreg : decode ofs = some .control)
    (hclear : g.moderator.localClrIoReg = false) (hQ : g.moderator.localClrIoRegQ = false)
    (hclearing : g.clearing = 0) : Pulse (g.write ofs 1).step := by
  have hcontrol := (Region.write_control hreg hclear hclearing 1).1
  refine ⟨?_, ?_⟩
  · rw [Region.step_localClrIoReg, hcontrol, Region.moderator_write, hQ]
    decide
  · rw [Region.step_localClrIoRegQ, hcontrol]
    decide

/-- The registers are there and the clear bit has been low. -/
structure Armed (g : Region F) : Prop extends Quiet g where
  there : g.clearing = 0
  localClrIoRegQ : g.moderator.localClrIoRegQ = false

theorem Quiet.armed (h : Quiet g) (hclearing : g.clearing = 0) : Armed g.step := by
  refine ⟨h.step, ?_, ?_⟩
  · rw [Region.step_clearing h.localClrIoReg, hclearing]
  · rw [Region.step_localClrIoRegQ, h.noClear]
    decide

end

section
variable {regionOffset : U32} {wait : Nat → Nat} (hwait : ∀ k, F.held ≤ wait k)
  (core : Core) (stack : Mem)
include hwait

/-- A reset of the logic from any state. -/
theorem ensures_resetPrLogic :
    Act.Ensures (At (F := F) Region.Wf)
      (resetPrLogic (Region.device F regionOffset wait) core stack regionOffset)
      fun _ => At Reset := by
  have hwf : Steady Region.step (Region.Wf (F := F)) := fun g _ => g.wf_step
  have hquiet : Steady Region.step (Quiet (F := F)) := fun _ h => h.step
  have harmed : Steady Region.step (Armed (F := F)) := fun _ h => h.toQuiet.armed h.there
  have hcleared : Steady Region.step (Cleared (F := F)) := fun _ h => h.step
  have hpulse : Steady Region.step fun g : Region F => Pulse g ∨ Cleared g := by
    rintro g (h | h)
    · exact Or.inr h.step
    · exact Or.inr h.step
  refine Act.Ensures.bind (ensures_writePr hwait core stack (hwf.settles F.held)
    (fun _ h => quiet_of_write rfl h) (settles_clearing hquiet fun _ h => h.localClrIoReg)
    (fun _ h => h.1.armed h.2)) fun _ => ?_
  refine Act.Ensures.bind (ensures_writePr hwait core stack (harmed.settles F.held)
    (fun _ h => Or.inl (pulse_of_write rfl h.localClrIoReg h.localClrIoRegQ h.there))
    (hpulse.settles F.held) (T := Cleared) ?_) fun _ => ?_
  · rintro g (h | h)
    · exact h.step
    · exact h.step
  · exact ensures_writePr hwait core stack (hcleared.settles F.held)
      (fun _ h => (h.write rfl).step) (settles_clearing hcleared fun _ h => h.localClrIoReg)
      (fun _ h => Reset.step ⟨h.1, h.2⟩)

end

/-! ## The result of a game, through a reset -/

structure Result (board : BitVec 64) (g : Region F) : Prop where
  gameOver : Over board g.moderator
  startPulse : g.moderator.startPulse = false
  noStart : g.moderator.localClrIoReg = false → g.control.getLsbD 1 = false

section
variable {board : BitVec 64} {g : Region F}

/-- Under a clear pulse there is no start, whatever is in the register. -/
theorem Result.step (h : Result board g) : Result board g.step := by
  refine ⟨h.gameOver.step rfl h.startPulse, ?_, fun hnext => ?_⟩
  · cases hclear : g.moderator.localClrIoReg with
    | true => simp [Region.step, Moderator.step, hclear]
    | false => exact Moderator.step_no_start (h.noStart hclear)
  · cases hclear : g.moderator.localClrIoReg with
    | true =>
      rw [Region.step_control_reset hnext (Or.inl hclear)]
      decide
    | false =>
      obtain hclearing | hclearing := Nat.eq_zero_or_pos g.clearing
      · rw [(Region.step_registers hclear hclearing hnext).1]
        exact h.noStart hclear
      · rw [Region.step_control_reset hnext (Or.inr hclearing)]
        decide

theorem Result.write (h : Result board g) {ofs v : U32} (hreg : decode ofs = some .control)
    (hv : v.getLsbD 1 = false) : Result board (g.write ofs v) := by
  refine ⟨h.gameOver, h.startPulse, fun hclear => ?_⟩
  obtain hclearing | hclearing := Nat.eq_zero_or_pos g.clearing
  · rw [(Region.write_control (g := g) hreg hclear hclearing v).1]
    exact hv
  · rw [Region.write_control_reset (g := g) hclear hclearing]
    decide

theorem Result.read_topEnd (h : Result board g) (hreset : Reset g) :
    g.read golTopEnd = board.extractLsb' 32 32 := by
  rw [Region.read_prHost (k := 1) rfl (by decide) hreset.localClrIoReg hreset.clearing,
    ← h.gameOver.boardFinalReg]
  rfl

theorem Result.read_botEnd (h : Result board g) (hreset : Reset g) :
    hostBoard (board.extractLsb' 32 32) (g.read golBotEnd) = board := by
  rw [Region.read_prHost (k := 2) rfl (by decide) hreset.localClrIoReg hreset.clearing,
    ← h.gameOver.boardFinalReg]
  exact hostBoard_prHost g.moderator

end

section
variable {regionOffset : U32} {wait : Nat → Nat} (hwait : ∀ k, F.held ≤ wait k)
  (core : Core) (stack : Mem) {board : BitVec 64}
include hwait

theorem keeps_resetPrLogic :
    Act.Ensures (At (Result board))
      (resetPrLogic (Region.device F regionOffset wait) core stack regionOffset)
      fun _ => At (Result board) := by
  have hsteady : Steady Region.step (Result (F := F) board) := fun _ h => h.step
  have hwrite : ∀ v : U32, v.getLsbD 1 = false →
      Act.Ensures (At (Result board))
        (writePr (Region.device F regionOffset wait) core stack
          (prControlRegister + regionOffset) v)
        fun _ => At (Result board) :=
    fun v hv => ensures_writePr hwait core stack (hsteady.settles F.held)
      (fun _ h => (h.write rfl hv).step) (hsteady.settles F.held) hsteady
  exact (hwrite 0 (by decide)).bind fun _ =>
    (hwrite 1 (by decide)).bind fun _ => hwrite 0 (by decide)

end

/-! ## Loading the game -/

/-- After a reset, with `X` of the host's registers. -/
structure Idle (X : (Nat → U32) → Prop) (g : Region F) : Prop extends Reset g where
  hostPr : X g.hostPr

/-- The game is in the host's registers, -/
def Loaded (top bottom limit : U32) (hostPr : Nat → U32) : Prop :=
  hostPr 0 = limit ∧ hostPr 1 = top ∧ hostPr 2 = bottom

/-- and its board in the persona's. -/
structure Ready (top bottom limit : U32) (g : Region F) : Prop
    extends Idle (Loaded top bottom limit) g where
  boardStart : g.moderator.boardStart = (top, bottom)

section
variable {X Y : (Nat → U32) → Prop} {top bottom limit ofs : U32} {g : Region F}

theorem Idle.step (h : Idle X g) : Idle X g.step := by
  have hreset := h.toReset.step
  refine ⟨hreset, ?_⟩
  rw [(Region.step_registers h.localClrIoReg h.clearing hreset.localClrIoReg).2.1]
  exact h.hostPr

theorem Idle.load (h : Idle X g) {k : Nat} {v : U32} (hreg : decode ofs = some (.hostPr k))
    (hY : ∀ hostPr, X hostPr → Y (Function.update hostPr k v)) : Idle Y (g.write ofs v) := by
  obtain ⟨hcontrol, hhost⟩ := Region.write_hostPr hreg h.localClrIoReg h.clearing v
  refine ⟨⟨⟨h.startPulse, h.startPulseD, h.startGameDelay, h.localClrIoReg,
    hcontrol.trans h.control⟩, (Region.write_clearing g ofs v).trans h.clearing⟩, ?_⟩
  rw [hhost]
  exact hY _ h.hostPr

theorem Idle.ready (h : Idle (Loaded top bottom limit) g) : Ready top bottom limit g.step := by
  refine ⟨h.step, ?_⟩
  obtain ⟨-, htop, hbottom⟩ := h.hostPr
  rw [Region.moderator_step, Moderator.step_boardStart (Region.runs h.localClrIoReg)]
  exact Prod.ext htop hbottom

/-- Nothing is asked for already. -/
theorem Idle.write_control (h : Idle X g) (hreg : decode ofs = some .control) :
    Idle X (g.write ofs 0) := by
  have hhost := (Region.write_control hreg h.localClrIoReg h.clearing 0).2
  refine ⟨⟨h.toCleared.write hreg, (Region.write_clearing g ofs 0).trans h.clearing⟩, ?_⟩
  rw [hhost]
  exact h.hostPr

end

/-! ## The game -/

/-- The start pulse. -/
structure First (top bottom limit : U32) (g : Region F) : Prop where
  localClrIoReg : g.moderator.localClrIoReg = false
  clearing : g.clearing = 0
  hostPr : g.hostPr 0 = limit
  startPulse : g.moderator.startPulse = true
  startGameDelay : g.moderator.startGameDelay = false
  boardStart : g.moderator.boardStart = (top, bottom)

/-- A game that has got to generation `j` at least, or is over. -/
structure Running (top bottom limit : U32) (j : Nat) (g : Region F) : Prop where
  localClrIoReg : g.moderator.localClrIoReg = false
  clearing : g.clearing = 0
  hostPr : g.hostPr 0 = limit
  startPulse : g.moderator.startPulse = false
  game : (∃ k, j ≤ k ∧ k ≤ limit.toNat ∧ Playing (top ++ bottom) limit k g.moderator) ∨
    Over (nextBoard^[limit.toNat] (top ++ bottom)) g.moderator

/-- While the start bit is set. -/
structure Started (top bottom limit : U32) (g : Region F) : Prop where
  control : g.control = 2
  startPulseD : g.moderator.startPulseD = true
  game : First top bottom limit g ∨ Running top bottom limit 0 g

/-- When it has been taken back. -/
structure AtLeast (top bottom limit : U32) (j : Nat) (g : Region F) : Prop
    extends Running top bottom limit j g where
  control : g.control = 0

section
variable {top bottom limit ofs : U32} {j : Nat} {g : Region F}

theorem First.step (h : First top bottom limit g)
    (hclear : g.step.moderator.localClrIoReg = false)
    (hpulse : g.step.moderator.startPulse = false) :
    Running top bottom limit 0 g.step := by
  obtain ⟨-, hhost, hclearing⟩ := Region.step_registers h.localClrIoReg h.clearing hclear
  have hplaying : Playing _ _ 0 g.step.moderator :=
    start_step (Region.runs h.localClrIoReg) h.startGameDelay h.startPulse hpulse
  have hlimit : g.moderatorIn.hostPr 0 = limit := h.hostPr
  rw [h.boardStart, hlimit] at hplaying
  exact ⟨hclear, hclearing, (congrFun hhost 0).trans h.hostPr, hpulse,
    Or.inl ⟨0, Nat.le_refl 0, Nat.zero_le _, hplaying⟩⟩

theorem Running.step (h : Running top bottom limit j g)
    (hclear : g.step.moderator.localClrIoReg = false)
    (hpulse : g.step.moderator.startPulse = false) :
    Running top bottom limit (j + 1) g.step := by
  obtain ⟨-, hhost, hclearing⟩ := Region.step_registers h.localClrIoReg h.clearing hclear
  have hruns := Region.runs h.localClrIoReg
  refine ⟨hclear, hclearing, (congrFun hhost 0).trans h.hostPr, hpulse, ?_⟩
  obtain ⟨k, hjk, hk, hplaying⟩ | hover := h.game
  · obtain hlt | rfl := Nat.lt_or_eq_of_le hk
    · exact Or.inl ⟨k + 1, Nat.succ_le_succ hjk, hlt, hplaying.step hruns h.hostPr hlt hpulse⟩
    · exact Or.inr (hplaying.end_step hruns)
  · exact Or.inr (hover.step rfl h.startPulse)

theorem Running.le {j' : Nat} (h : Running top bottom limit j g) (hj : j' ≤ j) :
    Running top bottom limit j' g := by
  refine ⟨h.localClrIoReg, h.clearing, h.hostPr, h.startPulse, ?_⟩
  obtain ⟨k, hjk, hk, hplaying⟩ | hover := h.game
  · exact Or.inl ⟨k, Nat.le_trans hj hjk, hk, hplaying⟩
  · exact Or.inr hover

theorem AtLeast.step (h : AtLeast top bottom limit j g) :
    AtLeast top bottom limit (j + 1) g.step := by
  have hno : g.control.getLsbD 1 = false := by
    rw [h.control]
    decide
  exact ⟨h.toRunning.step (Region.step_no_pulse h.control) (Moderator.step_no_start hno),
    Region.step_control_zero h.localClrIoReg h.control⟩

theorem AtLeast.le {j' : Nat} (h : AtLeast top bottom limit j g) (hj : j' ≤ j) :
    AtLeast top bottom limit j' g := ⟨h.toRunning.le hj, h.control⟩

theorem Running.stop (h : Running top bottom limit j g) (hreg : decode ofs = some .control) :
    AtLeast top bottom limit j (g.write ofs 0) := by
  obtain ⟨hcontrol, hhost⟩ := Region.write_control hreg h.localClrIoReg h.clearing 0
  exact ⟨⟨h.localClrIoReg, (Region.write_clearing g ofs 0).trans h.clearing,
    (congrFun hhost 0).trans h.hostPr, h.startPulse, h.game⟩, hcontrol⟩

theorem Running.wf (h : Running top bottom limit j g) : g.Wf :=
  fun hclear => absurd hclear (h.localClrIoReg ▸ Bool.false_ne_true)

theorem Running.read_busy (h : Running top bottom limit j g) :
    g.read golBusyReg = bit 32 g.moderator.count :=
  Region.read_prHost (k := 0) rfl (by decide) h.localClrIoReg h.clearing

/-- The busy flag is high only before the last generation, -/
theorem AtLeast.lt_of_busy (h : AtLeast top bottom limit j g) (hbusy : g.read golBusyReg ≠ 0) :
    j < limit.toNat := by
  rw [h.read_busy] at hbusy
  obtain ⟨k, hjk, -, hplaying⟩ | hover := h.game
  · by_contra hlast
    rw [hplaying.inGame.count_eq, decide_eq_false (show ¬ k < limit.toNat by omega)] at hbusy
    exact hbusy rfl
  · rw [Moderator.count_of_not_started hover.startGameDelay] at hbusy
    exact absurd rfl hbusy

/-- and low only when the result is there. -/
theorem AtLeast.result (h : AtLeast top bottom limit j g) (hbusy : g.read golBusyReg = 0) :
    Result (nextBoard^[limit.toNat] (top ++ bottom)) g.step := by
  have hnext : AtLeast top bottom limit (j + 1) g.step := h.step
  have hover : Over (nextBoard^[limit.toNat] (top ++ bottom)) g.step.moderator := by
    obtain ⟨k, -, hk, hplaying⟩ | hover := h.game
    · have hlast : k = limit.toNat := by
        by_contra hmore
        rw [h.read_busy, hplaying.inGame.count_eq,
          decide_eq_true (show k < limit.toNat by omega)] at hbusy
        exact absurd hbusy (by decide)
      rw [hlast] at hplaying
      exact hplaying.end_step (Region.runs h.localClrIoReg)
    · exact hover.step rfl h.startPulse
  refine ⟨hover, hnext.startPulse, fun _ => ?_⟩
  rw [hnext.control]
  decide

theorem Ready.step (h : Ready top bottom limit g) : Ready top bottom limit g.step :=
  h.toIdle.ready

theorem Ready.start (h : Ready top bottom limit g) (hreg : decode ofs = some .control) :
    Started top bottom limit (g.write ofs 2).step := by
  obtain ⟨hcontrol, hhost⟩ := Region.write_control hreg h.localClrIoReg h.clearing 2
  have hno : (g.write ofs 2).step.moderator.localClrIoReg = false := by
    rw [Region.step_localClrIoReg, hcontrol]
    exact Bool.and_false _
  obtain ⟨hcontrol', hhost', hclearing⟩ := Region.step_registers (g := g.write ofs 2)
    h.localClrIoReg ((Region.write_clearing g ofs 2).trans h.clearing) hno
  have hruns : g.moderator.Runs (g.write ofs 2).moderatorIn :=
    Region.runs (g := g.write ofs 2) h.localClrIoReg
  have hbit : (g.write ofs 2).moderatorIn.hostCntrlRegister.getLsbD 1 = true := by
    show (g.write ofs 2).control.getLsbD 1 = true
    rw [hcontrol]
    decide
  refine ⟨hcontrol'.trans hcontrol, ?_, Or.inl ⟨hno, hclearing, ?_, ?_, ?_, ?_⟩⟩
  · exact (Moderator.step_startPulseD hruns).trans hbit
  · exact (congrFun (hhost'.trans hhost) 0).trans h.hostPr.1
  · refine (Moderator.step_startPulse hruns).trans ?_
    rw [h.startPulseD, hbit]
    rfl
  · exact Moderator.step_not_started h.startPulse h.startGameDelay
  · refine (Moderator.step_boardStart hruns).trans ?_
    exact Prod.ext ((congrFun hhost 1).trans h.hostPr.2.1) ((congrFun hhost 2).trans h.hostPr.2.2)

/-- The bit stays, and the pulse is one cycle. -/
theorem Started.step (h : Started top bottom limit g) :
    Started top bottom limit g.step ∧ Running top bottom limit 0 g.step := by
  have hno : g.step.moderator.localClrIoReg = false := by
    rw [Region.step_localClrIoReg, h.control]
    exact Bool.and_false _
  have hclear : g.moderator.localClrIoReg = false := h.game.elim (·.localClrIoReg) (·.localClrIoReg)
  have hruns := Region.runs hclear
  have hpulse : g.step.moderator.startPulse = false := by
    rw [Region.moderator_step, Moderator.step_startPulse hruns, h.startPulseD]
    rfl
  have hD : g.step.moderator.startPulseD = true := by
    rw [Region.moderator_step, Moderator.step_startPulseD hruns]
    show g.control.getLsbD 1 = true
    rw [h.control]
    decide
  obtain ⟨hcontrol, -, -⟩ :=
    Region.step_registers hclear (h.game.elim (·.clearing) (·.clearing)) hno
  have hnext : Running top bottom limit 0 g.step := by
    obtain hfirst | hrunning := h.game
    · exact hfirst.step hno hpulse
    · exact (hrunning.step hno hpulse).le (Nat.zero_le _)
  exact ⟨⟨hcontrol.trans h.control, hD, Or.inr hnext⟩, hnext⟩

end

/-! ## The test -/

section
variable {regionOffset : U32} {wait : Nat → Nat} (hwait : ∀ k, F.held ≤ wait k)
  (core : Core) (stack : Mem) {top bottom limit : U32}
include hwait

theorem ensures_load {X Y : (Nat → U32) → Prop} {ofs v : U32} {k : Nat}
    (hreg : decode ofs = some (.hostPr k))
    (hY : ∀ hostPr, X hostPr → Y (Function.update hostPr k v)) :
    Act.Ensures (At (Idle X))
      (writePr (Region.device F regionOffset wait) core stack (ofs + regionOffset) v)
      fun _ => At (Idle Y) := by
  have hX : Steady Region.step (Idle (F := F) X) := fun _ h => h.step
  have hsteady : Steady Region.step (Idle (F := F) Y) := fun _ h => h.step
  exact ensures_writePr hwait core stack (hX.settles F.held)
    (fun _ h => (h.load hreg hY).step) (hsteady.settles F.held) hsteady

/-- Each poll that finds the flag high has waited for a generation. -/
theorem ensures_pollGolBusy {polls j : Nat} (hj : j ≤ limit.toNat)
    (hpolls : limit.toNat + 1 ≤ polls + j) :
    Act.Ensures (At (AtLeast top bottom limit j))
      (pollGolBusy (Region.device F regionOffset wait) core stack regionOffset polls)
      fun ended => At fun g => ended = true ∧ g.Wf ∧
        Result (nextBoard^[limit.toNat] (top ++ bottom)) g := by
  induction polls generalizing j with
  | zero => omega
  | succ polls ih =>
    have hsteady : Steady Region.step (AtLeast (F := F) top bottom limit j) :=
      fun _ h => h.step.le (Nat.le_succ j)
    refine Act.Ensures.bind (ensures_readPr hwait core stack
      (hsteady.settles F.held) (R := fun busy g => AtLeast top bottom limit (j + 1) g ∧
        (busy ≠ 0 → j < limit.toNat) ∧
        (busy = 0 → Result (nextBoard^[limit.toNat] (top ++ bottom)) g))
      fun g h => ⟨h.step, h.lt_of_busy, h.result⟩) fun busy => ?_
    refine Act.Ensures.ite (fun hbusy => ?_) fun hdone => ?_
    · by_cases hlt : j < limit.toNat
      · exact (ih (Nat.succ_le_of_lt hlt) (by omega)).mono (fun _ h => h.1) fun _ _ h => h
      · exact fun _ h => absurd (h.2.1 hbusy) hlt
    · exact Act.Ensures.pure fun _ h => ⟨rfl, h.1.wf, h.2.2 (not_not.mp hdone)⟩

variable (regionOffset top bottom) in
theorem ensures_runGolAccelerated {polls : Nat} (hpolls : limit.toNat + 1 ≤ polls) :
    Act.Ensures (At Reset)
      (runGolAccelerated (Region.device F regionOffset wait) core stack regionOffset top bottom
        limit polls)
      fun ended => At fun g => ended = true ∧ g.Wf ∧
        Result (nextBoard^[limit.toNat] (top ++ bottom)) g := by
  have hidle : Steady Region.step (Idle (F := F) (Loaded top bottom limit)) := fun _ h => h.step
  have hready : Steady Region.step (Ready (F := F) top bottom limit) := fun _ h => h.step
  have hstarted : Steady Region.step (Started (F := F) top bottom limit) := fun _ h => h.step.1
  have hrunning : Steady Region.step
      fun g : Region F => Started top bottom limit g ∧ Running top bottom limit 0 g :=
    fun _ h => h.1.step
  have hstopped : Steady Region.step (AtLeast (F := F) top bottom limit 0) :=
    fun _ h => h.step.le (Nat.zero_le _)
  refine Act.Ensures.bind (R := fun _ => At (Idle fun hostPr => hostPr 1 = top)) ?_ fun _ => ?_
  · refine (ensures_load hwait core stack (X := fun _ => True) rfl ?_).mono
      (fun _ h => ⟨h, trivial⟩) fun _ _ h => h
    exact fun hostPr _ => Function.update_self 1 top hostPr
  refine Act.Ensures.bind (R := fun _ => At (Idle fun hostPr => hostPr 1 = top ∧ hostPr 2 = bottom))
    (ensures_load hwait core stack rfl fun hostPr htop =>
      ⟨htop, Function.update_self 2 bottom hostPr⟩) fun _ => ?_
  refine Act.Ensures.bind (R := fun _ => At (Idle (Loaded top bottom limit)))
    (ensures_load hwait core stack rfl fun hostPr hboard =>
      ⟨Function.update_self 0 limit hostPr, hboard⟩) fun _ => ?_
  refine Act.Ensures.bind (ensures_writePr hwait core stack
    (hidle.settles F.held) (fun _ h => (h.write_control rfl).step) (hidle.settles F.held)
    fun _ h => h.ready) fun _ => ?_
  refine Act.Ensures.bind (ensures_writePr hwait core stack
    (hready.settles F.held) (fun _ h => h.start rfl) (hstarted.settles F.held)
    (T := fun g => Started top bottom limit g ∧ Running top bottom limit 0 g)
    fun _ h => h.step) fun _ => ?_
  refine Act.Ensures.bind (ensures_writePr hwait core stack
    (hrunning.settles F.held) (fun _ h => ((h.2.stop rfl).step).le (Nat.zero_le _))
    (hstopped.settles F.held) hstopped) fun _ => ?_
  exact ensures_pollGolBusy hwait core stack (Nat.zero_le _) hpolls

theorem ensures_doGolPersona {polls : Nat} (hpolls : limit.toNat + 1 ≤ polls) :
    Act.Ensures (At Region.Wf)
      (doGolPersona (Region.device F regionOffset wait) core stack regionOffset top bottom limit
        polls)
      fun status => At fun _ => status = some 0 := by
  have hverify : runGolVerify (hostBoard top bottom) limit =
      some (nextBoard^[limit.toNat] (top ++ bottom)) := by
    rw [runGolVerify_eq, hostBoard_eq, generations_eq]
  have haccelerated :=
    ensures_runGolAccelerated regionOffset hwait core stack top bottom hpolls
  generalize nextBoard^[limit.toNat] (top ++ bottom) = board at hverify haccelerated
  refine Act.Ensures.bind (ensures_resetPrLogic hwait core stack) fun _ => ?_
  refine Act.Ensures.bind haccelerated fun ended => ?_
  refine Act.Ensures.ite (fun hended => ?_) fun _ => ?_
  · exact fun _ h => absurd h.1 (hended ▸ Bool.false_ne_true)
  refine Act.Ensures.bind (((ensures_resetPrLogic hwait core stack).and
    (keeps_resetPrLogic hwait core stack)).mono (fun _ h => h.2) fun _ _ h => h) fun _ => ?_
  have hsteady : Steady Region.step fun g : Region F => Reset g ∧ Result board g :=
    fun _ h => ⟨h.1.step, h.2.step⟩
  refine Act.Ensures.bind (ensures_readPr hwait core stack
    (hsteady.settles F.held)
    (R := fun topEnd g => topEnd = board.extractLsb' 32 32 ∧ Reset g ∧ Result board g)
    fun g h => ⟨h.2.read_topEnd h.1, hsteady g h⟩) fun topEnd => ?_
  have hread : Steady Region.step
      fun g : Region F => topEnd = board.extractLsb' 32 32 ∧ Reset g ∧ Result board g :=
    fun g h => ⟨h.1, hsteady g h.2⟩
  refine Act.Ensures.bind (ensures_readPr hwait core stack
    (hread.settles F.held) (R := fun botEnd _ => hostBoard topEnd botEnd = board)
    fun g h => h.1 ▸ h.2.2.read_botEnd h.2.1) fun botEnd => ?_
  rw [hverify]
  exact Act.Ensures.ite (fun hdiffer _ hsame => absurd hsame.symm hdiffer) fun _ =>
    Act.Ensures.pure fun _ _ => rfl

end

/-- The test passes from any state of the region, when the host takes no less for an access than
    the registers' reset lasts and polls often enough. -/
theorem doGolPersona_passes {wait : Nat → Nat} (hwait : ∀ k, F.held ≤ wait k)
    (core : Core) (stack : Mem) (regionOffset topHalf bottomHalf numberOfRuns : U32) {polls : Nat}
    (hpolls : numberOfRuns.toNat + 1 ≤ polls) (priv : Priv (State (Region F)))
    (hwf : priv.regs.dev.machine.Wf) :
    (doGolPersona (Region.device F regionOffset wait) core stack regionOffset topHalf bottomHalf
      numberOfRuns polls priv).1 = some 0 :=
  ensures_doGolPersona hwait core stack hpolls priv hwf

/-! ## From a long game -/

/-- A long game is on. -/
def busyRegion (held : Nat) : Region (pioCores held) where
  moderator := { Moderator.reset with counterLimit := 0xffffffff, startGameDelay := true }
  file := ⟨0, fun _ => 0, 0⟩

theorem doGolPersona_passes_busy :
    (doGolPersona (Region.device (pioCores 5) 0x10000 fun k => 5 + k % 3) .a10 default 0x10000 0
      0x1c0000 3 4 (fpgaPcieProbe ⟨busyRegion 5, 0⟩ none)).1 = some 0 :=
  doGolPersona_passes (fun k => Nat.le_add_right 5 (k % 3)) .a10 default 0x10000 0 0x1c0000 3
    (by decide) (fpgaPcieProbe ⟨busyRegion 5, 0⟩ none)
    fun hclear => absurd hclear Bool.false_ne_true

/-- A faster host loses its board, written while the registers are still reset. -/
example : (doGolPersona (Region.device (pioCores 7) 0x10000 fun _ => 0) .a10 default 0x10000 0
    0x1c0000 3 4 (fpgaPcieProbe ⟨busyRegion 7, 0⟩ none)).1 = some 1 := by decide +kernel

end FpgaPartialReconfig.Gol
