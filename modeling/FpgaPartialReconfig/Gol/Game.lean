/-
  A game of the persona and the host's reference.

  What a running game does with its counter does not depend on start pulses (`InGame`).
  In a `GameRun` the host holds board and limit in its registers, and the one start pulse
  comes in cycle `s`, when no game is on. The persona then plays (`Playing`) a generation a
  cycle, and when the limit is reached the game is over (`Over`): the board stays as it is,
  through clear pulses and whatever is in the registers, and a cycle later it is in the
  result registers. `game_equals_reference`: the busy flag is high as many cycles as there are
  generations, and the result is what the host's reference computes. What ends this is the
  next start pulse, or a reset, in the very cycle in which it comes (`reset_clears_result`).
-/
import FpgaPartialReconfig.Gol.Moderator
import FpgaPartialReconfig.Gol.Verify

namespace FpgaPartialReconfig.Gol

open Automaton Clock

/-! ## Persona and host play the same game -/

/-- The two halves as the host puts them together. -/
def hostBoard (topHalf bottomHalf : BitVec 32) : BitVec 64 :=
  (topHalf.setWidth 64 <<< 32) ||| bottomHalf.setWidth 64

theorem hostBoard_eq (topHalf bottomHalf : BitVec 32) :
    hostBoard topHalf bottomHalf = topHalf ++ bottomHalf := by
  apply BitVec.eq_of_getLsbD_eq
  intro k hk
  unfold hostBoard
  rw [BitVec.getLsbD_append, BitVec.getLsbD_or, BitVec.getLsbD_shiftLeft]
  by_cases hlow : k < 32
  · simp [hk, hlow]
  · have hbottom : bottomHalf.getLsbD k = false :=
      BitVec.getLsbD_of_ge bottomHalf k (by omega)
    have hback : k - 32 < 64 := by omega
    simp [hk, hlow, hbottom, hback]

/-- A board goes through the result registers as it is. -/
theorem hostBoard_prHost (m : Moderator) :
    hostBoard (m.prHost 1) (m.prHost 2) = m.golBlockWrapper.boardFinalReg := by
  rw [hostBoard_eq]
  apply BitVec.eq_of_getLsbD_eq
  intro k hk
  rw [BitVec.getLsbD_append]
  unfold Moderator.prHost
  by_cases hlow : k < 32
  · simp [hlow]
  · have hback : 32 + (k - 32) = k := by omega
    have hhigh : k - 32 < 32 := by omega
    simp [hlow, hback, hhigh]

/-- The generations of the persona's board are those of the reference. -/
theorem generations_eq (n : Nat) (board : BitVec 64) : nextBoard^[n] board = hostNext^[n] board :=
  nextBoard_computes.agree hostNext_computes offsets_perm view_injective n board

/-! ## A game in its `k`-th generation -/

structure InGame (limit : BitVec 32) (k : Nat) (m : Moderator) : Prop where
  counterLimit : m.counterLimit = limit
  counter : m.counter.toNat = k
  startGameDelay : m.startGameDelay = true

section
variable {m : Moderator} {i : ModeratorIn} {limit : BitVec 32} {k : Nat}

theorem InGame.count_eq (h : InGame limit k m) : m.count = decide (k < limit.toNat) := by
  unfold Moderator.count
  rw [h.startGameDelay, h.counterLimit, Bool.and_true]
  apply decide_eq_decide.mpr
  rw [BitVec.lt_def, h.counter]

/-- A game goes on, whether there is a start pulse or not. -/
theorem InGame.step (h : InGame limit k m) (hi : m.Runs i) (hlimit : i.hostPr 0 = limit)
    (hk : k < limit.toNat) : InGame limit (k + 1) (m.step i) := by
  have hcount : m.count = true := by
    rw [h.count_eq]
    exact decide_eq_true hk
  have hrange := limit.isLt
  refine ⟨?_, ?_, ?_⟩
  · rw [Moderator.step_counterLimit hi, hlimit]
  · rw [Moderator.step_counter hi, if_pos hcount, BitVec.toNat_add, h.counter]
    exact Nat.mod_eq_of_lt (show k + 1 < 2 ^ 32 by omega)
  · rw [Moderator.step_startGameDelay hi, hcount, h.startGameDelay]
    simp

/-- Where no game is on a start pulse begins one, -/
theorem inGame_of_start (hi : m.Runs i) (hlimit : i.hostPr 0 = limit)
    (hidle : m.startGameDelay = false) (hstart : m.startPulse = true) :
    InGame limit 0 (m.step i) := by
  have hcount := Moderator.count_of_not_started hidle
  refine ⟨?_, ?_, ?_⟩
  · rw [Moderator.step_counterLimit hi, hlimit]
  · rw [Moderator.step_counter hi, hcount, hstart]
    rfl
  · rw [Moderator.step_startGameDelay hi, hidle, hstart]
    simp

/-- and in the cycle in which a game ends none goes on, start pulse or not. -/
theorem not_started_of_end (hi : m.Runs i) (hcount : m.count = false)
    (hgame : m.startGameDelay = true) : (m.step i).startGameDelay = false := by
  rw [Moderator.step_startGameDelay hi, if_pos ⟨hcount, hgame⟩]

end

/-! ## The run -/

structure GameRun (m : Moderator) (inp : Nat → ModeratorIn) (s : Nat)
    (top bottom limit : BitVec 32) : Prop where
  settled : 2 ≤ s
  holds : ∀ t, s ≤ t + 2 → t ≤ s + limit.toNat + 1 →
    (inp t).hostPr 0 = limit ∧ (inp t).hostPr 1 = top ∧ (inp t).hostPr 2 = bottom
  runs : ∀ t, s ≤ t + 2 → t ≤ s + limit.toNat + 1 → (m.at inp t).Runs (inp t)
  start : (m.at inp s).startPulse = true
  idle : (m.at inp s).startGameDelay = false
  only : ∀ t, s ≤ t + 2 → t ≤ s + limit.toNat + 1 → t ≠ s → (m.at inp t).startPulse = false

/-- The `k`-th generation is on the board. -/
structure Playing (board : BitVec 64) (limit : BitVec 32) (k : Nat) (m : Moderator) : Prop where
  counterLimit : m.counterLimit = limit
  counter : m.counter.toNat = k
  startPulse : m.startPulse = false
  startGameDelay : m.startGameDelay = true
  golBoard : m.golBlockWrapper.golBoard = nextBoard^[k] board

/-- No game is on, and its result is on the board and in the result registers. -/
structure Over (board : BitVec 64) (m : Moderator) : Prop where
  startGameDelay : m.startGameDelay = false
  golBoard : m.golBlockWrapper.golBoard = board
  boardFinalReg : m.golBlockWrapper.boardFinalReg = board

section
variable {m : Moderator} {i : ModeratorIn} {board : BitVec 64} {limit : BitVec 32} {k : Nat}

theorem Playing.inGame (h : Playing board limit k m) : InGame limit k m :=
  ⟨h.counterLimit, h.counter, h.startGameDelay⟩

theorem InGame.playing (h : InGame limit k m) (hpulse : m.startPulse = false)
    (hboard : m.golBlockWrapper.golBoard = nextBoard^[k] board) : Playing board limit k m :=
  ⟨h.counterLimit, h.counter, hpulse, h.startGameDelay, hboard⟩

theorem start_step (hi : m.Runs i) (hidle : m.startGameDelay = false)
    (hstart : m.startPulse = true) (hnext : (m.step i).startPulse = false) :
    Playing (m.boardStart.1 ++ m.boardStart.2) (i.hostPr 0) 0 (m.step i) := by
  have hgame : InGame (i.hostPr 0) 0 (m.step i) := inGame_of_start hi rfl hidle hstart
  apply hgame.playing hnext
  rw [Moderator.step_golBoard hi.1, hstart]
  rfl

theorem Playing.step (h : Playing board limit k m) (hi : m.Runs i) (hlimit : i.hostPr 0 = limit)
    (hk : k < limit.toNat) (hnext : (m.step i).startPulse = false) :
    Playing board limit (k + 1) (m.step i) := by
  have hcount : m.count = true := by
    rw [h.inGame.count_eq]
    exact decide_eq_true hk
  apply (h.inGame.step hi hlimit hk).playing hnext
  rw [Moderator.step_golBoard hi.1, h.startPulse, hcount, h.golBoard,
    Function.iterate_succ_apply']
  rfl

/-- With the last generation on the board the game ends. -/
theorem Playing.end_step (h : Playing board limit limit.toNat m) (hi : m.Runs i) :
    Over (nextBoard^[limit.toNat] board) (m.step i) := by
  have hcount : m.count = false := by
    rw [h.inGame.count_eq]
    exact decide_eq_false (Nat.lt_irrefl _)
  refine ⟨not_started_of_end hi hcount h.startGameDelay, ?_, ?_⟩
  · rw [Moderator.step_golBoard hi.1, h.startPulse, hcount, h.golBoard]
    rfl
  · rw [Moderator.step_boardFinalReg hi.1 h.startPulse, h.golBoard]

theorem Over.step (h : Over board m) (hrst : i.prLogicRst = false)
    (hpulse : m.startPulse = false) : Over board (m.step i) := by
  have hcount := Moderator.count_of_not_started h.startGameDelay
  refine ⟨Moderator.step_not_started hpulse h.startGameDelay, ?_, ?_⟩
  · rw [Moderator.step_golBoard hrst, hpulse, hcount, h.golBoard]
    rfl
  · rw [Moderator.step_boardFinalReg hrst hpulse, h.golBoard]

end

/-! ## From the start pulse to the result -/

section
variable {m : Moderator} {inp : Nat → ModeratorIn} {s : Nat} {top bottom limit : BitVec 32}

theorem GameRun.boardStart (h : GameRun m inp s top bottom limit) :
    (m.at inp s).boardStart = (top, bottom) := by
  obtain ⟨t, rfl⟩ : ∃ t, s = t + 1 := ⟨s - 1, by have := h.settled; omega⟩
  obtain ⟨-, htop, hbottom⟩ := h.holds t (by omega) (by omega)
  rw [Moderator.at_succ_of_not_rst m (h.runs (t + 1) (by omega) (by omega)).1,
    Moderator.step_boardStart (h.runs t (by omega) (by omega)), htop, hbottom]

/-- In the span of the run a cycle is what the step before makes it. -/
theorem GameRun.at_succ (h : GameRun m inp s top bottom limit) {t : Nat} (hs : s ≤ t + 2)
    (ht : t + 1 ≤ s + limit.toNat + 1) : m.at inp (t + 1) = (m.at inp t).step (inp t) :=
  Moderator.at_succ_of_not_rst m (h.runs (t + 1) (by omega) ht).1

theorem GameRun.playing (h : GameRun m inp s top bottom limit) {k : Nat}
    (hk : k ≤ limit.toNat) : Playing (top ++ bottom) limit k (m.at inp (s + 1 + k)) := by
  induction k with
  | zero =>
    obtain ⟨hlimit, -, -⟩ := h.holds s (by omega) (by omega)
    have hnext := h.at_succ (t := s) (by omega) (by omega)
    have hquiet := h.only (s + 1) (by omega) (by omega) (by omega)
    rw [hnext] at hquiet
    have hfirst := start_step (h.runs s (by omega) (by omega)) h.idle h.start hquiet
    rw [h.boardStart, hlimit, ← hnext] at hfirst
    exact hfirst
  | succ k ih =>
    have ht : s + 1 + k ≤ s + limit.toNat + 1 := by omega
    obtain ⟨hlimit, -, -⟩ := h.holds (s + 1 + k) (by omega) ht
    have hnext := h.at_succ (t := s + 1 + k) (by omega) (by omega)
    have hquiet := h.only (s + 1 + k + 1) (by omega) (by omega) (by omega)
    rw [hnext] at hquiet
    have hstep := (ih (by omega)).step (h.runs (s + 1 + k) (by omega) ht) hlimit (by omega) hquiet
    rw [← hnext] at hstep
    exact hstep

/-- With the edge after the span the game is over. -/
theorem GameRun.end_step (h : GameRun m inp s top bottom limit) :
    Over (nextBoard^[limit.toNat] (top ++ bottom))
      ((m.at inp (s + limit.toNat + 1)).step (inp (s + limit.toNat + 1))) := by
  have hlast := h.playing (Nat.le_refl limit.toNat)
  have hcycle : s + 1 + limit.toNat = s + limit.toNat + 1 := by omega
  rw [hcycle] at hlast
  exact hlast.end_step (h.runs (s + limit.toNat + 1) (by omega) (Nat.le_refl _))

/-- It is until the next start pulse or reset, -/
theorem GameRun.over (h : GameRun m inp s top bottom limit) {t : Nat}
    (ht : s + limit.toNat + 2 ≤ t)
    (hpulse : ∀ u, s < u → u < t → (m.at inp u).startPulse = false)
    (hreset : ∀ u, s + limit.toNat + 1 < u → u ≤ t → (inp u).prLogicRst = false) :
    Over (nextBoard^[limit.toNat] (top ++ bottom)) (m.at inp t) := by
  induction t, ht using Nat.le_induction with
  | base =>
    rw [Moderator.at_succ_of_not_rst m (hreset (s + limit.toNat + 2) (by omega) (Nat.le_refl _))]
    exact h.end_step
  | succ t ht ih =>
    have hover := ih (fun u hu hut => hpulse u hu (by omega))
      (fun u hu hut => hreset u hu (by omega))
    rw [Moderator.at_succ_of_not_rst m (hreset (t + 1) (by omega) (Nat.le_refl _))]
    exact hover.step (hreset t (by omega) (by omega)) (hpulse t (by omega) (by omega))

/-- and also in and after a reset no game is on. -/
theorem GameRun.not_started (h : GameRun m inp s top bottom limit) {t : Nat}
    (ht : s + limit.toNat + 2 ≤ t)
    (hpulse : ∀ u, s < u → u < t → (m.at inp u).startPulse = false) :
    (m.at inp t).startGameDelay = false := by
  induction t, ht using Nat.le_induction with
  | base => exact Moderator.at_succ_low Moderator.startGameDelay rfl h.end_step.startGameDelay
  | succ t ht ih =>
    have hbefore := ih fun u hu hut => hpulse u hu (by omega)
    exact Moderator.at_succ_low Moderator.startGameDelay rfl
      (Moderator.step_not_started (hpulse t (by omega) (by omega)) hbefore)

/-- The busy flag from the start pulse to the next one. -/
theorem GameRun.count_eq (h : GameRun m inp s top bottom limit) {t : Nat} (hst : s ≤ t)
    (hpulse : ∀ u, s < u → u < t → (m.at inp u).startPulse = false) :
    (m.at inp t).count = decide (s < t ∧ t ≤ s + limit.toNat) := by
  obtain rfl | ⟨hlt, hle⟩ | hlate : t = s ∨ (s < t ∧ t ≤ s + limit.toNat + 1) ∨
      s + limit.toNat + 2 ≤ t := by omega
  · rw [Moderator.count_of_not_started h.idle]
    simp
  · obtain ⟨k, rfl⟩ : ∃ k, t = s + 1 + k := ⟨t - s - 1, by omega⟩
    rw [(h.playing (by omega)).inGame.count_eq]
    apply decide_eq_decide.mpr
    omega
  · have hafter : ¬ (s < t ∧ t ≤ s + limit.toNat) := by omega
    rw [Moderator.count_of_not_started (h.not_started hlate hpulse), decide_eq_false hafter]

end

/-- From the start pulse to the next one: the busy flag is high in as many cycles as there are
    generations, and then the result registers hold the reference's board, if no reset takes
    it away. -/
theorem game_equals_reference (m : Moderator) (inp : Nat → ModeratorIn) (s : Nat)
    (top bottom limit : BitVec 32) (h : GameRun m inp s top bottom limit) (t : Nat)
    (hst : s ≤ t) (hpulse : ∀ u, s < u → u < t → (m.at inp u).startPulse = false) :
    (m.at inp t).prHost 0 = bit 32 (decide (s < t ∧ t ≤ s + limit.toNat)) ∧
      (s + limit.toNat + 2 ≤ t →
        (∀ u, s + limit.toNat + 1 < u → u ≤ t → (inp u).prLogicRst = false) →
        runGolVerify (hostBoard top bottom) limit =
          some (hostBoard ((m.at inp t).prHost 1) ((m.at inp t).prHost 2))) := by
  constructor
  · show bit 32 (m.at inp t).count = _
    rw [h.count_eq hst hpulse]
  · intro hlate hreset
    rw [runGolVerify_eq, hostBoard_eq, hostBoard_prHost,
      (h.over hlate hpulse hreset).boardFinalReg, generations_eq]

/-! ## A game from reset -/

/-- The host holds board and limit and sets the start bit in cycle 1. -/
def hostGame (top bottom limit : BitVec 32) (reset : Nat → Bool) (t : Nat) : ModeratorIn where
  prLogicRst := reset t
  hostCntrlRegister := if t = 1 then 2#32 else 0#32
  hostPr k := if k = 0 then limit else if k = 1 then top else if k = 2 then bottom else 0

section
variable {top bottom limit : BitVec 32} {reset : Nat → Bool}

theorem no_clear_hostGame (t : Nat) :
    (Moderator.reset.at (hostGame top bottom limit reset) t).localClrIoReg = false := by
  cases t with
  | zero => rw [Moderator.reset_at_zero]; rfl
  | succ t =>
    apply Moderator.at_succ_low Moderator.localClrIoReg rfl
    apply Moderator.step_no_clear
    show (if t = 1 then 2#32 else 0#32).getLsbD 0 = false
    split <;> decide

theorem startBit_hostGame {t : Nat} (ht : t ≠ 1) :
    (hostGame top bottom limit reset t).hostCntrlRegister.getLsbD 1 = false := by
  show (if t = 1 then 2#32 else 0#32).getLsbD 1 = false
  rw [if_neg ht]
  decide

theorem no_start_hostGame {t : Nat} (ht : t ≠ 2) :
    (Moderator.reset.at (hostGame top bottom limit reset) t).startPulse = false := by
  cases t with
  | zero => rw [Moderator.reset_at_zero]; rfl
  | succ t =>
    exact Moderator.at_succ_low Moderator.startPulse rfl
      (Moderator.step_no_start (startBit_hostGame (by omega)))

theorem gameRun_hostGame (hreset : ∀ t ≤ limit.toNat + 3, reset t = false) :
    GameRun Moderator.reset (hostGame top bottom limit reset) 2 top bottom limit := by
  have hruns : ∀ t ≤ limit.toNat + 3,
      (Moderator.reset.at (hostGame top bottom limit reset) t).Runs
        (hostGame top bottom limit reset t) :=
    fun t ht => ⟨hreset t ht, no_clear_hostGame t⟩
  have hbefore : (hostGame top bottom limit reset 0).hostCntrlRegister.getLsbD 1 = false :=
    startBit_hostGame (by decide)
  have hbit : (hostGame top bottom limit reset 1).hostCntrlRegister.getLsbD 1 = true := by
    show (if 1 = 1 then 2#32 else 0#32).getLsbD 1 = true
    decide
  have hpulseD : (Moderator.reset.at (hostGame top bottom limit reset) 1).startPulseD = false :=
    Moderator.at_succ_low Moderator.startPulseD rfl
      ((Moderator.step_startPulseD (hruns 0 (by omega))).trans hbefore)
  have hstart : (Moderator.reset.at (hostGame top bottom limit reset) 2).startPulse = true := by
    have hstep := Moderator.step_startPulse (hruns 1 (by omega))
    rw [hpulseD, hbit, ← Moderator.at_succ_of_not_rst _ (hreset 2 (by omega))] at hstep
    exact hstep
  have hidle : ∀ t ≤ 2,
      (Moderator.reset.at (hostGame top bottom limit reset) t).startGameDelay = false := by
    intro t ht
    induction t with
    | zero => rw [Moderator.reset_at_zero]; rfl
    | succ t ih =>
      exact Moderator.at_succ_low Moderator.startGameDelay rfl
        (Moderator.step_not_started (no_start_hostGame (by omega)) (ih (by omega)))
  exact ⟨Nat.le_refl 2, fun _ _ _ => ⟨rfl, rfl, rfl⟩, fun t _ ht => hruns t (by omega), hstart,
    hidle 2 (Nat.le_refl 2), fun t _ _ ht => no_start_hostGame ht⟩

end

/-- A row of three turns into a column of three. -/
theorem game_equals_reference_row :
    let inp := hostGame 0 0x1c0000#32 1 fun _ => false
    runGolVerify (hostBoard 0 0x1c0000#32) 1 =
      some (hostBoard ((Moderator.reset.at inp 5).prHost 1)
        ((Moderator.reset.at inp 5).prHost 2)) := by
  intro inp
  exact (game_equals_reference Moderator.reset inp 2 0 0x1c0000#32 1
    (gameRun_hostGame fun _ _ => rfl) 5 (by decide)
    (fun u hu _ => no_start_hostGame (by omega))).2 (by decide) (fun _ _ _ => rfl)

/-- A reset after the game takes the result away, without a start pulse and at once. -/
theorem reset_clears_result :
    let inp := hostGame 0 1 0 fun t => t == 4
    GameRun Moderator.reset inp 2 0 1 0 ∧
      (∀ u, 2 < u → u < 4 → (Moderator.reset.at inp u).startPulse = false) ∧
      runGolVerify (hostBoard 0 1) 0 ≠
        some (hostBoard ((Moderator.reset.at inp 4).prHost 1)
          ((Moderator.reset.at inp 4).prHost 2)) := by
  intro inp
  have hreset : ∀ t ≤ (0#32).toNat + 3, (t == 4) = false := by decide
  refine ⟨gameRun_hostGame hreset, fun u hu _ => no_start_hostGame (by omega), ?_⟩
  decide +kernel

end FpgaPartialReconfig.Gol
