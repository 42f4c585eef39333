/-
  A start pulse at any moment.

  The pulse always loads the board. But where the counter counts it is not cleared, and in the
  cycle in which a game ends the delayed start is lost. So a game goes on from the generation
  it has reached (`InGame.step` holds with a start pulse as without), and one that is just
  over stays over. `full_game_iff`: the board goes through exactly the limit's number of
  generations if no game was on, or the limit is 0.
-/
import FpgaPartialReconfig.Gol.Game

namespace FpgaPartialReconfig.Gol

open Clock

/-! ## What a full game is -/

/-- Board and limit are held from the cycle before the start pulse. Until the busy flag of a
    full game falls there is no clear pulse and no other start pulse, and no reset in the cycle
    in which it falls either, as this takes the board away at once. -/
structure StartRun (m : Moderator) (inp : Nat → ModeratorIn) (s : Nat)
    (top bottom limit : BitVec 32) : Prop where
  settled : 1 ≤ s
  holds : ∀ t, s ≤ t + 1 → t ≤ s + limit.toNat →
    (inp t).hostPr 0 = limit ∧ (inp t).hostPr 1 = top ∧ (inp t).hostPr 2 = bottom
  unreset : ∀ t, s ≤ t → t ≤ s + limit.toNat + 1 → (inp t).prLogicRst = false
  unclear : ∀ t, s ≤ t → t ≤ s + limit.toNat → (m.at inp t).localClrIoReg = false
  start : (m.at inp s).startPulse = true
  only : ∀ t, s < t → t ≤ s + limit.toNat → (m.at inp t).startPulse = false

/-- A cycle in which the board goes on by a generation. -/
def Moderator.advances (m : Moderator) (i : ModeratorIn) : Bool :=
  !i.prLogicRst && !m.startPulse && m.count

/-- The generations in `d` cycles from `t` on. -/
def generations (m : Moderator) (inp : Nat → ModeratorIn) (t : Nat) : Nat → Nat
  | 0 => 0
  | d + 1 => generations m inp t d + ((m.at inp (t + d)).advances (inp (t + d))).toNat

theorem generations_succ (m : Moderator) (inp : Nat → ModeratorIn) (t d : Nat) :
    generations m inp t (d + 1) =
      generations m inp t d + ((m.at inp (t + d)).advances (inp (t + d))).toNat := rfl

/-- The busy flag is high for `d` cycles from `t` on, and then low. -/
def BusyFor (m : Moderator) (inp : Nat → ModeratorIn) (t d : Nat) : Prop :=
  (∀ j < d, (m.at inp (t + j)).count = true) ∧ (m.at inp (t + d)).count = false

/-- After the start pulse of cycle `s` the board is loaded, and it goes on by exactly as many
    generations as the limit says before the busy flag is low; then it is the last of them. -/
def FullGame (m : Moderator) (inp : Nat → ModeratorIn) (s : Nat) (top bottom limit : BitVec 32) :
    Prop :=
  (m.at inp (s + 1)).golBlockWrapper.golBoard = top ++ bottom ∧
    ∃ d, BusyFor m inp (s + 1) d ∧ generations m inp (s + 1) d = limit.toNat ∧
      (m.at inp (s + 1 + d)).golBlockWrapper.golBoard = nextBoard^[limit.toNat] (top ++ bottom)

section
variable {m : Moderator} {inp : Nat → ModeratorIn} {t d d' : Nat}

theorem BusyFor.le (h : BusyFor m inp t d) (h' : BusyFor m inp t d') : d ≤ d' := by
  by_contra hlt
  have hhigh := h.1 d' (by omega)
  rw [h'.2] at hhigh
  exact Bool.false_ne_true hhigh

theorem BusyFor.unique (h : BusyFor m inp t d) (h' : BusyFor m inp t d') : d = d' :=
  Nat.le_antisymm (h.le h') (h'.le h)

/-- Without resets and start pulses these are the generations the board goes through. -/
theorem golBoard_generations (hreset : ∀ j ≤ d, (inp (t + j)).prLogicRst = false)
    (hpulse : ∀ j < d, (m.at inp (t + j)).startPulse = false) :
    (m.at inp (t + d)).golBlockWrapper.golBoard =
      nextBoard^[generations m inp t d] (m.at inp t).golBlockWrapper.golBoard := by
  induction d with
  | zero => rfl
  | succ d ih =>
    have hrst := hreset d (by omega)
    have hquiet := hpulse d (by omega)
    have hbefore := ih (fun j hj => hreset j (by omega)) (fun j hj => hpulse j (by omega))
    have hnext : m.at inp (t + d + 1) = (m.at inp (t + d)).step (inp (t + d)) :=
      Moderator.at_succ_of_not_rst m (hreset (d + 1) (Nat.le_refl _))
    rw [← Nat.add_assoc, hnext, Moderator.step_golBoard hrst, hquiet, hbefore, generations_succ]
    unfold Moderator.advances
    rw [hrst, hquiet]
    cases (m.at inp (t + d)).count with
    | false => rfl
    | true => exact (Function.iterate_succ_apply' nextBoard _ _).symm

/-- In a busy flag's cycles the board goes on every time. -/
theorem generations_eq_of_busy (hreset : ∀ j < d, (inp (t + j)).prLogicRst = false)
    (hpulse : ∀ j < d, (m.at inp (t + j)).startPulse = false)
    (hbusy : ∀ j < d, (m.at inp (t + j)).count = true) : generations m inp t d = d := by
  induction d with
  | zero => rfl
  | succ d ih =>
    have hbefore := ih (fun j hj => hreset j (by omega)) (fun j hj => hpulse j (by omega))
      (fun j hj => hbusy j (by omega))
    rw [generations_succ, hbefore]
    unfold Moderator.advances
    rw [hreset d (by omega), hpulse d (by omega), hbusy d (by omega)]
    rfl

end

/-! ## From a start pulse on -/

section
variable {m : Moderator} {inp : Nat → ModeratorIn} {s k d : Nat} {top bottom limit : BitVec 32}

/-- The cycle before a start pulse is one without reset and clear pulse. -/
theorem runs_of_start {i : ModeratorIn} (hstart : (m.step i).startPulse = true) : m.Runs i := by
  have hpulse : (if i.prLogicRst = true then false
      else if m.localClrIoReg = true then false
      else !m.startPulseD && i.hostCntrlRegister.getLsbD 1) = true := hstart
  by_cases hrst : i.prLogicRst = true
  · rw [if_pos hrst] at hpulse
    exact absurd hpulse Bool.false_ne_true
  · by_cases hclr : m.localClrIoReg = true
    · rw [if_neg hrst, if_pos hclr] at hpulse
      exact absurd hpulse Bool.false_ne_true
    · exact ⟨Bool.eq_false_of_not_eq_true hrst, Bool.eq_false_of_not_eq_true hclr⟩

theorem before_start {t : Nat} (hstart : (m.at inp (t + 1)).startPulse = true) :
    m.at inp (t + 1) = (m.at inp t).step (inp t) ∧ (m.at inp t).Runs (inp t) := by
  have hnext : m.at inp (t + 1) = (m.at inp t).step (inp t) := by
    apply Moderator.at_succ_of_not_rst m
    apply Bool.eq_false_of_not_eq_true
    intro hrst
    rw [Moderator.at_of_rst hrst] at hstart
    exact Bool.false_ne_true hstart
  exact ⟨hnext, runs_of_start (hnext ▸ hstart)⟩

theorem StartRun.runs (h : StartRun m inp s top bottom limit) {t : Nat} (hs : s ≤ t)
    (ht : t ≤ s + limit.toNat) : (m.at inp t).Runs (inp t) :=
  ⟨h.unreset t hs (by omega), h.unclear t hs ht⟩

theorem StartRun.at_succ (h : StartRun m inp s top bottom limit) {t : Nat} (hs : s ≤ t)
    (ht : t ≤ s + limit.toNat) : m.at inp (t + 1) = (m.at inp t).step (inp t) :=
  Moderator.at_succ_of_not_rst m (h.unreset (t + 1) (by omega) (by omega))

theorem StartRun.registers (h : StartRun m inp s top bottom limit) :
    (m.at inp s).boardStart = (top, bottom) ∧ (m.at inp s).counterLimit = limit := by
  obtain ⟨t, rfl⟩ : ∃ t, s = t + 1 := ⟨s - 1, by have := h.settled; omega⟩
  obtain ⟨hlimit, htop, hbottom⟩ := h.holds t (by omega) (by omega)
  obtain ⟨hnext, hruns⟩ := before_start h.start
  constructor
  · rw [hnext, Moderator.step_boardStart hruns, htop, hbottom]
  · rw [hnext, Moderator.step_counterLimit hruns, hlimit]

/-- The board is loaded at any moment. -/
theorem StartRun.loads (h : StartRun m inp s top bottom limit) :
    (m.at inp (s + 1)).golBlockWrapper.golBoard = top ++ bottom := by
  have hruns := h.runs (Nat.le_refl s) (by omega)
  rw [h.at_succ (Nat.le_refl s) (by omega), Moderator.step_golBoard hruns.1, if_pos h.start,
    h.registers.1]

theorem StartRun.inGame (h : StartRun m inp s top bottom limit)
    (hfirst : InGame limit k (m.at inp (s + 1))) (hd : k + d ≤ limit.toNat) :
    InGame limit (k + d) (m.at inp (s + 1 + d)) := by
  induction d with
  | zero => exact hfirst
  | succ d ih =>
    obtain ⟨hlimit, -, -⟩ := h.holds (s + 1 + d) (by omega) (by omega)
    rw [← Nat.add_assoc (s + 1), h.at_succ (by omega) (by omega)]
    exact (ih (by omega)).step (h.runs (by omega) (by omega)) hlimit (by omega)

/-- In the `k`-th generation after the pulse, the busy flag is high for the rest of them. -/
theorem StartRun.busyFor (h : StartRun m inp s top bottom limit)
    (hfirst : InGame limit k (m.at inp (s + 1))) (hk : k ≤ limit.toNat) :
    BusyFor m inp (s + 1) (limit.toNat - k) := by
  constructor
  · intro j hj
    rw [(h.inGame hfirst (by omega)).count_eq]
    exact decide_eq_true (by omega)
  · rw [(h.inGame hfirst (by omega)).count_eq]
    exact decide_eq_false (by omega)

/-- A busy flag of at most as many cycles as the limit says. -/
theorem StartRun.fullGame_iff_busyFor (h : StartRun m inp s top bottom limit)
    (hbusy : BusyFor m inp (s + 1) d) (hd : d ≤ limit.toNat) :
    FullGame m inp s top bottom limit ↔ d = limit.toNat := by
  have hreset : ∀ j ≤ d, (inp (s + 1 + j)).prLogicRst = false :=
    fun j hj => h.unreset (s + 1 + j) (by omega) (by omega)
  have hpulse : ∀ j < d, (m.at inp (s + 1 + j)).startPulse = false :=
    fun j hj => h.only (s + 1 + j) (by omega) (by omega)
  have hall : generations m inp (s + 1) d = d := generations_eq_of_busy
    (fun j hj => hreset j (Nat.le_of_lt hj)) hpulse hbusy.1
  constructor
  · intro hfull
    obtain ⟨-, d', hbusy', hall', -⟩ := hfull
    rw [← hbusy.unique hbusy', hall] at hall'
    exact hall'
  · intro heq
    have hboard := golBoard_generations hreset hpulse
    rw [hall, h.loads, heq] at hboard
    exact ⟨h.loads, d, hbusy, hall.trans heq, heq ▸ hboard⟩

theorem StartRun.full_of_idle (h : StartRun m inp s top bottom limit)
    (hidle : (m.at inp s).startGameDelay = false) : FullGame m inp s top bottom limit := by
  obtain ⟨hlimit, -, -⟩ := h.holds s (by omega) (by omega)
  have hfirst : InGame limit 0 (m.at inp (s + 1)) := by
    rw [h.at_succ (Nat.le_refl s) (by omega)]
    exact inGame_of_start (h.runs (Nat.le_refl s) (by omega)) hlimit hidle h.start
  exact (h.fullGame_iff_busyFor (h.busyFor hfirst (by omega)) (by omega)).mpr (by omega)

/-- A pulse in a game: the generations played before are missing. -/
theorem StartRun.full_iff_of_game (h : StartRun m inp s top bottom limit)
    (hgame : (m.at inp s).startGameDelay = true) :
    FullGame m inp s top bottom limit ↔ limit = 0 := by
  obtain ⟨hlimit, -, -⟩ := h.holds s (by omega) (by omega)
  have hruns := h.runs (Nat.le_refl s) (by omega)
  have hnext := h.at_succ (Nat.le_refl s) (by omega)
  have hzero : limit = 0 ↔ limit.toNat = 0 := by
    rw [← BitVec.toNat_inj]
    rfl
  have hat : InGame limit (m.at inp s).counter.toNat (m.at inp s) := ⟨h.registers.2, rfl, hgame⟩
  rw [hzero]
  by_cases hon : (m.at inp s).counter.toNat < limit.toNat
  · -- the counter counts on
    have hfirst := hat.step hruns hlimit hon
    rw [← hnext] at hfirst
    rw [h.fullGame_iff_busyFor (h.busyFor hfirst (by omega)) (by omega)]
    omega
  · -- the game ends, and the delayed start is lost
    have hcount : (m.at inp s).count = false := hat.count_eq.trans (decide_eq_false hon)
    have hover : (m.at inp (s + 1)).startGameDelay = false :=
      hnext ▸ not_started_of_end hruns hcount hgame
    have hbusy : BusyFor m inp (s + 1) 0 :=
      ⟨fun j hj => absurd hj (Nat.not_lt_zero j), Moderator.count_of_not_started hover⟩
    rw [h.fullGame_iff_busyFor hbusy (by omega)]
    omega

end

/-! ## Two starts -/

/-- The host sets the start bit in cycles 1 and 3. -/
def twoStarts (limit : BitVec 32) (t : Nat) : ModeratorIn where
  prLogicRst := false
  hostCntrlRegister := if t = 1 ∨ t = 3 then 2#32 else 0#32
  hostPr := (hostGame 0 0x1c0000#32 limit (fun _ => false) t).hostPr

theorem startBit_twoStarts (limit : BitVec 32) (t : Nat) :
    (twoStarts limit t).hostCntrlRegister.getLsbD 1 = decide (t = 1 ∨ t = 3) := by
  show (if t = 1 ∨ t = 3 then 2#32 else 0#32).getLsbD 1 = _
  by_cases ht : t = 1 ∨ t = 3
  · rw [if_pos ht, decide_eq_true ht]
    rfl
  · rw [if_neg ht, decide_eq_false ht]
    rfl

theorem startRun_twoStarts (limit : BitVec 32) :
    StartRun Moderator.reset (twoStarts limit) 4 0 0x1c0000#32 limit := by
  have hclear : ∀ t, (Moderator.reset.at (twoStarts limit) (t + 1)).localClrIoReg = false := by
    intro t
    apply Moderator.at_succ_low Moderator.localClrIoReg rfl
    apply Moderator.step_no_clear
    show (if t = 1 ∨ t = 3 then 2#32 else 0#32).getLsbD 0 = false
    split <;> decide
  have hruns : ∀ t, (Moderator.reset.at (twoStarts limit) (t + 1)).Runs (twoStarts limit (t + 1)) :=
    fun t => ⟨rfl, hclear t⟩
  have hpulse : (Moderator.reset.at (twoStarts limit) 4).startPulse = true := by
    have hdelayed := Moderator.step_startPulseD (hruns 1)
    have hstart := Moderator.step_startPulse (hruns 2)
    rw [← Moderator.at_succ_of_not_rst _ rfl] at hdelayed hstart
    rw [hstart, hdelayed, startBit_twoStarts, startBit_twoStarts]
    rfl
  refine ⟨by omega, fun _ _ _ => ⟨rfl, rfl, rfl⟩, fun _ _ _ => rfl, fun t ht _ => ?_, hpulse,
    fun t ht _ => ?_⟩
  · obtain ⟨t, rfl⟩ : ∃ u, t = u + 1 := ⟨t - 1, by omega⟩
    exact hclear t
  · obtain ⟨t, rfl⟩ : ∃ u, t = u + 1 := ⟨t - 1, by omega⟩
    apply Moderator.at_succ_low Moderator.startPulse rfl
    apply Moderator.step_no_start
    rw [startBit_twoStarts]
    exact decide_eq_false (by omega)

/-- Of three generations the second start gets one, and of one generation, in the cycle in
    which the first game ends, none. -/
theorem start_cut_short :
    (StartRun Moderator.reset (twoStarts 3) 4 0 0x1c0000#32 3 ∧
      ¬ FullGame Moderator.reset (twoStarts 3) 4 0 0x1c0000#32 3) ∧
    StartRun Moderator.reset (twoStarts 1) 4 0 0x1c0000#32 1 ∧
      ¬ FullGame Moderator.reset (twoStarts 1) 4 0 0x1c0000#32 1 := by
  have hmid : BusyFor Moderator.reset (twoStarts 3) 5 1 := ⟨by decide +kernel, by decide +kernel⟩
  have hend : BusyFor Moderator.reset (twoStarts 1) 5 0 := ⟨by decide +kernel, by decide +kernel⟩
  refine ⟨⟨startRun_twoStarts 3, ?_⟩, startRun_twoStarts 1, ?_⟩
  · rw [(startRun_twoStarts 3).fullGame_iff_busyFor hmid (by decide)]
    decide
  · rw [(startRun_twoStarts 1).fullGame_iff_busyFor hend (by decide)]
    decide

/-! ## When a start runs a full game -/

theorem full_game_iff (m : Moderator) (inp : Nat → ModeratorIn) (s : Nat)
    (top bottom limit : BitVec 32) (h : StartRun m inp s top bottom limit) :
    FullGame m inp s top bottom limit ↔
      (m.at inp s).startGameDelay = false ∨ limit = 0 := by
  by_cases hgame : (m.at inp s).startGameDelay = true
  · rw [h.full_iff_of_game hgame, hgame]
    simp
  · have hidle := Bool.eq_false_of_not_eq_true hgame
    exact iff_of_true (h.full_of_idle hidle) (.inl hidle)

theorem GameRun.startRun {m : Moderator} {inp : Nat → ModeratorIn} {s : Nat}
    {top bottom limit : BitVec 32} (h : GameRun m inp s top bottom limit) :
    StartRun m inp s top bottom limit :=
  ⟨by have := h.settled; omega, fun t hs ht => h.holds t (by omega) (by omega),
    fun t hs ht => (h.runs t (by omega) (by omega)).1,
    fun t hs ht => (h.runs t (by omega) (by omega)).2, h.start,
    fun t hs ht => h.only t (by omega) (by omega) (by omega)⟩

theorem full_game_row :
    FullGame Moderator.reset (hostGame 0 0x1c0000#32 1 fun _ => false) 2 0 0x1c0000#32 1 := by
  have hrun : GameRun Moderator.reset (hostGame 0 0x1c0000#32 1 fun _ => false) 2 0 0x1c0000#32 1 :=
    gameRun_hostGame fun _ _ => rfl
  exact (full_game_iff _ _ _ _ _ _ hrun.startRun).mpr (.inl hrun.idle)

/-- A host that has seen the busy flag low always gets a full game: two pulses do not follow
    each other, so the game that was on is over when the pulse comes. -/
theorem full_game_of_seen_idle {m : Moderator} {inp : Nat → ModeratorIn} {s : Nat}
    {top bottom limit : BitVec 32} (h : StartRun m inp (s + 2) top bottom limit)
    (hseen : (m.at inp (s + 1)).prHost 0 = 0) : FullGame m inp (s + 2) top bottom limit := by
  obtain ⟨hnext, hruns⟩ := before_start h.start
  have hcount : (m.at inp (s + 1)).count = false := by
    have hbit : bit 32 (m.at inp (s + 1)).count = 0 := hseen
    cases hc : (m.at inp (s + 1)).count with
    | false => rfl
    | true =>
      rw [hc] at hbit
      exact absurd hbit (by decide)
  have hquiet : (m.at inp (s + 1)).startPulse = false := by
    cases hp : (m.at inp (s + 1)).startPulse with
    | false => rfl
    | true =>
      obtain ⟨hsecond, hbefore⟩ := before_start hp
      have hbit := Moderator.step_startPulse hbefore
      have hdelayed := Moderator.step_startPulseD hbefore
      have hpulse := Moderator.step_startPulse hruns
      rw [← hsecond] at hbit hdelayed
      rw [hp] at hbit
      rw [← hnext, h.start, hdelayed, (Bool.and_eq_true_iff.mp hbit.symm).2] at hpulse
      exact hpulse
  apply h.full_of_idle
  rw [hnext, Moderator.step_startGameDelay hruns, hcount, hquiet]
  cases (m.at inp (s + 1)).startGameDelay <;> rfl

end FpgaPartialReconfig.Gol
