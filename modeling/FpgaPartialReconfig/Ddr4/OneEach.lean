/-
  What the memory sees of each operation of `ddr_wr_rd`.

  `WrRd.events` lists what happens in a cycle: an operation is started, the slave accepts a
  write or a read (asserted with `waitrequest` low), it returns data, the engine reports. An
  operation should be one write, one read, the data of that read, and a verdict on that data
  (`Operation.events`); a run should be one such operation after another (`OneEach`).

  The engine looks at `waitrequest` one state later than it asserts a command. If the slave
  takes the command at once and is busy in the next cycle, the engine takes that for a
  refusal and asserts the command again (`write_accepted_twice`); and data that comes right
  after the acceptance of the read is not seen at all. `one_write_one_read` is what holds:
  with a slave that does neither (`Calm`), every run is one operation after another, and
  every operation gets done if the slave lets it.
-/
import Mathlib.Data.List.Basic
import FpgaPartialReconfig.Ddr4.WrRd
import FpgaPartialReconfig.Lib.Clock

namespace FpgaPartialReconfig.Ddr4

open Clock

/-! ## Operations and the slave -/

inductive Event where
  | start (data : Word)
  | write
  | read
  | returned (data : Word)
  | verdict (pass : Bool)
  deriving DecidableEq, Repr

def Event.isReturned : Event → Bool
  | .returned _ => true
  | _ => false

/-- What happens in a cycle. -/
def WrRd.events (m : WrRd) (i : WrRdIn) : List Event :=
  (if m.currState = .idle ∧ i.startDdrWrRd = true then [.start i.targetData] else []) ++
  (if m.emifAvmmWrite = true ∧ i.emifAvmmWaitrequest = false then [.write] else []) ++
  (if m.emifAvmmRead = true ∧ i.emifAvmmWaitrequest = false then [.read] else []) ++
  (if i.emifAvmmReaddatavalid = true then [.returned i.emifAvmmReaddata] else []) ++
  (if m.pass = true then [.verdict true] else []) ++
  (if m.fail = true then [.verdict false] else [])

/-- An operation with its reference data and the data returned for its read. -/
structure Operation where
  data : Word
  returned : Word

def Operation.events (op : Operation) : List Event :=
  [.start op.data, .write, .read, .returned op.returned, .verdict (op.returned = op.data)]

/-- Operations one after another, the last one possibly still under way. -/
def OneEach (es : List Event) : Prop :=
  ∃ (ops : List Operation) (last : Operation) (part : List Event),
    es = ops.flatMap Operation.events ++ part ∧ part <+: last.events

def reads (es : List Event) : Nat := es.count .read

def returns (es : List Event) : Nat := es.countP Event.isReturned

theorem reads_append (es es' : List Event) : reads (es ++ es') = reads es + reads es' :=
  List.count_append

theorem returns_append (es es' : List Event) :
    returns (es ++ es') = returns es + returns es' :=
  List.countP_append

theorem reads_operations (ops : List Operation) :
    reads (ops.flatMap Operation.events) = returns (ops.flatMap Operation.events) := by
  induction ops with
  | nil => rfl
  | cons op ops ih =>
    rw [List.flatMap_cons, reads_append, returns_append, ih]
    rfl

section
variable (m : WrRd) (inp : Nat → WrRdIn)

def history : Nat → List Event := trace WrRd.step m inp WrRd.events

/-- Data is returned for reads accepted in earlier cycles, once for each. -/
def Answers : Prop :=
  ∀ t, (inp t).emifAvmmReaddatavalid = true →
    returns (history m inp t) < reads (history m inp t)

/-- The slave takes what it is asked sooner or later, and returns data for every read. -/
structure Obliges : Prop where
  takes : ∀ t, ∃ u, t ≤ u ∧ (inp u).emifAvmmWaitrequest = false
  returnsAll : ∀ t, returns (history m inp t) < reads (history m inp t) →
    ∃ u, t ≤ u ∧ (inp u).emifAvmmReaddatavalid = true

end

/-- Where the engine has not seen yet that its command was taken, the slave is not busy, and
    does not answer the read already. -/
structure Calm (m : WrRd) (i : WrRdIn) : Prop where
  write : m.currState = .waitWriteDone → m.emifAvmmWrite = false →
    i.emifAvmmWaitrequest = false
  read : m.currState = .waitReadAccepted → m.emifAvmmRead = false →
    i.emifAvmmWaitrequest = false ∧ i.emifAvmmReaddatavalid = false

/-! ## The invariant -/

/-- How far the engine is with its operation, and what has happened of it. -/
inductive Doing (m : WrRd) : List Event → Prop where
  | idle (hstate : m.currState = .idle) (hstrobes : m.toStrobes = .none) : Doing m []
  | writing (hstate : m.currState = .write ∨ m.currState = .waitWriteDone)
      (hstrobes : m.toStrobes = ⟨true, false, false, false⟩) :
      Doing m [.start m.referenceData]
  | written (hstate : m.currState = .waitWriteDone) (hstrobes : m.toStrobes = .none) :
      Doing m [.start m.referenceData, .write]
  | reading (hstate : m.currState = .read ∨ m.currState = .waitReadAccepted)
      (hstrobes : m.toStrobes = ⟨false, true, false, false⟩) :
      Doing m [.start m.referenceData, .write]
  | accepted (hstate : m.currState = .waitReadAccepted ∨ m.currState = .waitReadDone)
      (hstrobes : m.toStrobes = .none) : Doing m [.start m.referenceData, .write, .read]
  | verifying (data : Word) (hstate : m.currState = .dataVerification)
      (hstrobes : m.toStrobes =
        ⟨false, false, decide (data = m.referenceData), !decide (data = m.referenceData)⟩) :
      Doing m [.start m.referenceData, .write, .read, .returned data]

theorem Doing.prefix {m : WrRd} {part : List Event} (h : Doing m part) :
    ∃ op : Operation, part <+: op.events := by
  cases h with
  | idle => exact ⟨⟨0, 0⟩, List.nil_prefix⟩
  | writing => exact ⟨⟨m.referenceData, 0⟩, ⟨_, rfl⟩⟩
  | written => exact ⟨⟨m.referenceData, 0⟩, ⟨_, rfl⟩⟩
  | reading => exact ⟨⟨m.referenceData, 0⟩, ⟨_, rfl⟩⟩
  | accepted => exact ⟨⟨m.referenceData, 0⟩, ⟨_, rfl⟩⟩
  | verifying data => exact ⟨⟨m.referenceData, data⟩, ⟨_, rfl⟩⟩

theorem Doing.nil {m : WrRd} {part : List Event} (h : Doing m part)
    (hidle : m.currState = .idle) : part = [] := by
  cases h with
  | idle => rfl
  | writing hstate => rcases hstate with hstate | hstate <;> rw [hstate] at hidle <;> cases hidle
  | written hstate => rw [hstate] at hidle; cases hidle
  | reading hstate => rcases hstate with hstate | hstate <;> rw [hstate] at hidle <;> cases hidle
  | accepted hstate => rcases hstate with hstate | hstate <;> rw [hstate] at hidle <;> cases hidle
  | verifying _ hstate => rw [hstate] at hidle; cases hidle

/-- In `WAIT_READ_DONE` a read is accepted and not answered. -/
theorem Doing.owed {m : WrRd} {part : List Event} (h : Doing m part)
    (hwait : m.currState = .waitReadDone) : returns part < reads part := by
  cases h with
  | idle hstate => rw [hstate] at hwait; cases hwait
  | writing hstate => rcases hstate with hstate | hstate <;> rw [hstate] at hwait <;> cases hwait
  | written hstate => rw [hstate] at hwait; cases hwait
  | reading hstate => rcases hstate with hstate | hstate <;> rw [hstate] at hwait <;> cases hwait
  | accepted => exact Nat.zero_lt_one
  | verifying _ hstate => rw [hstate] at hwait; cases hwait

/-- In `DATA_VERIFICATION` the verdict is out. -/
theorem Doing.done {m : WrRd} {part : List Event} (h : Doing m part)
    (hverify : m.currState = .dataVerification) : m.done = true := by
  cases h with
  | idle hstate => rw [hstate] at hverify; cases hverify
  | writing hstate =>
    rcases hstate with hstate | hstate <;> rw [hstate] at hverify <;> cases hverify
  | written hstate => rw [hstate] at hverify; cases hverify
  | reading hstate =>
    rcases hstate with hstate | hstate <;> rw [hstate] at hverify <;> cases hverify
  | accepted hstate =>
    rcases hstate with hstate | hstate <;> rw [hstate] at hverify <;> cases hverify
  | verifying data _ hstrobes =>
    unfold WrRd.done
    rw [hstrobes]
    exact Bool.or_not_self _

/-- No data comes while none is owed. -/
theorem no_data {i : WrRdIn} {part : List Event}
    (hanswers : i.emifAvmmReaddatavalid = true → returns part < reads part)
    (hnone : reads part = returns part) : i.emifAvmmReaddatavalid = false := by
  cases hv : i.emifAvmmReaddatavalid with
  | false => rfl
  | true =>
    have howed : returns part < reads part := hanswers hv
    omega

/-! ## A cycle in each phase -/

section
variable {m : WrRd} {i : WrRdIn}

theorem idle_step (hi : i.Runs) (hstate : m.currState = .idle) (hstrobes : m.toStrobes = .none)
    (hv : i.emifAvmmReaddatavalid = false) : Doing (m.step i) (m.events i) := by
  cases hs : i.startDdrWrRd with
  | false =>
    have hev : m.events i = [] := by
      simp [WrRd.events, hstate, hstrobes, hs, hv, Strobes.none]
    rw [hev, WrRd.step_idle hi hstate hs]
    exact .idle hstate rfl
  | true =>
    have hev : m.events i = [.start i.targetData] := by
      simp [WrRd.events, hstate, hstrobes, hs, hv, Strobes.none]
    rw [hev, WrRd.step_start hi hstate hs]
    exact .writing (.inl rfl) rfl

theorem writing_step (hi : i.Runs) (hstate : m.currState = .write ∨ m.currState = .waitWriteDone)
    (hstrobes : m.toStrobes = ⟨true, false, false, false⟩)
    (hv : i.emifAvmmReaddatavalid = false) :
    Doing (m.step i) ([.start m.referenceData] ++ m.events i) := by
  have hne : m.currState ≠ .idle := by
    rcases hstate with hstate | hstate <;> rw [hstate] <;> decide
  cases hw : i.emifAvmmWaitrequest with
  | true =>
    have hev : m.events i = [] := by
      simp [WrRd.events, hne, hstrobes, hv, hw]
    rw [hev, List.append_nil]
    rcases hstate with hstate | hstate
    · rw [WrRd.step_write hi hstate, hw]
      exact .writing (.inr rfl) rfl
    · rw [WrRd.step_waitWriteDone hi hstate, if_pos hw, if_pos hw]
      exact .writing (.inr rfl) rfl
  | false =>
    have hev : m.events i = [.write] := by
      simp [WrRd.events, hne, hstrobes, hv, hw]
    rw [hev]
    rcases hstate with hstate | hstate
    · rw [WrRd.step_write hi hstate, hw]
      exact .written rfl rfl
    · rw [WrRd.step_waitWriteDone hi hstate, hw]
      exact .reading (.inl rfl) rfl

theorem written_step (hi : i.Runs) (hstate : m.currState = .waitWriteDone)
    (hstrobes : m.toStrobes = .none) (hw : i.emifAvmmWaitrequest = false)
    (hv : i.emifAvmmReaddatavalid = false) :
    Doing (m.step i) ([.start m.referenceData, .write] ++ m.events i) := by
  have hev : m.events i = [] := by
    simp [WrRd.events, hstate, hstrobes, hv, Strobes.none]
  rw [hev, List.append_nil, WrRd.step_waitWriteDone hi hstate, hw]
  exact .reading (.inl rfl) rfl

theorem reading_step (hi : i.Runs)
    (hstate : m.currState = .read ∨ m.currState = .waitReadAccepted)
    (hstrobes : m.toStrobes = ⟨false, true, false, false⟩)
    (hv : i.emifAvmmReaddatavalid = false) :
    Doing (m.step i) ([.start m.referenceData, .write] ++ m.events i) := by
  have hne : m.currState ≠ .idle := by
    rcases hstate with hstate | hstate <;> rw [hstate] <;> decide
  cases hw : i.emifAvmmWaitrequest with
  | true =>
    have hev : m.events i = [] := by
      simp [WrRd.events, hne, hstrobes, hv, hw]
    rw [hev, List.append_nil]
    rcases hstate with hstate | hstate
    · rw [WrRd.step_read hi hstate, hw]
      exact .reading (.inr rfl) rfl
    · rw [WrRd.step_waitReadAccepted hi hstate, hw]
      exact .reading (.inr rfl) rfl
  | false =>
    have hev : m.events i = [.read] := by
      simp [WrRd.events, hne, hstrobes, hv, hw]
    rw [hev]
    rcases hstate with hstate | hstate
    · rw [WrRd.step_read hi hstate, hw]
      exact .accepted (.inl rfl) rfl
    · rw [WrRd.step_waitReadAccepted hi hstate, hw]
      exact .accepted (.inr rfl) rfl

theorem accepted_step (hi : i.Runs) (hcalm : Calm m i)
    (hstate : m.currState = .waitReadAccepted ∨ m.currState = .waitReadDone)
    (hstrobes : m.toStrobes = .none) :
    Doing (m.step i) ([.start m.referenceData, .write, .read] ++ m.events i) := by
  have hne : m.currState ≠ .idle := by
    rcases hstate with hstate | hstate <;> rw [hstate] <;> decide
  rcases hstate with hstate | hstate
  · obtain ⟨hw, hv⟩ := hcalm.read hstate (by rw [hstrobes]; rfl)
    have hev : m.events i = [] := by
      simp [WrRd.events, hne, hstrobes, hv, Strobes.none]
    rw [hev, List.append_nil, WrRd.step_waitReadAccepted hi hstate, hw]
    exact .accepted (.inr rfl) rfl
  · cases hv : i.emifAvmmReaddatavalid with
    | false =>
      have hev : m.events i = [] := by
        simp [WrRd.events, hne, hstrobes, hv, Strobes.none]
      rw [hev, List.append_nil, WrRd.step_waitReadDone hi hstate hv]
      exact .accepted (.inr hstate) rfl
    | true =>
      have hev : m.events i = [.returned i.emifAvmmReaddata] := by
        simp [WrRd.events, hne, hstrobes, hv, Strobes.none]
      rw [hev, WrRd.step_returned hi hstate hv]
      exact .verifying i.emifAvmmReaddata rfl rfl

/-- With the verdict the operation is complete. -/
theorem verifying_step {data : Word} (hi : i.Runs) (hstate : m.currState = .dataVerification)
    (hstrobes : m.toStrobes =
      ⟨false, false, decide (data = m.referenceData), !decide (data = m.referenceData)⟩)
    (hv : i.emifAvmmReaddatavalid = false) :
    m.events i = [.verdict (data = m.referenceData)] ∧ Doing (m.step i) [] := by
  have hdone : m.done = true := (Doing.verifying data hstate hstrobes).done hstate
  constructor
  · by_cases hd : data = m.referenceData <;>
      simp [WrRd.events, hstate, hstrobes, hv, hd]
  · rw [WrRd.step_verified hi hstate hdone]
    exact .idle rfl rfl

end

/-- A cycle takes the operation on, or ends it. -/
theorem Doing.step {m : WrRd} {part : List Event} {i : WrRdIn} (h : Doing m part)
    (hi : i.Runs) (hcalm : Calm m i)
    (hanswers : i.emifAvmmReaddatavalid = true → returns part < reads part) :
    Doing (m.step i) (part ++ m.events i) ∨
      ∃ op : Operation, part ++ m.events i = op.events ∧ Doing (m.step i) [] := by
  cases h with
  | idle hstate hstrobes => exact .inl (idle_step hi hstate hstrobes (no_data hanswers rfl))
  | writing hstate hstrobes =>
    exact .inl (writing_step hi hstate hstrobes (no_data hanswers rfl))
  | written hstate hstrobes =>
    have hw : i.emifAvmmWaitrequest = false := hcalm.write hstate (by rw [hstrobes]; rfl)
    exact .inl (written_step hi hstate hstrobes hw (no_data hanswers rfl))
  | reading hstate hstrobes =>
    exact .inl (reading_step hi hstate hstrobes (no_data hanswers rfl))
  | accepted hstate hstrobes => exact .inl (accepted_step hi hcalm hstate hstrobes)
  | verifying data hstate hstrobes =>
    obtain ⟨hev, hidle⟩ := verifying_step hi hstate hstrobes (no_data hanswers rfl)
    refine .inr ⟨⟨m.referenceData, data⟩, ?_, hidle⟩
    rw [hev]
    rfl

/-! ## Runs -/

section
variable {m : WrRd} {inp : Nat → WrRdIn}

theorem history_doing (hreset : m.IsReset) (hruns : ∀ t, (inp t).Runs)
    (hanswers : Answers m inp) (hcalm : ∀ t, Calm (cycles WrRd.step m inp t) (inp t)) (t : Nat) :
    ∃ (ops : List Operation) (part : List Event),
      history m inp t = ops.flatMap Operation.events ++ part ∧
        Doing (cycles WrRd.step m inp t) part := by
  induction t with
  | zero => exact ⟨[], [], rfl, .idle hreset.1 hreset.2⟩
  | succ t ih =>
    obtain ⟨ops, part, hhist, hdoing⟩ := ih
    have howed : (inp t).emifAvmmReaddatavalid = true → returns part < reads part := by
      intro hv
      have hlt := hanswers t hv
      rw [hhist, reads_append, returns_append, reads_operations] at hlt
      omega
    have hnext : history m inp (t + 1) =
        ops.flatMap Operation.events ++ (part ++ (cycles WrRd.step m inp t).events (inp t)) := by
      rw [history, trace_succ, ← history, hhist, List.append_assoc]
    rcases hdoing.step (hruns t) (hcalm t) howed with hdoing | ⟨op, hop, hdoing⟩
    · exact ⟨ops, _, hnext, hdoing⟩
    · refine ⟨ops ++ [op], [], ?_, hdoing⟩
      rw [hnext, hop, List.append_nil, List.flatMap_append, List.flatMap_singleton]

/-! ## Getting done -/

variable (m inp) in
def InState (state : WrRdState) (t : Nat) : Prop :=
  (cycles WrRd.step m inp t).currState = state

theorem inState_succ (hruns : ∀ t, (inp t).Runs) {state : WrRdState} (t : Nat)
    (hnext : (cycles WrRd.step m inp t).nextState (inp t) = state) :
    InState m inp state (t + 1) := by
  unfold InState
  rw [cycles_succ, WrRd.step_runs (hruns t)]
  exact hnext

/-- A state that waits for a signal is left for the next one when the signal comes. -/
theorem leadsTo_of_signal (hruns : ∀ t, (inp t).Runs) {state state' : WrRdState}
    {signal : WrRdIn → Prop} [DecidablePred signal]
    (hnext : ∀ (m : WrRd) (i : WrRdIn), m.currState = state →
      m.nextState i = if signal i then state' else state)
    (hcomes : ∀ t, InState m inp state t → ∃ u, t ≤ u ∧ signal (inp u)) :
    LeadsTo (InState m inp state) (InState m inp state') := by
  have hgo : LeadsTo (InState m inp state) fun t => InState m inp state' (t + 1) := by
    refine leadsTo_of_wait (G := fun t => signal (inp t)) ?_ ?_ hcomes
    · intro t ht hnot
      exact inState_succ hruns t (by rw [hnext _ _ ht, if_neg hnot])
    · intro t ht hsignal
      exact inState_succ hruns t (by rw [hnext _ _ ht, if_pos hsignal])
  exact hgo.trans (LeadsTo.of_next fun _ h => h)

theorem nextState_waitWriteDone (m : WrRd) (i : WrRdIn) (h : m.currState = .waitWriteDone) :
    m.nextState i = if i.emifAvmmWaitrequest = false then .read else .waitWriteDone := by
  cases hw : i.emifAvmmWaitrequest <;> simp [WrRd.nextState, h, hw]

theorem nextState_waitReadAccepted (m : WrRd) (i : WrRdIn)
    (h : m.currState = .waitReadAccepted) :
    m.nextState i =
      if i.emifAvmmWaitrequest = false then .waitReadDone else .waitReadAccepted := by
  cases hw : i.emifAvmmWaitrequest <;> simp [WrRd.nextState, h, hw]

theorem nextState_waitReadDone (m : WrRd) (i : WrRdIn) (h : m.currState = .waitReadDone) :
    m.nextState i =
      if i.emifAvmmReaddatavalid = true then .dataVerification else .waitReadDone := by
  simp [WrRd.nextState, h]

/-- On a slave that takes every command and answers every read, a busy engine comes to its
    verdict. -/
theorem leadsTo_verdict (hwf : m.Wf) (hruns : ∀ t, (inp t).Runs)
    (htakes : ∀ t, ∃ u, t ≤ u ∧ (inp u).emifAvmmWaitrequest = false)
    (hreturns : ∀ t, InState m inp .waitReadDone t →
      ∃ u, t ≤ u ∧ (inp u).emifAvmmReaddatavalid = true) :
    LeadsTo (fun t => (cycles WrRd.step m inp t).currState ≠ .idle)
      (InState m inp .dataVerification) := by
  have hreturned : LeadsTo (InState m inp .waitReadDone) (InState m inp .dataVerification) :=
    leadsTo_of_signal hruns nextState_waitReadDone hreturns
  have haccepted : LeadsTo (InState m inp .waitReadAccepted) (InState m inp .dataVerification) :=
    (leadsTo_of_signal hruns nextState_waitReadAccepted fun t _ => htakes t).trans hreturned
  have hread : LeadsTo (InState m inp .read) (InState m inp .dataVerification) := by
    refine (LeadsTo.of_next fun t ht => inState_succ hruns t ?_).trans haccepted
    unfold InState at ht
    simp only [WrRd.nextState, ht]
  have hwritten : LeadsTo (InState m inp .waitWriteDone) (InState m inp .dataVerification) :=
    (leadsTo_of_signal hruns nextState_waitWriteDone fun t _ => htakes t).trans hread
  have hwrite : LeadsTo (InState m inp .write) (InState m inp .dataVerification) := by
    refine (LeadsTo.of_next fun t ht => inState_succ hruns t ?_).trans hwritten
    unfold InState at ht
    simp only [WrRd.nextState, ht]
  intro t hbusy
  cases hstate : (cycles WrRd.step m inp t).currState with
  | idle => exact absurd hstate hbusy
  | write => exact hwrite t hstate
  | waitWriteDone => exact hwritten t hstate
  | read => exact hread t hstate
  | waitReadAccepted => exact haccepted t hstate
  | waitReadDone => exact hreturned t hstate
  | dataVerification => exact ⟨t, Nat.le_refl t, hstate⟩
  | undefined =>
    exact absurd hstate (cycles_inv WrRd.step m inp (fun _ i h => h.step i) hwf t).defined

/-- With a slave that obliges, the engine gets back to `IDLE` from every state. -/
theorem leadsTo_idle (hreset : m.IsReset) (hruns : ∀ t, (inp t).Runs)
    (hanswers : Answers m inp) (hcalm : ∀ t, Calm (cycles WrRd.step m inp t) (inp t))
    (hobliges : Obliges m inp) (t : Nat) : ∃ u, t ≤ u ∧ InState m inp .idle u := by
  have hdoing := history_doing hreset hruns hanswers hcalm
  have hverified : LeadsTo (InState m inp .dataVerification) (InState m inp .idle) := by
    refine LeadsTo.of_next fun t ht => inState_succ hruns t ?_
    obtain ⟨ops, part, -, hdoing⟩ := hdoing t
    have hdone : (cycles WrRd.step m inp t).done = true := hdoing.done ht
    unfold InState at ht
    simp only [WrRd.nextState, ht, hdone, if_true]
  have hreturns : ∀ t, InState m inp .waitReadDone t →
      ∃ u, t ≤ u ∧ (inp u).emifAvmmReaddatavalid = true := by
    intro t ht
    obtain ⟨ops, part, hhist, hdoing⟩ := hdoing t
    have howed : returns part < reads part := hdoing.owed ht
    refine hobliges.returnsAll t ?_
    rw [hhist, reads_append, returns_append, reads_operations]
    omega
  by_cases hidle : InState m inp .idle t
  · exact ⟨t, Nat.le_refl t, hidle⟩
  · exact ((leadsTo_verdict hreset.wf hruns hobliges.takes hreturns).trans hverified) t hidle

end

/-- With a slave that is calm, every run is one operation after another: a write, a read, the
    data of that read and a verdict on it. If the slave obliges, every one gets done. -/
theorem one_write_one_read (m : WrRd) (inp : Nat → WrRdIn) (hreset : m.IsReset)
    (hruns : ∀ t, (inp t).Runs) (hanswers : Answers m inp)
    (hcalm : ∀ t, Calm (cycles WrRd.step m inp t) (inp t)) :
    (∀ t, OneEach (history m inp t)) ∧
      (Obliges m inp → ∀ t, ∃ u, t ≤ u ∧
        ∃ ops : List Operation, history m inp u = ops.flatMap Operation.events) := by
  constructor
  · intro t
    obtain ⟨ops, part, hhist, hdoing⟩ := history_doing hreset hruns hanswers hcalm t
    obtain ⟨last, hlast⟩ := hdoing.prefix
    exact ⟨ops, last, part, hhist, hlast⟩
  · intro hobliges t
    obtain ⟨u, htu, hidle⟩ := leadsTo_idle hreset hruns hanswers hcalm hobliges t
    obtain ⟨ops, part, hhist, hdoing⟩ := history_doing hreset hruns hanswers hcalm u
    rw [hdoing.nil hidle, List.append_nil] at hhist
    exact ⟨u, htu, ops, hhist⟩

/-! ## Two runs -/

/-- The engine out of reset, with zeros in its data registers. -/
def resetEngine : WrRd where
  toStrobes := .none
  currState := .idle
  referenceData := 0
  referenceAddr := 0
  emifAvmmWritedata := 0

/-- One operation is started; the slave is busy in the cycles `busy` and returns zeros in
    the cycles `valid`. -/
def oneOperation (busy valid : Nat → Bool) (t : Nat) : WrRdIn where
  prLogicRst := false
  clrIoReg := false
  startDdrWrRd := t == 0
  targetAddress := 0
  targetData := 0
  emifAvmmWaitrequest := busy t
  emifAvmmReaddata := 0
  emifAvmmReaddatavalid := valid t

/-- Two operations in every round of 24 cycles. The slave makes the first write and the second
    read wait, is busy while the first read is under way, and returns a wrong word the second
    time. -/
def rounds (t : Nat) : WrRdIn where
  prLogicRst := false
  clrIoReg := false
  startDdrWrRd := t % 24 ∈ [0, 12]
  targetAddress := if t % 24 < 12 then 5 else 0
  targetData := if t % 24 < 12 then 0xa5 else 0
  emifAvmmWaitrequest := t % 24 ∈ [1, 2, 6, 15, 16, 17]
  emifAvmmReaddata := if t % 24 < 12 then 0xa5 else 1
  emifAvmmReaddatavalid := t % 24 ∈ [10, 21]

def roundOperations : List Operation := [⟨0xa5, 0xa5⟩, ⟨0, 1⟩]

theorem rounds_mod (t : Nat) : rounds t = rounds (t % 24) := by
  unfold rounds
  simp only [Nat.mod_mod]

theorem after_rounds : after 24 rounds = rounds := by
  funext t
  show rounds (24 + t) = rounds t
  rw [rounds_mod, rounds_mod t, Nat.add_mod_left]

theorem history_rounds (t : Nat) :
    history resetEngine rounds t =
      (List.replicate (t / 24) roundOperations).flatten.flatMap Operation.events ++
        history resetEngine rounds (t % 24) := by
  have hround : history resetEngine rounds 24 = roundOperations.flatMap Operation.events := by decide
  have hrounds : history resetEngine rounds t =
      (List.replicate (t / 24) (history resetEngine rounds 24)).flatten ++
        history resetEngine rounds (t % 24) := trace_mod WrRd.events (by decide) after_rounds t
  have hops : ∀ q, (List.replicate q roundOperations).flatten.flatMap Operation.events =
      (List.replicate q (roundOperations.flatMap Operation.events)).flatten := by
    intro q
    induction q with
    | zero => rfl
    | succ q ih =>
      rw [List.replicate_succ, List.flatten_cons, List.flatMap_append, ih, List.replicate_succ,
        List.flatten_cons]
  rw [hrounds, hround, hops]

/-- Every read of the rounds that are over has been answered. -/
theorem reads_rounds (t : Nat) :
    ∃ n, reads (history resetEngine rounds t) = n + reads (history resetEngine rounds (t % 24)) ∧
      returns (history resetEngine rounds t) =
        n + returns (history resetEngine rounds (t % 24)) := by
  refine ⟨reads ((List.replicate (t / 24) roundOperations).flatten.flatMap Operation.events), ?_, ?_⟩
  · rw [history_rounds, reads_append]
  · rw [history_rounds, returns_append, reads_operations]

theorem answers_rounds : Answers resetEngine rounds := by
  have hround : ∀ r < 24, (rounds r).emifAvmmReaddatavalid = true →
      returns (history resetEngine rounds r) < reads (history resetEngine rounds r) := by decide
  intro t hvalid
  obtain ⟨n, hreads, hreturns⟩ := reads_rounds t
  rw [rounds_mod] at hvalid
  have hlt := hround (t % 24) (Nat.mod_lt t (by decide)) hvalid
  omega

theorem obliges_rounds : Obliges resetEngine rounds := by
  refine ⟨fun t => ⟨24 * t, by omega, ?_⟩, fun t _ => ⟨24 * t + 10, by omega, ?_⟩⟩
  · rw [rounds_mod, Nat.mul_mod_right]
    decide
  · rw [rounds_mod, Nat.mul_add_mod]
    decide

theorem calm_rounds (t : Nat) : Calm (cycles WrRd.step resetEngine rounds t) (rounds t) := by
  have hround : ∀ r < 24,
      ((cycles WrRd.step resetEngine rounds r).currState = .waitWriteDone →
        (cycles WrRd.step resetEngine rounds r).emifAvmmWrite = false →
        (rounds r).emifAvmmWaitrequest = false) ∧
      ((cycles WrRd.step resetEngine rounds r).currState = .waitReadAccepted →
        (cycles WrRd.step resetEngine rounds r).emifAvmmRead = false →
        (rounds r).emifAvmmWaitrequest = false ∧ (rounds r).emifAvmmReaddatavalid = false) := by
    decide
  obtain ⟨hwrite, hread⟩ := hround (t % 24) (Nat.mod_lt t (by decide))
  rw [cycles_mod (by decide) after_rounds, rounds_mod]
  exact ⟨hwrite, hread⟩

theorem one_write_one_read_rounds :
    (∀ t, OneEach (history resetEngine rounds t)) ∧
      ∀ t, ∃ u, t ≤ u ∧
        ∃ ops : List Operation, history resetEngine rounds u = ops.flatMap Operation.events := by
  obtain ⟨heach, hcomes⟩ := one_write_one_read resetEngine rounds ⟨rfl, rfl⟩
    (fun _ => ⟨rfl, rfl⟩) answers_rounds calm_rounds
  exact ⟨heach, hcomes obliges_rounds⟩

/-- A slave that takes the write at once and is busy in the next cycle gets it twice. -/
theorem write_accepted_twice :
    let inp := oneOperation (fun t => t == 2) fun _ => false
    Answers resetEngine inp ∧ ¬ OneEach (history resetEngine inp 4) := by
  intro inp
  refine ⟨nofun, ?_⟩
  have hhist : history resetEngine inp 4 = [.start 0, .write, .write] := by decide
  rw [hhist]
  intro ⟨ops, last, part, hes, hpart⟩
  cases ops with
  | nil =>
    have hpart' : [Event.start 0, .write, .write] = part := hes
    rw [← hpart'] at hpart
    simp [Operation.events] at hpart
  | cons op ops =>
    have hlen := congrArg List.length hes
    simp [Operation.events] at hlen

end FpgaPartialReconfig.Ddr4
