/-
  The comparator of the scoreboard, `sb_comparator_c`.

  The predictor and the monitor write to analysis FIFOs without a bound. The process of
  `sort_responses` takes what the monitor has seen and puts it into one of two FIFOs of 10
  places, by its type. `run_phase` takes the expected transactions one after the other, waits
  for the next response of the same type, and adds a test.

  The FIFOs are those of the UVM library, a parameter (`BlockingFifo`), and so are the fields of
  a transaction (`RspType`). An idle transaction is the end for the sorter; `run_phase` does
  not wait for one and compares it with what is still in `mon_tr`, which is null at first. After
  a fatal error nothing runs.

  Left out: the watchdog, the texts of the tests and their times, and the objection that
  `run_phase` raises for an expected transaction and drops after its test (the phase goes on
  here). The predictor and the monitor are the lists of what they have still to write.
-/
import FpgaPartialReconfig.Lib.BlockingFifo
import FpgaPartialReconfig.Lib.Sorter

namespace FpgaPartialReconfig.Scoreboard

/-- `REQ_READ`, `REQ_WRITE` and `REQ_IDLE`. -/
inductive Request
  | read | write | idle
  deriving DecidableEq, Repr

/-- What the comparator uses of an `RSP_T`. -/
structure RspType (T : Type) where
  request : T → Request
  ignoreComparison : T → Bool
  compare : T → T → Bool

structure SimReport (T : Type) where
  exp : T
  mon : T
  passFail : Bool
  deriving DecidableEq, Repr

structure SbComparator (Fifo T : Type) where
  predicted : List T
  monitored : List T
  expfifo : Fifo
  monfifo : Fifo
  monfifoRead : Fifo
  monfifoWrite : Fifo
  /-- `mon_tr` of `sort_responses`, between its get and its put. -/
  sorterTr : Option T
  /-- `exp_tr`, while its response is waited for. -/
  expTr : Option T
  /-- `mon_tr` of `run_phase`, null at first. -/
  monTr : Option T
  tests : List (SimReport T)
  fatal : Bool

section
variable {T : Type} (U : BlockingFifo T) (R : RspType T)

def buildPhase (predicted monitored : List T) : SbComparator U.Fifo T where
  predicted := predicted
  monitored := monitored
  expfifo := U.new 0
  monfifo := U.new 0
  monfifoRead := U.new 10
  monfifoWrite := U.new 10
  sorterTr := none
  expTr := none
  monTr := none
  tests := []
  fatal := false

/-- A turn of the process that `sort_responses` forks. -/
def sortResponses (s : SbComparator U.Fifo T) : Option (SbComparator U.Fifo T) :=
  match s.sorterTr with
  | none => (U.get s.monfifo).map fun mf => { s with sorterTr := some mf.1, monfifo := mf.2 }
  | some m =>
    match R.request m with
    | .write => (U.put s.monfifoWrite m).map fun f => { s with monfifoWrite := f, sorterTr := none }
    | .read => (U.put s.monfifoRead m).map fun f => { s with monfifoRead := f, sorterTr := none }
    | .idle => some { s with fatal := true }

/-- The test of an expected transaction against `mon_tr`, and on to the next one. -/
def addTest (s : SbComparator U.Fifo T) (e m : T) : SbComparator U.Fifo T :=
  { s with
    expTr := none
    monTr := some m
    tests := s.tests ++ [⟨e, m, R.ignoreComparison e || R.compare e m⟩] }

def runPhase (s : SbComparator U.Fifo T) : Option (SbComparator U.Fifo T) :=
  match s.expTr with
  | none => (U.get s.expfifo).map fun ef => { s with expTr := some ef.1, expfifo := ef.2 }
  | some e =>
    match R.request e with
    | .write =>
      (U.get s.monfifoWrite).map fun mf => addTest U R { s with monfifoWrite := mf.2 } e mf.1
    | .read =>
      (U.get s.monfifoRead).map fun mf => addTest U R { s with monfifoRead := mf.2 } e mf.1
    | .idle =>
      match s.monTr with
      | none => some { s with fatal := true }
      | some m => some (addTest U R s e m)

def act (p : Process) (s : SbComparator U.Fifo T) : Option (SbComparator U.Fifo T) :=
  if s.fatal = true then
    none
  else
    match p with
    | .predictor =>
      match s.predicted with
      | [] => none
      | e :: rest => (U.put s.expfifo e).map fun f => { s with predicted := rest, expfifo := f }
    | .monitor =>
      match s.monitored with
      | [] => none
      | m :: rest => (U.put s.monfifo m).map fun f => { s with monitored := rest, monfifo := f }
    | .sorter => sortResponses U R s
    | .comparator => runPhase U R s

/-! ## As a sorter -/

/-- The two FIFOs by the type they are for. -/
def queues (read write : List T) : Request → List T
  | .read => read
  | .write => write
  | .idle => []

@[simp] theorem queues_read (read write : List T) : queues read write .read = read := rfl

@[simp] theorem queues_write (read write : List T) : queues read write .write = write := rfl

theorem update_queues_read (read write read' : List T) :
    Function.update (queues read write) .read read' = queues read' write := by
  funext r
  cases r <;> rfl

theorem update_queues_write (read write write' : List T) :
    Function.update (queues read write) .write write' = queues read write' := by
  funext r
  cases r <;> rfl

def view (s : SbComparator U.Fifo T) : Sorter Request T where
  predicted := s.predicted
  monitored := s.monitored
  expected := U.contents s.expfifo
  arrived := U.contents s.monfifo
  holding := s.sorterTr
  queue := queues (U.contents s.monfifoRead) (U.contents s.monfifoWrite)
  waiting := s.expTr
  matched := s.tests.map fun r => (r.exp, r.mon)

theorem view_buildPhase (predicted monitored : List T) :
    view U (buildPhase U predicted monitored) = Sorter.start predicted monitored := by
  have hqueues : queues (U.contents (U.new 10)) (U.contents (U.new 10)) = fun _ => [] := by
    rw [U.contents_new]
    funext r
    cases r <;> rfl
  unfold view buildPhase Sorter.start
  rw [hqueues, U.contents_new]
  rfl

/-- No fatal error, and the FIFOs have their sizes. -/
structure Ready (s : SbComparator U.Fifo T) : Prop where
  fatal : s.fatal = false
  expfifo : U.size s.expfifo = 0
  monfifo : U.size s.monfifo = 0
  monfifoRead : U.size s.monfifoRead = 10
  monfifoWrite : U.size s.monfifoWrite = 10

/-- Nothing idle is still to be sorted or compared. -/
structure Sound (s : SbComparator U.Fifo T) : Prop extends Ready U s where
  expected : ∀ e ∈ (view U s).unmatched, R.request e ≠ .idle
  responses : ∀ m ∈ (view U s).unsorted, R.request m ≠ .idle

/-- Either both are blocked, or both do the same. -/
def Simulates (p : Process) (s : SbComparator U.Fifo T) : Prop :=
  (act U R p s = none ∧ Sorter.act R.request 10 p (view U s) = none) ∨
    ∃ s', act U R p s = some s' ∧ Sorter.act R.request 10 p (view U s) = some (view U s') ∧
      Ready U s'

section
variable {U R} {s : SbComparator U.Fifo T}

theorem act_eq (h : Ready U s) (p : Process) :
    act U R p s = match p with
      | .predictor =>
        match s.predicted with
        | [] => none
        | e :: rest => (U.put s.expfifo e).map fun f => { s with predicted := rest, expfifo := f }
      | .monitor =>
        match s.monitored with
        | [] => none
        | m :: rest => (U.put s.monfifo m).map fun f => { s with monitored := rest, monfifo := f }
      | .sorter => sortResponses U R s
      | .comparator => runPhase U R s := by
  unfold act
  rw [if_neg (by rw [h.fatal]; exact Bool.false_ne_true)]

theorem predictor_simulates (h : Ready U s) : Simulates U R .predictor s := by
  unfold Simulates
  rw [act_eq h]
  cases hlist : s.predicted with
  | nil => exact .inl ⟨rfl, by simp only [Sorter.act, view, hlist]⟩
  | cons e rest =>
    obtain ⟨f, hput, hsize, hcontents⟩ := U.put_free s.expfifo e (.inl h.expfifo)
    refine .inr ⟨{ s with predicted := rest, expfifo := f }, ?_, ?_, ?_⟩
    · simp only [hput, Option.map_some]
    · simp only [Sorter.act, view, hlist, hcontents]
    · exact { h with expfifo := hsize.trans h.expfifo }

theorem monitor_simulates (h : Ready U s) : Simulates U R .monitor s := by
  unfold Simulates
  rw [act_eq h]
  cases hlist : s.monitored with
  | nil => exact .inl ⟨rfl, by simp only [Sorter.act, view, hlist]⟩
  | cons m rest =>
    obtain ⟨f, hput, hsize, hcontents⟩ := U.put_free s.monfifo m (.inl h.monfifo)
    refine .inr ⟨{ s with monitored := rest, monfifo := f }, ?_, ?_, ?_⟩
    · simp only [hput, Option.map_some]
    · simp only [Sorter.act, view, hlist, hcontents]
    · exact { h with monfifo := hsize.trans h.monfifo }

theorem sorter_simulates (h : Sound U R s) : Simulates U R .sorter s := by
  unfold Simulates
  rw [act_eq h.toReady]
  unfold sortResponses
  cases hholding : s.sorterTr with
  | none =>
    rcases U.get_cases s.monfifo with ⟨hempty, hget⟩ | ⟨m, f, hfront, hget, hsize⟩
    · refine .inl ⟨?_, ?_⟩
      · simp only [hget, Option.map_none]
      · simp only [Sorter.act, view, hholding, hempty]
    · refine .inr ⟨{ s with sorterTr := some m, monfifo := f }, ?_, ?_, ?_⟩
      · simp only [hget, Option.map_some]
      · simp only [Sorter.act, view, hholding, hfront]
      · exact { h.toReady with monfifo := hsize.trans h.monfifo }
  | some m =>
    cases hrequest : R.request m with
    | read =>
      rcases U.put_cases m h.monfifoRead (by decide) with
        ⟨hfull, hput⟩ | ⟨hroom, f, hput, hsize, hcontents⟩
      · refine .inl ⟨?_, ?_⟩
        · simp only [hrequest, hput, Option.map_none]
        · simp only [Sorter.act, view, hholding, hrequest]
          exact if_neg hfull
      · refine .inr ⟨{ s with monfifoRead := f, sorterTr := none }, ?_, ?_, ?_⟩
        · simp only [hrequest, hput, Option.map_some]
        · simp only [Sorter.act, view, hholding, hrequest, hcontents, update_queues_read]
          exact if_pos hroom
        · exact { h.toReady with monfifoRead := hsize }
    | write =>
      rcases U.put_cases m h.monfifoWrite (by decide) with
        ⟨hfull, hput⟩ | ⟨hroom, f, hput, hsize, hcontents⟩
      · refine .inl ⟨?_, ?_⟩
        · simp only [hrequest, hput, Option.map_none]
        · simp only [Sorter.act, view, hholding, hrequest]
          exact if_neg hfull
      · refine .inr ⟨{ s with monfifoWrite := f, sorterTr := none }, ?_, ?_, ?_⟩
        · simp only [hrequest, hput, Option.map_some]
        · simp only [Sorter.act, view, hholding, hrequest, hcontents, update_queues_write]
          exact if_pos hroom
        · exact { h.toReady with monfifoWrite := hsize }
    | idle =>
      refine absurd hrequest (h.responses m ?_)
      simp only [Sorter.unsorted, view, hholding]
      exact List.mem_cons_self

theorem comparator_simulates (h : Sound U R s) : Simulates U R .comparator s := by
  unfold Simulates
  rw [act_eq h.toReady]
  unfold runPhase
  cases hwaiting : s.expTr with
  | none =>
    rcases U.get_cases s.expfifo with ⟨hempty, hget⟩ | ⟨e, f, hfront, hget, hsize⟩
    · refine .inl ⟨?_, ?_⟩
      · simp only [hget, Option.map_none]
      · simp only [Sorter.act, view, hwaiting, hempty]
    · refine .inr ⟨{ s with expTr := some e, expfifo := f }, ?_, ?_, ?_⟩
      · simp only [hget, Option.map_some]
      · simp only [Sorter.act, view, hwaiting, hfront]
      · exact { h.toReady with expfifo := hsize.trans h.expfifo }
  | some e =>
    cases hrequest : R.request e with
    | read =>
      rcases U.get_cases s.monfifoRead with ⟨hempty, hget⟩ | ⟨m, f, hfront, hget, hsize⟩
      · refine .inl ⟨?_, ?_⟩
        · simp only [hrequest, hget, Option.map_none]
        · simp only [Sorter.act, view, hwaiting, hrequest, queues_read, hempty]
      · refine .inr ⟨addTest U R { s with monfifoRead := f } e m, ?_, ?_, ?_⟩
        · simp only [hrequest, hget, Option.map_some]
          rfl
        · simp only [Sorter.act, view, addTest, hwaiting, hrequest, queues_read, hfront,
            update_queues_read, List.map_append]
          rfl
        · exact { h.toReady with monfifoRead := hsize.trans h.monfifoRead }
    | write =>
      rcases U.get_cases s.monfifoWrite with ⟨hempty, hget⟩ | ⟨m, f, hfront, hget, hsize⟩
      · refine .inl ⟨?_, ?_⟩
        · simp only [hrequest, hget, Option.map_none]
        · simp only [Sorter.act, view, hwaiting, hrequest, queues_write, hempty]
      · refine .inr ⟨addTest U R { s with monfifoWrite := f } e m, ?_, ?_, ?_⟩
        · simp only [hrequest, hget, Option.map_some]
          rfl
        · simp only [Sorter.act, view, addTest, hwaiting, hrequest, queues_write, hfront,
            update_queues_write, List.map_append]
          rfl
        · exact { h.toReady with monfifoWrite := hsize.trans h.monfifoWrite }
    | idle =>
      refine absurd hrequest (h.expected e ?_)
      simp only [Sorter.unmatched, view, hwaiting]
      exact List.mem_cons_self

theorem act_simulates (h : Sound U R s) (p : Process) : Simulates U R p s := by
  cases p with
  | predictor => exact predictor_simulates h.toReady
  | monitor => exact monitor_simulates h.toReady
  | sorter => exact sorter_simulates h
  | comparator => exact comparator_simulates h

theorem act_view (p : Process) (s : SbComparator U.Fifo T) (h : Sound U R s) :
    (act U R p s).map (view U) = Sorter.act R.request 10 p (view U s) := by
  rcases act_simulates h p with ⟨hblocked, hsorter⟩ | ⟨s', hact, hsorter, -⟩
  · rw [hblocked, hsorter]
    rfl
  · rw [hact, hsorter]
    rfl

theorem sound_act (p : Process) (s s' : SbComparator U.Fifo T) (h : Sound U R s)
    (hact : act U R p s = some s') : Sound U R s' := by
  rcases act_simulates h p with ⟨hblocked, -⟩ | ⟨next, hnext, hsorter, hready⟩
  · exact absurd (hblocked.symm.trans hact) (Option.some_ne_none s').symm
  · have hsame : s' = next := Option.some.inj (hact.symm.trans hnext)
    rw [hsame]
    refine ⟨hready, ?_, ?_⟩
    · intro e he
      exact h.expected e ((Sorter.unmatched_suffix hsorter).subset he)
    · intro m hm
      exact h.responses m ((Sorter.unsorted_suffix hsorter).subset hm)

theorem sound_buildPhase {E M : List T} (hE : ∀ e ∈ E, R.request e ≠ .idle)
    (hM : ∀ m ∈ M, R.request m ≠ .idle) : Sound U R (buildPhase U E M) where
  fatal := rfl
  expfifo := U.size_new 0
  monfifo := U.size_new 0
  monfifoRead := U.size_new 10
  monfifoWrite := U.size_new 10
  expected := by
    rw [view_buildPhase]
    exact hE
  responses := by
    rw [view_buildPhase]
    exact hM

end

end

end FpgaPartialReconfig.Scoreboard
