/-
  The DDR4 persona and its memory.

  `Memory` is what the persona's commands make of a memory that takes them, and answers its
  reads, in its own time. `cell a w` is what address `a` holds once `w` was written there, so
  that a cell can be bad. A run is made of tests (`Persona.tests`): an address and the word
  that the engine is launched with.

  `Serving` says how far the engine and the memory are with a test. Where no start reloads
  the data of a write that is under way, every test leaves its word in its cell and no other,
  and the performance counter goes up by the tests whose word came back (`serving_at`). The
  write may be made twice on the way, but the read must not, which is the memory's part
  (`ReadCalm`).
-/
import FpgaPartialReconfig.Ddr4.OneEach
import FpgaPartialReconfig.Ddr4.SweepRun
import Mathlib.Logic.Function.Basic

namespace FpgaPartialReconfig.Ddr4

open Clock

/-! ## The memory -/

abbrev Cells := Address → Word → Word

/-- What it holds, and the data of the reads it has not answered. -/
structure Memory where
  contents : Address → Word
  owed : List Word

/-- What a cycle makes of the memory. -/
def Memory.step (cell : Cells) (M : Memory) (p : Persona) (i : PersonaIn) : Memory where
  contents :=
    if p.ddrWrRd.emifAvmmWrite = true ∧ i.emifAvmmWaitrequest = false then
      Function.update M.contents p.ddrWrRd.emifAvmmAddress
        (cell p.ddrWrRd.emifAvmmAddress p.ddrWrRd.emifAvmmWritedata)
    else M.contents
  owed :=
    (if i.emifAvmmReaddatavalid = true then M.owed.tail else M.owed) ++
      if p.ddrWrRd.emifAvmmRead = true ∧ i.emifAvmmWaitrequest = false then
        [M.contents p.ddrWrRd.emifAvmmAddress]
      else []

theorem Memory.step_owed (cell : Cells) (M : Memory) (p : Persona) (i : PersonaIn) :
    (M.step cell p i).owed =
      (if i.emifAvmmReaddatavalid = true then M.owed.tail else M.owed) ++
        if p.ddrWrRd.emifAvmmRead = true ∧ i.emifAvmmWaitrequest = false then
          [M.contents p.ddrWrRd.emifAvmmAddress]
        else [] := rfl

/-- The engine sees that its read was taken a cycle late; until then the memory is not busy,
    and does not answer. -/
def ReadCalm (p : Persona) (i : PersonaIn) : Prop :=
  p.ddrWrRd.currState = .waitReadAccepted → p.ddrWrRd.emifAvmmRead = false →
    i.emifAvmmWaitrequest = false ∧ i.emifAvmmReaddatavalid = false

section
variable (cell : Cells) (M : Memory) (p : Persona) (inp : Nat → PersonaIn)

/-- The memory in a cycle. -/
def Memory.at : Nat → Memory
  | 0 => M
  | t + 1 => (Memory.at t).step cell (p.at inp t) (inp t)

/-- The memory answers with what it owes, takes every command sooner or later and answers
    every read. -/
structure Serves : Prop where
  answers : ∀ t, (inp t).emifAvmmReaddatavalid = true →
    (M.at cell p inp t).owed.head? = some (inp t).emifAvmmReaddata
  calm : ∀ t, ReadCalm (p.at inp t) (inp t)
  takes : ∀ t, ∃ u, t ≤ u ∧ (inp u).emifAvmmWaitrequest = false
  returnsAll : ∀ t, (M.at cell p inp t).owed ≠ [] →
    ∃ u, t ≤ u ∧ (inp u).emifAvmmReaddatavalid = true

end

/-! ## Tests -/

structure Test where
  address : Address
  data : Word
  deriving DecidableEq, Repr

/-- What the engine is launched with. -/
def Persona.tests (p : Persona) (i : PersonaIn) : List Test :=
  if p.launches i then [⟨p.trafficGenerator.targetAddress, p.trafficGenerator.targetData⟩] else []

/-- The tests of the cycles before `t`. -/
def Persona.tested (p : Persona) (inp : Nat → PersonaIn) (t : Nat) : List Test :=
  trace Persona.step p inp Persona.tests t

/-- The test that the engine is at. -/
def Persona.underWay (p : Persona) : List Test :=
  if p.ddrWrRd.currState = .idle then []
  else [⟨p.ddrWrRd.referenceAddr, p.ddrWrRd.referenceData⟩]

/-- The word comes back. -/
def Test.good (cell : Cells) (test : Test) : Bool := decide (cell test.address test.data = test.data)

def Test.store (cell : Cells) (contents : Address → Word) (test : Test) : Address → Word :=
  Function.update contents test.address (cell test.address test.data)

/-- The memory after tests one after another. -/
def stored (cell : Cells) (contents : Address → Word) (tests : List Test) : Address → Word :=
  tests.foldl (Test.store cell) contents

theorem stored_cons (cell : Cells) (contents : Address → Word) (test : Test) (tests : List Test) :
    stored cell contents (test :: tests) = stored cell (test.store cell contents) tests := rfl

theorem stored_other {cell : Cells} {contents : Address → Word} {tests : List Test} {a : Address}
    (ha : a ∉ tests.map Test.address) : stored cell contents tests a = contents a := by
  induction tests generalizing contents with
  | nil => rfl
  | cons test tests ih =>
    rw [List.map_cons, List.mem_cons, not_or] at ha
    rw [stored_cons, ih ha.2]
    exact Function.update_of_ne ha.1 _ _

/-- Tests of different addresses leave each other's words alone. -/
theorem stored_tested {cell : Cells} {contents : Address → Word} {tests : List Test}
    (hdistinct : (tests.map Test.address).Nodup) {test : Test} (htest : test ∈ tests) :
    stored cell contents tests test.address = cell test.address test.data := by
  induction tests generalizing contents with
  | nil => exact absurd htest List.not_mem_nil
  | cons first tests ih =>
    rw [List.map_cons, List.nodup_cons] at hdistinct
    rw [stored_cons]
    rcases List.mem_cons.mp htest with rfl | hmem
    · rw [stored_other hdistinct.1]
      exact Function.update_self _ _ _
    · exact ih hdistinct.2 hmem

/-! ## A test under way -/

/-- What the memory holds once the word of the engine's test is written. -/
def afterTest (cell : Cells) (before : Address → Word) (m : WrRd) : Address → Word :=
  Test.store cell before ⟨m.referenceAddr, m.referenceData⟩

/-- How far engine and memory are, with the contents `before` the test. -/
inductive Serving (cell : Cells) (before : Address → Word) (p : Persona) (M : Memory) : Prop where
  | idle (hstate : p.ddrWrRd.currState = .idle) (hstrobes : p.ddrWrRd.toStrobes = .none)
      (hcontents : M.contents = before) (howed : M.owed = [])
  | writing (hstate : p.ddrWrRd.currState = .write ∨ p.ddrWrRd.currState = .waitWriteDone)
      (hstrobes : p.ddrWrRd.toStrobes = ⟨true, false, false, false⟩)
      (hdata : p.ddrWrRd.emifAvmmWritedata = p.ddrWrRd.referenceData)
      (hkept : p.trafficGenerator.targetData = p.ddrWrRd.referenceData)
      (hcontents : M.contents = before ∨ M.contents = afterTest cell before p.ddrWrRd)
      (howed : M.owed = [])
  | written (hstate : p.ddrWrRd.currState = .waitWriteDone)
      (hstrobes : p.ddrWrRd.toStrobes = .none)
      (hkept : p.trafficGenerator.targetData = p.ddrWrRd.referenceData)
      (hcontents : M.contents = afterTest cell before p.ddrWrRd) (howed : M.owed = [])
  | reading (hstate : p.ddrWrRd.currState = .read ∨ p.ddrWrRd.currState = .waitReadAccepted)
      (hstrobes : p.ddrWrRd.toStrobes = ⟨false, true, false, false⟩)
      (hcontents : M.contents = afterTest cell before p.ddrWrRd) (howed : M.owed = [])
  | accepted
      (hstate : p.ddrWrRd.currState = .waitReadAccepted ∨ p.ddrWrRd.currState = .waitReadDone)
      (hstrobes : p.ddrWrRd.toStrobes = .none)
      (hcontents : M.contents = afterTest cell before p.ddrWrRd)
      (howed : M.owed = [cell p.ddrWrRd.referenceAddr p.ddrWrRd.referenceData])
  | verifying (hstate : p.ddrWrRd.currState = .dataVerification)
      (hstrobes : p.ddrWrRd.toStrobes =
        ⟨false, false,
          Test.good cell ⟨p.ddrWrRd.referenceAddr, p.ddrWrRd.referenceData⟩,
          !Test.good cell ⟨p.ddrWrRd.referenceAddr, p.ddrWrRd.referenceData⟩⟩)
      (hcontents : M.contents = afterTest cell before p.ddrWrRd) (howed : M.owed = [])

section
variable {cell : Cells} {before : Address → Word} {p : Persona} {i : PersonaIn} {M : Memory}

/-- Without a command that is taken, and an answer, nothing happens to the memory. -/
theorem Memory.step_stalled (hread : p.ddrWrRd.emifAvmmRead = false ∨ i.emifAvmmWaitrequest = true)
    (hwrite : p.ddrWrRd.emifAvmmWrite = false ∨ i.emifAvmmWaitrequest = true)
    (hvalid : i.emifAvmmReaddatavalid = false) : M.step cell p i = M := by
  have hnot : ∀ command : Bool, command = false ∨ i.emifAvmmWaitrequest = true →
      ¬ (command = true ∧ i.emifAvmmWaitrequest = false) := by
    intro command hor hand
    rcases hor with hor | hor
    · exact absurd (hor.symm.trans hand.1) (by decide)
    · exact absurd (hor.symm.trans hand.2) (by decide)
  unfold Memory.step
  rw [if_neg (hnot _ hread), if_neg (hnot _ hwrite), hvalid, if_neg (by decide), List.append_nil]

theorem no_answer (hanswers : i.emifAvmmReaddatavalid = true → M.owed.head? = some i.emifAvmmReaddata)
    (howed : M.owed = []) : i.emifAvmmReaddatavalid = false := by
  cases hvalid : i.emifAvmmReaddatavalid with
  | false => rfl
  | true =>
    have hhead := hanswers hvalid
    rw [howed] at hhead
    cases hhead

/-- The engine is in the middle of a write after the cycle. -/
def Writes (p : Persona) (i : PersonaIn) : Prop :=
  p.ddrWrRd.nextState (p.wrRdIn i) = .write ∨ p.ddrWrRd.nextState (p.wrRdIn i) = .waitWriteDone

/-- No start reloads the data of a write that is under way. -/
def KeepsData (p : Persona) (i : PersonaIn) : Prop :=
  Writes p i → ¬ p.trafficGenerator.starts (p.trafficIn i)

theorem KeepsData.step (h : KeepsData p i) (hwrites : Writes p i)
    (hpass : p.ddrWrRd.pass = false) :
    (p.step i).trafficGenerator.targetData = p.trafficGenerator.targetData := by
  have hno : ¬ ((p.trafficIn i).pass = true ∨ p.trafficGenerator.starts (p.trafficIn i)) := by
    rw [show (p.trafficIn i).pass = false from hpass]
    exact fun hor => hor.elim nofun (h hwrites)
  exact if_neg hno

theorem underWay_idle (hidle : p.ddrWrRd.currState = .idle) : p.underWay = [] := if_pos hidle

theorem underWay_busy (hbusy : p.ddrWrRd.currState ≠ .idle) :
    p.underWay = [⟨p.ddrWrRd.referenceAddr, p.ddrWrRd.referenceData⟩] := if_neg hbusy

theorem tests_busy (hbusy : p.ddrWrRd.currState ≠ .idle) : p.tests i = [] :=
  if_neg fun hlaunch => hbusy ((launches_iff p i).mp hlaunch).1

/-- The test goes on. -/
structure GoesOn (cell : Cells) (before : Address → Word) (p : Persona) (i : PersonaIn)
    (M : Memory) : Prop where
  serving : Serving cell before (p.step i) (M.step cell p i)
  pass : p.ddrWrRd.pass = false
  tests : p.underWay ++ p.tests i = (p.step i).underWay

/-- A busy engine that stays busy keeps its test. -/
theorem GoesOn.of_busy (hserving : Serving cell before (p.step i) (M.step cell p i))
    (hpass : p.ddrWrRd.pass = false) (hbusy : p.ddrWrRd.currState ≠ .idle)
    (hnext : (p.step i).ddrWrRd.currState ≠ .idle)
    (haddress : (p.step i).ddrWrRd.referenceAddr = p.ddrWrRd.referenceAddr)
    (hdata : (p.step i).ddrWrRd.referenceData = p.ddrWrRd.referenceData) :
    GoesOn cell before p i M := by
  refine ⟨hserving, hpass, ?_⟩
  rw [underWay_busy hbusy, tests_busy hbusy, underWay_busy hnext, haddress, hdata, List.append_nil]

/-! ## A cycle in each phase -/

theorem idle_goesOn (hi : p.Runs i) (hkeeps : KeepsData p i)
    (hstate : p.ddrWrRd.currState = .idle) (hstrobes : p.ddrWrRd.toStrobes = .none)
    (hcontents : M.contents = before) (howed : M.owed = [])
    (hvalid : i.emifAvmmReaddatavalid = false) : GoesOn cell before p i M := by
  have hmemory : M.step cell p i = M :=
    Memory.step_stalled (.inl (by rw [hstrobes]; rfl)) (.inl (by rw [hstrobes]; rfl)) hvalid
  have hpass : p.ddrWrRd.pass = false := by rw [hstrobes]; rfl
  cases hs : p.trafficGenerator.startDdrWrRd with
  | false =>
    have hstep : (p.step i).ddrWrRd = _ := WrRd.step_idle hi.wrRdIn hstate hs
    have hidle : (p.step i).ddrWrRd.currState = .idle := by rw [hstep]; exact hstate
    have hno : ¬ p.launches i := by
      rw [launches_iff, hs]
      exact fun hparts => nomatch hparts.2
    refine ⟨.idle hidle (by rw [hstep]) (by rw [hmemory]; exact hcontents)
      (by rw [hmemory]; exact howed), hpass, ?_⟩
    rw [underWay_idle hstate, underWay_idle hidle, Persona.tests, if_neg hno]
    rfl
  | true =>
    have hlaunch : p.launches i := (launches_iff p i).mpr ⟨hstate, hs⟩
    have hstep : (p.step i).ddrWrRd = _ := WrRd.step_start hi.wrRdIn hstate hs
    have hbusy : (p.step i).ddrWrRd.currState ≠ .idle := by
      rw [hstep]
      exact nofun
    have hkept := hkeeps.step (.inl hlaunch) hpass
    refine ⟨.writing (.inl (by rw [hstep])) (by rw [hstep]; rfl) (by rw [hstep])
      (by rw [hkept, hstep]; rfl) (.inl (by rw [hmemory]; exact hcontents))
      (by rw [hmemory]; exact howed), hpass, ?_⟩
    rw [underWay_idle hstate, underWay_busy hbusy, hstep, Persona.tests, if_pos hlaunch]
    rfl

/-- The memory takes the write, the first time or again. -/
theorem Memory.step_write (hstrobes : p.ddrWrRd.toStrobes = ⟨true, false, false, false⟩)
    (hdata : p.ddrWrRd.emifAvmmWritedata = p.ddrWrRd.referenceData)
    (hcontents : M.contents = before ∨ M.contents = afterTest cell before p.ddrWrRd)
    (howed : M.owed = []) (hvalid : i.emifAvmmReaddatavalid = false)
    (hwait : i.emifAvmmWaitrequest = false) :
    (M.step cell p i).contents = afterTest cell before p.ddrWrRd ∧ (M.step cell p i).owed = [] := by
  have hwrite : p.ddrWrRd.emifAvmmWrite = true := by rw [hstrobes]
  have hread : p.ddrWrRd.emifAvmmRead = false := by rw [hstrobes]
  refine ⟨?_, by simp [Memory.step, hread, hvalid, howed]⟩
  unfold Memory.step
  rw [if_pos ⟨hwrite, hwait⟩, hdata]
  rcases hcontents with hcontents | hcontents
  · rw [hcontents]
    rfl
  · rw [hcontents]
    exact Function.update_idem _ _ _

theorem writing_goesOn (hi : p.Runs i) (hkeeps : KeepsData p i)
    (hstate : p.ddrWrRd.currState = .write ∨ p.ddrWrRd.currState = .waitWriteDone)
    (hstrobes : p.ddrWrRd.toStrobes = ⟨true, false, false, false⟩)
    (hdata : p.ddrWrRd.emifAvmmWritedata = p.ddrWrRd.referenceData)
    (hkept : p.trafficGenerator.targetData = p.ddrWrRd.referenceData)
    (hcontents : M.contents = before ∨ M.contents = afterTest cell before p.ddrWrRd)
    (howed : M.owed = []) (hvalid : i.emifAvmmReaddatavalid = false) :
    GoesOn cell before p i M := by
  have hpass : p.ddrWrRd.pass = false := by rw [hstrobes]
  have hbusy : p.ddrWrRd.currState ≠ .idle := by
    rcases hstate with hstate | hstate <;> rw [hstate] <;> decide
  cases hwait : i.emifAvmmWaitrequest with
  | true =>
    -- refused: the command stays
    have hwait' : (p.wrRdIn i).emifAvmmWaitrequest = true := hwait
    have hmemory : M.step cell p i = M := Memory.step_stalled (.inr hwait) (.inr hwait) hvalid
    have hstep : (p.step i).ddrWrRd =
        { p.ddrWrRd with
          toStrobes := ⟨true, false, false, false⟩
          currState := .waitWriteDone
          emifAvmmWritedata := p.trafficGenerator.targetData } := by
      rcases hstate with hstate | hstate
      · refine (WrRd.step_write hi.wrRdIn hstate).trans ?_
        rw [hwait']
        rfl
      · refine (WrRd.step_waitWriteDone hi.wrRdIn hstate).trans ?_
        rw [hwait']
        rfl
    have hwrites : Writes p i := by
      refine .inr ?_
      unfold WrRd.nextState
      rcases hstate with hstate | hstate
      · rw [hstate]
      · rw [hstate]
        exact if_pos hwait'
    refine .of_busy (.writing (.inr (by rw [hstep])) (by rw [hstep])
      (by rw [hstep]; exact hkept) ?_ ?_ (by rw [hmemory]; exact howed)) hpass hbusy
      (by rw [hstep]; exact nofun) (by rw [hstep]) (by rw [hstep])
    · rw [hkeeps.step hwrites hpass, hstep]
      exact hkept
    · rw [hmemory, hstep]
      exact hcontents
  | false =>
    have hwait' : (p.wrRdIn i).emifAvmmWaitrequest = false := hwait
    obtain ⟨hafter, howed'⟩ := Memory.step_write hstrobes hdata hcontents howed hvalid hwait
    rcases hstate with hstate | hstate
    · have hstep : (p.step i).ddrWrRd = _ := WrRd.step_write hi.wrRdIn hstate
      rw [hwait'] at hstep
      have hwrites : Writes p i := by
        refine .inr ?_
        unfold WrRd.nextState
        rw [hstate]
      refine .of_busy (.written (by rw [hstep]) (by rw [hstep]; rfl) ?_
        (by rw [hafter, hstep]; rfl) howed') hpass hbusy (by rw [hstep]; exact nofun)
        (by rw [hstep]) (by rw [hstep])
      rw [hkeeps.step hwrites hpass, hstep]
      exact hkept
    · have hstep : (p.step i).ddrWrRd = _ := WrRd.step_waitWriteDone hi.wrRdIn hstate
      rw [hwait'] at hstep
      exact .of_busy (.reading (.inl (by rw [hstep]; rfl)) (by rw [hstep]; rfl)
        (by rw [hafter, hstep]; rfl) howed') hpass hbusy (by rw [hstep]; exact nofun)
        (by rw [hstep]) (by rw [hstep])

/-- Where the engine does not see that its write was taken it makes it again. -/
theorem written_goesOn (hi : p.Runs i) (hkeeps : KeepsData p i)
    (hstate : p.ddrWrRd.currState = .waitWriteDone) (hstrobes : p.ddrWrRd.toStrobes = .none)
    (hkept : p.trafficGenerator.targetData = p.ddrWrRd.referenceData)
    (hcontents : M.contents = afterTest cell before p.ddrWrRd) (howed : M.owed = [])
    (hvalid : i.emifAvmmReaddatavalid = false) : GoesOn cell before p i M := by
  have hpass : p.ddrWrRd.pass = false := by rw [hstrobes]; rfl
  have hbusy : p.ddrWrRd.currState ≠ .idle := by rw [hstate]; decide
  have hmemory : M.step cell p i = M :=
    Memory.step_stalled (.inl (by rw [hstrobes]; rfl)) (.inl (by rw [hstrobes]; rfl)) hvalid
  have hstep : (p.step i).ddrWrRd = _ := WrRd.step_waitWriteDone hi.wrRdIn hstate
  cases hwait : (p.wrRdIn i).emifAvmmWaitrequest with
  | true =>
    rw [hwait] at hstep
    have hwrites : Writes p i := by
      refine .inr ?_
      unfold WrRd.nextState
      rw [hstate]
      exact if_pos hwait
    refine .of_busy (.writing (.inr (by rw [hstep]; rfl)) (by rw [hstep]; rfl)
      (by rw [hstep]; exact hkept) ?_ (.inr (by rw [hmemory, hstep]; exact hcontents))
      (by rw [hmemory]; exact howed)) hpass hbusy (by rw [hstep]; exact nofun)
      (by rw [hstep]) (by rw [hstep])
    rw [hkeeps.step hwrites hpass, hstep]
    exact hkept
  | false =>
    rw [hwait] at hstep
    exact .of_busy (.reading (.inl (by rw [hstep]; rfl)) (by rw [hstep]; rfl)
      (by rw [hmemory, hstep]; exact hcontents) (by rw [hmemory]; exact howed)) hpass hbusy
      (by rw [hstep]; exact nofun) (by rw [hstep]) (by rw [hstep])

theorem reading_goesOn (hi : p.Runs i)
    (hstate : p.ddrWrRd.currState = .read ∨ p.ddrWrRd.currState = .waitReadAccepted)
    (hstrobes : p.ddrWrRd.toStrobes = ⟨false, true, false, false⟩)
    (hcontents : M.contents = afterTest cell before p.ddrWrRd) (howed : M.owed = [])
    (hvalid : i.emifAvmmReaddatavalid = false) : GoesOn cell before p i M := by
  have hpass : p.ddrWrRd.pass = false := by rw [hstrobes]
  have hread : p.ddrWrRd.emifAvmmRead = true := by rw [hstrobes]
  have hwrite : p.ddrWrRd.emifAvmmWrite = false := by rw [hstrobes]
  have hbusy : p.ddrWrRd.currState ≠ .idle := by
    rcases hstate with hstate | hstate <;> rw [hstate] <;> decide
  cases hwait : i.emifAvmmWaitrequest with
  | true =>
    have hwait' : (p.wrRdIn i).emifAvmmWaitrequest = true := hwait
    have hmemory : M.step cell p i = M := Memory.step_stalled (.inr hwait) (.inr hwait) hvalid
    have hstep : (p.step i).ddrWrRd =
        { p.ddrWrRd with
          toStrobes := ⟨false, true, false, false⟩
          currState := .waitReadAccepted
          emifAvmmWritedata := p.trafficGenerator.targetData } := by
      rcases hstate with hstate | hstate
      · refine (WrRd.step_read hi.wrRdIn hstate).trans ?_
        rw [hwait']
        rfl
      · refine (WrRd.step_waitReadAccepted hi.wrRdIn hstate).trans ?_
        rw [hwait']
        rfl
    exact .of_busy (.reading (.inr (by rw [hstep])) (by rw [hstep])
      (by rw [hmemory, hstep]; exact hcontents) (by rw [hmemory]; exact howed)) hpass hbusy
      (by rw [hstep]; exact nofun) (by rw [hstep]) (by rw [hstep])
  | false =>
    have hwait' : (p.wrRdIn i).emifAvmmWaitrequest = false := hwait
    have hkeeps : (M.step cell p i).contents = M.contents := if_neg (by rw [hwrite]; exact nofun)
    -- what is read is what the test has just stored
    have howes : (M.step cell p i).owed =
        [cell p.ddrWrRd.referenceAddr p.ddrWrRd.referenceData] := by
      rw [Memory.step_owed, hvalid, if_neg (by decide), if_pos ⟨hread, hwait⟩, howed, hcontents]
      exact congrArg (fun w => [w]) (Function.update_self _ _ _)
    rcases hstate with hstate | hstate
    · have hstep : (p.step i).ddrWrRd = _ := WrRd.step_read hi.wrRdIn hstate
      rw [hwait'] at hstep
      exact .of_busy (.accepted (.inl (by rw [hstep])) (by rw [hstep]; rfl)
        (by rw [hkeeps, hstep]; exact hcontents) (by rw [howes, hstep])) hpass hbusy
        (by rw [hstep]; exact nofun) (by rw [hstep]) (by rw [hstep])
    · have hstep : (p.step i).ddrWrRd = _ := WrRd.step_waitReadAccepted hi.wrRdIn hstate
      rw [hwait'] at hstep
      exact .of_busy (.accepted (.inr (by rw [hstep]; rfl)) (by rw [hstep]; rfl)
        (by rw [hkeeps, hstep]; exact hcontents) (by rw [howes, hstep])) hpass hbusy
        (by rw [hstep]; exact nofun) (by rw [hstep]) (by rw [hstep])

theorem accepted_goesOn (hi : p.Runs i) (hcalm : ReadCalm p i)
    (hanswers : i.emifAvmmReaddatavalid = true → M.owed.head? = some i.emifAvmmReaddata)
    (hstate : p.ddrWrRd.currState = .waitReadAccepted ∨ p.ddrWrRd.currState = .waitReadDone)
    (hstrobes : p.ddrWrRd.toStrobes = .none)
    (hcontents : M.contents = afterTest cell before p.ddrWrRd)
    (howed : M.owed = [cell p.ddrWrRd.referenceAddr p.ddrWrRd.referenceData]) :
    GoesOn cell before p i M := by
  have hpass : p.ddrWrRd.pass = false := by rw [hstrobes]; rfl
  have hread : p.ddrWrRd.emifAvmmRead = false := by rw [hstrobes]; rfl
  have hwrite : p.ddrWrRd.emifAvmmWrite = false := by rw [hstrobes]; rfl
  have hbusy : p.ddrWrRd.currState ≠ .idle := by
    rcases hstate with hstate | hstate <;> rw [hstate] <;> decide
  rcases hstate with hstate | hstate
  · obtain ⟨hwait, hvalid⟩ := hcalm hstate hread
    have hwait' : (p.wrRdIn i).emifAvmmWaitrequest = false := hwait
    have hmemory : M.step cell p i = M := Memory.step_stalled (.inl hread) (.inl hwrite) hvalid
    have hstep : (p.step i).ddrWrRd = _ := WrRd.step_waitReadAccepted hi.wrRdIn hstate
    rw [hwait'] at hstep
    exact .of_busy (.accepted (.inr (by rw [hstep]; rfl)) (by rw [hstep]; rfl)
      (by rw [hmemory, hstep]; exact hcontents) (by rw [hmemory, hstep]; exact howed)) hpass hbusy
      (by rw [hstep]; exact nofun) (by rw [hstep]) (by rw [hstep])
  · cases hvalid : i.emifAvmmReaddatavalid with
    | false =>
      have hmemory : M.step cell p i = M := Memory.step_stalled (.inl hread) (.inl hwrite) hvalid
      have hstep : (p.step i).ddrWrRd = _ := WrRd.step_waitReadDone hi.wrRdIn hstate hvalid
      exact .of_busy (.accepted (.inr (by rw [hstep]; exact hstate)) (by rw [hstep])
        (by rw [hmemory, hstep]; exact hcontents) (by rw [hmemory, hstep]; exact howed)) hpass
        hbusy (by rw [hstep]; exact hbusy) (by rw [hstep]) (by rw [hstep])
    | true =>
      have hdata : i.emifAvmmReaddata =
          cell p.ddrWrRd.referenceAddr p.ddrWrRd.referenceData := by
        have hhead := hanswers hvalid
        rw [howed] at hhead
        exact (Option.some.inj hhead).symm
      have hkeeps : (M.step cell p i).contents = M.contents := if_neg (by rw [hwrite]; exact nofun)
      have hnone : (M.step cell p i).owed = [] := by
        rw [Memory.step_owed, if_pos hvalid, if_neg (by rw [hread]; exact nofun), howed]
        rfl
      have hstep : (p.step i).ddrWrRd = _ := WrRd.step_returned hi.wrRdIn hstate hvalid
      rw [show (p.wrRdIn i).emifAvmmReaddata = _ from hdata] at hstep
      exact .of_busy (.verifying (by rw [hstep]) (by rw [hstep]; rfl)
        (by rw [hkeeps, hstep]; exact hcontents) hnone) hpass hbusy (by rw [hstep]; exact nofun)
        (by rw [hstep]) (by rw [hstep])

/-- The verdict ends the test. -/
theorem verifying_ends (hi : p.Runs i) (hstate : p.ddrWrRd.currState = .dataVerification)
    (hstrobes : p.ddrWrRd.toStrobes =
      ⟨false, false, Test.good cell ⟨p.ddrWrRd.referenceAddr, p.ddrWrRd.referenceData⟩,
        !Test.good cell ⟨p.ddrWrRd.referenceAddr, p.ddrWrRd.referenceData⟩⟩)
    (hcontents : M.contents = afterTest cell before p.ddrWrRd) (howed : M.owed = [])
    (hvalid : i.emifAvmmReaddatavalid = false) :
    Serving cell (afterTest cell before p.ddrWrRd) (p.step i) (M.step cell p i) := by
  have hmemory : M.step cell p i = M :=
    Memory.step_stalled (.inl (by rw [hstrobes])) (.inl (by rw [hstrobes])) hvalid
  have hdone : p.ddrWrRd.done = true := by
    unfold WrRd.done
    rw [hstrobes]
    exact Bool.or_not_self _
  have hstep : (p.step i).ddrWrRd = _ := WrRd.step_verified hi.wrRdIn hstate hdone
  exact .idle (by rw [hstep]) (by rw [hstep]) (by rw [hmemory]; exact hcontents)
    (by rw [hmemory]; exact howed)

/-- A cycle takes the test on, or ends it. -/
theorem Serving.step (h : Serving cell before p M) (hi : p.Runs i) (hkeeps : KeepsData p i)
    (hcalm : ReadCalm p i)
    (hanswers : i.emifAvmmReaddatavalid = true → M.owed.head? = some i.emifAvmmReaddata) :
    GoesOn cell before p i M ∨
      ∃ test, p.underWay = [test] ∧ p.tests i = [] ∧ (p.step i).underWay = [] ∧
        p.ddrWrRd.pass = test.good cell ∧
        Serving cell (test.store cell before) (p.step i) (M.step cell p i) := by
  cases h with
  | idle hstate hstrobes hcontents howed =>
    exact .inl (idle_goesOn hi hkeeps hstate hstrobes hcontents howed (no_answer hanswers howed))
  | writing hstate hstrobes hdata hkept hcontents howed =>
    exact .inl (writing_goesOn hi hkeeps hstate hstrobes hdata hkept hcontents howed
      (no_answer hanswers howed))
  | written hstate hstrobes hkept hcontents howed =>
    exact .inl (written_goesOn hi hkeeps hstate hstrobes hkept hcontents howed
      (no_answer hanswers howed))
  | reading hstate hstrobes hcontents howed =>
    exact .inl (reading_goesOn hi hstate hstrobes hcontents howed (no_answer hanswers howed))
  | accepted hstate hstrobes hcontents howed =>
    exact .inl (accepted_goesOn hi hcalm hanswers hstate hstrobes hcontents howed)
  | verifying hstate hstrobes hcontents howed =>
    have hbusy : p.ddrWrRd.currState ≠ .idle := by rw [hstate]; decide
    have hnext := verifying_ends hi hstate hstrobes hcontents howed (no_answer hanswers howed)
    have hidle : (p.step i).ddrWrRd.currState = .idle := by
      have hdone : p.ddrWrRd.done = true := by
        unfold WrRd.done
        rw [hstrobes]
        exact Bool.or_not_self _
      have hstep : (p.step i).ddrWrRd = _ := WrRd.step_verified hi.wrRdIn hstate hdone
      rw [hstep]
    refine .inr ⟨_, underWay_busy hbusy, tests_busy hbusy, underWay_idle hidle, ?_, hnext⟩
    rw [hstrobes]

theorem Serving.contents_idle (h : Serving cell before p M) (hidle : p.ddrWrRd.currState = .idle) :
    M.contents = before := by
  cases h with
  | idle _ _ hcontents => exact hcontents
  | writing hstate => rcases hstate with hstate | hstate <;> rw [hstate] at hidle <;> cases hidle
  | written hstate => rw [hstate] at hidle; cases hidle
  | reading hstate => rcases hstate with hstate | hstate <;> rw [hstate] at hidle <;> cases hidle
  | accepted hstate => rcases hstate with hstate | hstate <;> rw [hstate] at hidle <;> cases hidle
  | verifying hstate => rw [hstate] at hidle; cases hidle

end

/-! ## The writes that are taken -/

/-- How often the memory may have taken the write of the operation. A write that is taken
    where the engine does not see it is made once more, and that one it sees. -/
def WrRd.taken (m : WrRd) : List Nat :=
  match m.currState with
  | .idle | .write => [0]
  | .waitWriteDone => if m.emifAvmmWrite = true then [0, 1] else [1]
  | _ => [1, 2]

theorem WrRd.taken_step {m : WrRd} {i : WrRdIn} (hwf : m.Wf) (hi : i.Runs)
    (hfirst : m.currState = .write → m.emifAvmmWrite = true)
    (hgoes : m.currState ≠ .dataVerification) {n : Nat} (hn : n ∈ m.taken) :
    n + (if m.emifAvmmWrite = true ∧ i.emifAvmmWaitrequest = false then 1 else 0) ∈
      (m.step i).taken := by
  have hlow : m.currState ≠ .write → m.currState ≠ .waitWriteDone → m.emifAvmmWrite = false := by
    intro hne hne'
    cases hwrite : m.emifAvmmWrite with
    | false => rfl
    | true => exact ((hwf.write hwrite).elim hne hne').elim
  rw [step_runs hi]
  unfold taken at hn ⊢
  cases hstate : m.currState with
  | idle =>
    cases hs : i.startDdrWrRd <;> simp_all [nextState]
  | write =>
    cases hwait : i.emifAvmmWaitrequest <;> simp_all [nextState, nextStrobes]
  | waitWriteDone =>
    cases hwait : i.emifAvmmWaitrequest <;> cases hwrite : m.emifAvmmWrite <;>
      simp_all [nextState, nextStrobes]
  | read => simp_all [nextState]
  | waitReadAccepted =>
    cases hwait : i.emifAvmmWaitrequest <;> simp_all [nextState]
  | waitReadDone =>
    cases hvalid : i.emifAvmmReaddatavalid <;> simp_all [nextState]
  | dataVerification => exact absurd hstate hgoes
  | undefined => exact absurd hstate hwf.defined

/-- The write that the memory takes in the cycle. -/
def Persona.writes (p : Persona) (i : PersonaIn) : List Test :=
  if p.ddrWrRd.emifAvmmWrite = true ∧ i.emifAvmmWaitrequest = false then
    [⟨p.ddrWrRd.emifAvmmAddress, p.ddrWrRd.emifAvmmWritedata⟩]
  else []

/-- The writes that the memory takes in the cycles before `t`. -/
def Persona.written (p : Persona) (inp : Nat → PersonaIn) (t : Nat) : List Test :=
  trace Persona.step p inp Persona.writes t

section
variable {cell : Cells} {before : Address → Word} {p : Persona} {i : PersonaIn} {M : Memory}

/-- It is that of the test under way. -/
theorem Serving.writes (h : Serving cell before p M) : p.writes i =
    (List.replicate
      (if p.ddrWrRd.emifAvmmWrite = true ∧ i.emifAvmmWaitrequest = false then 1 else 0)
      p.underWay).flatten := by
  unfold Persona.writes
  by_cases hwrite : p.ddrWrRd.emifAvmmWrite = true ∧ i.emifAvmmWaitrequest = false
  · rw [if_pos hwrite, if_pos hwrite]
    cases h with
    | writing hstate _ hdata =>
      have hbusy : p.ddrWrRd.currState ≠ .idle := by
        rcases hstate with hstate | hstate <;> rw [hstate] <;> decide
      rw [underWay_busy hbusy, hdata]
      rfl
    | idle _ hstrobes => rw [hstrobes] at hwrite; cases hwrite.1
    | written _ hstrobes => rw [hstrobes] at hwrite; cases hwrite.1
    | reading _ hstrobes => rw [hstrobes] at hwrite; cases hwrite.1
    | accepted _ hstrobes => rw [hstrobes] at hwrite; cases hwrite.1
    | verifying _ hstrobes => rw [hstrobes] at hwrite; cases hwrite.1
  · rw [if_neg hwrite, if_neg hwrite]
    rfl

theorem Serving.write_first (h : Serving cell before p M)
    (hstate : p.ddrWrRd.currState = .write) : p.ddrWrRd.emifAvmmWrite = true := by
  cases h with
  | writing _ hstrobes => rw [hstrobes]
  | idle hother => rw [hstate] at hother; cases hother
  | written hother => rw [hstate] at hother; cases hother
  | reading hother => rcases hother with hother | hother <;> rw [hstate] at hother <;> cases hother
  | accepted hother => rcases hother with hother | hother <;> rw [hstate] at hother <;> cases hother
  | verifying hother => rw [hstate] at hother; cases hother

end

section
variable {cell : Cells} {before : Address → Word} {p : Persona} {i : PersonaIn} {M : Memory}

/-- In a cycle that takes the test on. -/
theorem GoesOn.writes (h : GoesOn cell before p i M) (hserving : Serving cell before p M)
    (hi : p.Runs i) (hwf : p.ddrWrRd.Wf) {n : Nat} (hn : n ∈ p.ddrWrRd.taken) :
    ∃ n' ∈ (p.step i).ddrWrRd.taken, (List.replicate n p.underWay).flatten ++ p.writes i =
      (List.replicate n' (p.step i).underWay).flatten := by
  have hgoes : p.ddrWrRd.currState ≠ .dataVerification := by
    intro hverify
    have hbusy : p.ddrWrRd.currState ≠ .idle := by rw [hverify]; decide
    have hidle : (p.step i).ddrWrRd.currState = .idle :=
      (hwf.busy_step hi.wrRdIn hbusy).1.mpr (hwf.done.mpr hverify)
    have htests := h.tests
    rw [underWay_idle hidle, underWay_busy hbusy] at htests
    cases htests
  refine ⟨_, WrRd.taken_step hwf hi.wrRdIn hserving.write_first hgoes hn, ?_⟩
  rw [hserving.writes, ← List.flatten_append, List.replicate_append_replicate]
  by_cases hidle : p.ddrWrRd.currState = .idle
  · -- nothing is taken, whatever test is launched
    have hzero : n = 0 := by
      unfold WrRd.taken at hn
      rw [hidle] at hn
      exact List.mem_singleton.mp hn
    have hlow : p.ddrWrRd.emifAvmmWrite = false := by
      by_contra hhigh
      rcases hwf.write (by simpa using hhigh) with hstate | hstate <;> rw [hidle] at hstate <;>
        cases hstate
    rw [hzero, hlow]
    rfl
  · have htests := h.tests
    rw [tests_busy hidle, List.append_nil] at htests
    rw [htests]
    rfl

/-- In the cycle that ends it. -/
theorem writes_of_end (hi : p.Runs i) (hwf : p.ddrWrRd.Wf) {n : Nat}
    (hn : n ∈ p.ddrWrRd.taken) {test : Test} (hunder : p.underWay = [test])
    (hover : (p.step i).underWay = []) :
    (n = 1 ∨ n = 2) ∧ p.writes i = [] ∧ 0 ∈ (p.step i).ddrWrRd.taken := by
  have hbusy : p.ddrWrRd.currState ≠ .idle := by
    intro hidle
    rw [underWay_idle hidle] at hunder
    cases hunder
  have hidle : (p.step i).ddrWrRd.currState = .idle := by
    by_contra hnext
    rw [underWay_busy hnext] at hover
    cases hover
  have hverify := hwf.done.mp ((hwf.busy_step hi.wrRdIn hbusy).1.mp hidle)
  have hlow : ¬ (p.ddrWrRd.emifAvmmWrite = true ∧ i.emifAvmmWaitrequest = false) := by
    intro hparts
    rcases hwf.write hparts.1 with hstate | hstate <;> rw [hverify] at hstate <;> cases hstate
  unfold WrRd.taken at hn ⊢
  rw [hverify] at hn
  rw [hidle]
  exact ⟨by simpa using hn, if_neg hlow, List.mem_singleton_self 0⟩

end

/-- The writes of tests one after another, each taken once or twice. -/
inductive OnceOrTwice : List Test → List Test → Prop where
  | nil : OnceOrTwice [] []
  | snoc {tests ws : List Test} (h : OnceOrTwice tests ws) (test : Test) (n : Nat)
      (hn : n = 1 ∨ n = 2) : OnceOrTwice (tests ++ [test]) (ws ++ List.replicate n test)

theorem OnceOrTwice.times {tests ws : List Test} (h : OnceOrTwice tests ws) {test : Nat → Test}
    {n : Nat} (htests : tests = (List.range n).map test) :
    ∃ times : Nat → Nat, (∀ k, times k = 1 ∨ times k = 2) ∧
      ws = (List.range n).flatMap fun k => List.replicate (times k) (test k) := by
  induction h generalizing n with
  | nil =>
    obtain rfl : n = 0 := by
      have hlength := congrArg List.length htests
      simpa using hlength.symm
    exact ⟨fun _ => 1, fun _ => .inl rfl, rfl⟩
  | snoc h last count hcount ih =>
    obtain ⟨n, rfl⟩ : ∃ m, n = m + 1 := by
      refine ⟨n - 1, ?_⟩
      have hlength := congrArg List.length htests
      simp at hlength
      omega
    rw [List.range_succ, List.map_append] at htests
    obtain ⟨hbefore, hlast⟩ := List.append_inj' htests rfl
    obtain rfl : last = test n := (List.cons.inj hlast).1
    obtain ⟨times, htimes, hws⟩ := ih hbefore
    refine ⟨Function.update times n count, fun k => ?_, ?_⟩
    · by_cases hk : k = n
      · rw [hk, Function.update_self]
        exact hcount
      · rw [Function.update_of_ne hk]
        exact htimes k
    · have hkept : (List.range n).flatMap (fun k => List.replicate (times k) (test k)) =
          (List.range n).flatMap
            fun k => List.replicate (Function.update times n count k) (test k) := by
        refine List.flatMap_congr fun k hk => ?_
        rw [Function.update_of_ne (Nat.ne_of_lt (List.mem_range.mp hk))]
      rw [hws, hkept, List.range_succ, List.flatMap_append, List.flatMap_singleton,
        Function.update_self]

/-! ## Runs -/

section
variable {cell : Cells} {p : Persona} {inp : Nat → PersonaIn} {M : Memory}

/-- The launches are those of the tests. -/
theorem tested_addresses (p : Persona) (inp : Nat → PersonaIn) (t : Nat) :
    (p.tested inp t).map Test.address = launched (p.marked inp t) := by
  induction t with
  | zero => rfl
  | succ t ih =>
    rw [Persona.tested, trace_succ, ← Persona.tested, List.map_append, ih, launched_succ]
    refine congrArg (launched (p.marked inp t) ++ ·) ?_
    show ((p.at inp t).tests (inp t)).map Test.address = _
    by_cases hlaunch : (p.at inp t).launches (inp t)
    · unfold Persona.tests Persona.marks
      rw [if_pos hlaunch, if_pos hlaunch, launched_append]
      split <;> rfl
    · rw [Persona.tests, if_neg hlaunch, launched_marks_of_not hlaunch]
      rfl

/-- The tests that are over, of which the counter counts the good ones. -/
structure Tested (cell : Cells) (p : Persona) (inp : Nat → PersonaIn) (M : Memory) (t : Nat)
    (tests : List Test) : Prop where
  serving : Serving cell (stored cell M.contents tests) (p.at inp t) (M.at cell p inp t)
  tested : p.tested inp t = tests ++ (p.at inp t).underWay
  counter : (p.at inp t).performanceCntr =
    p.performanceCntr + BitVec.ofNat 32 (tests.countP (Test.good cell))
  written : ∃ ws, OnceOrTwice tests ws ∧ ∃ n ∈ (p.at inp t).ddrWrRd.taken,
    p.written inp t = ws ++ (List.replicate n (p.at inp t).underWay).flatten

/-- Every run is one test after another. -/
theorem serving_at (hidle : p.ddrWrRd.currState = .idle) (hstrobes : p.ddrWrRd.toStrobes = .none)
    (howed : M.owed = []) (hruns : ∀ t, (p.at inp t).Runs (inp t))
    (hkeeps : ∀ t, KeepsData (p.at inp t) (inp t)) (hserves : Serves cell M p inp) (t : Nat) :
    ∃ tests, Tested cell p inp M t tests := by
  induction t with
  | zero =>
    refine ⟨[], .idle hidle hstrobes rfl howed, ?_, (BitVec.add_zero _).symm, [], .nil, 0, ?_, rfl⟩
    · exact (underWay_idle hidle).symm
    · show 0 ∈ p.ddrWrRd.taken
      unfold WrRd.taken
      rw [hidle]
      exact List.mem_singleton_self 0
  | succ t ih =>
    obtain ⟨tests, hserving, htested, hcounter, ws, hws, n, hn, hwritten⟩ := ih
    have hwf : (p.at inp t).ddrWrRd.Wf := wf_at (WrRd.IsReset.wf ⟨hidle, hstrobes⟩) t
    have hmore : p.written inp (t + 1) =
        ws ++ ((List.replicate n (p.at inp t).underWay).flatten ++ (p.at inp t).writes (inp t)) := by
      rw [Persona.written, trace_succ, ← Persona.written, hwritten, List.append_assoc]
      rfl
    have hnext : p.tested inp (t + 1) = tests ++ ((p.at inp t).underWay ++
        (p.at inp t).tests (inp t)) := by
      rw [Persona.tested, trace_succ, ← Persona.tested, htested, List.append_assoc]
      rfl
    have hcount : (p.at inp (t + 1)).performanceCntr =
        if (p.at inp t).ddrWrRd.pass = true then (p.at inp t).performanceCntr + 1
        else (p.at inp t).performanceCntr := Persona.step_performanceCntr (hruns t)
    rcases hserving.step (hruns t) (hkeeps t) (hserves.calm t) (hserves.answers t) with
      hgoes | ⟨test, hunder, hnone, hover, hpass, hnow⟩
    · obtain ⟨n', hn', hwrites⟩ := hgoes.writes hserving (hruns t) hwf hn
      refine ⟨tests, hgoes.serving, hnext.trans (congrArg (tests ++ ·) hgoes.tests), ?_, ws, hws,
        n', hn', hmore.trans (congrArg (ws ++ ·) hwrites)⟩
      rw [hcount, hgoes.pass, if_neg (by decide), hcounter]
    · obtain ⟨hcounted, hnothing, hzero⟩ := writes_of_end (hruns t) hwf hn hunder hover
      refine ⟨tests ++ [test], ?_, ?_, ?_, _, hws.snoc test n hcounted, 0, hzero, ?_⟩
      · unfold stored
        rw [List.foldl_append]
        exact hnow
      · rw [hnext, hunder, hnone, show (p.at inp (t + 1)).underWay = [] from hover]
        simp
      · rw [hcount, hpass, hcounter, List.countP_append, List.countP_singleton]
        cases hgood : test.good cell with
        | true => rw [if_pos rfl, if_pos rfl, BitVec.ofNat_add, BitVec.add_assoc]; rfl
        | false => rw [if_neg nofun, if_neg nofun, Nat.add_zero]
      · rw [hmore, hunder, hnothing]
        simp

end

end FpgaPartialReconfig.Ddr4
