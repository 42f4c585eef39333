/-
  Reading the egress FIFOs.

  A read strobe goes to its control through a pipe as a write strobe does, and counts the read
  address on. The FIFO puts what it holds at the address on `q`, the pipe takes it to the other
  side, and it leaves through a register there.

  The two pipes together are as long for every island: what is on the lanes is what was at the
  address of the strobes of 10 cycles before (`egress_shows`). For the eight islands whose
  control is a stage nearer (`late_islands`) it is 9 cycles.

  The FIFO is generated from `mlab_fifo.ip` and is a parameter (`EgressFifo`), and so is what
  the design does at its write port.
-/
import FpgaPartialReconfig.SoftNoc.Egress

namespace FpgaPartialReconfig.SoftNoc

open Clock

abbrev Egress := {q : (Record × Record) × Record // q ∈ egressIslands records}

/-- The lanes that leave the chip. No value: nothing is assigned to the bit. -/
abbrev OutBuses := Side → (Nat × Nat) → Nat → Option Bool

namespace Egress

variable (e : Egress)

def egress : Record := e.val.2

theorem mem_egress : e.egress ∈ SoftNoc.egress records := (mem_egressIslands.mp e.property).1

/-- The island with the control. -/
def island : Island := ⟨e.val.1, List.mem_of_find?_eq_some (mem_egressIslands.mp e.property).2⟩

theorem eq_of_egress {e e' : Egress} (h : e.egress = e'.egress) : e = e' := by
  obtain ⟨⟨p, r⟩, hq⟩ := e
  obtain ⟨⟨p', r'⟩, hq'⟩ := e'
  have hr : r = r' := h
  subst hr
  have hp := (mem_egressIslands.mp hq).2.symm.trans (mem_egressIslands.mp hq').2
  cases hp
  rfl

/-- Its lanes show `w`. -/
def Shows (out : OutBuses) (w : BitVec 20) : Prop :=
  (∀ k ≤ 10, out e.egress.outSide e.egress.bus0 k = some (w.getLsbD (k + 9))) ∧
    ∀ k, 2 ≤ k → k ≤ 10 → out e.egress.outSide e.egress.bus1 k = some (w.getLsbD (k - 2))

/-- From a strobe on the bus to the lanes on the other side. -/
def latency : Nat := e.island.latency + 1 + e.egress.egressPipeDepth + 1

theorem latency_eq :
    e.latency = if e.island.control.stage = e.island.ingress.stage then 10 else 9 := by
  obtain ⟨hstage, hegress, hcontrol⟩ := egress_inStep e.property
  have hdepth : e.egress.egressPipeDepth = 6 - e.egress.stage + 1 := by
    unfold Record.egressPipeDepth
    cases e.egress.busName <;> rfl
  have hcontrol' : e.island.control.stage = e.island.ingress.stage ∨
      e.island.control.stage + 1 = e.island.ingress.stage := hcontrol
  have hegress' : e.island.ingress.stage + 1 = e.egress.stage := hegress
  have hstage' : e.egress.stage ≤ 6 := hstage
  unfold latency Island.latency Record.pipeDepth
  rw [hdepth]
  split <;> omega

end Egress

/-! ## The top level -/

/-- `mlab_fifo`, with the read port on `bus_clock`. Its parameters have the output registered and
    the read address not, and promise nothing of a place that is written to while it is read. -/
structure EgressFifo where
  Fifo : Type
  /-- What the design does at the write port in a cycle of `bus_clock`. -/
  Write : Type
  writes : Write → BitVec 5 → Prop
  step : Fifo → Write → BitVec 5 → Fifo
  held : Fifo → BitVec 5 → BitVec 20
  q : Fifo → BitVec 20
  q_step : ∀ f w raddr, ¬ writes w raddr → q (step f w raddr) = held f raddr

structure EgressState (F : EgressFifo) (e : Egress) where
  fifo : F.Fifo
  busRdataPipe : BusPipe (BitVec 20) e.egress.egressPipeDepth

def EgressState.busRdataIn {F : EgressFifo} {e : Egress} (s : EgressState F e) : BitVec 20 :=
  F.q s.fifo

structure Noc (F : EgressFifo) where
  top : Top
  egress : (e : Egress) → EgressState F e
  out : OutBuses

/-- The lanes, and the write ports of the egress FIFOs. -/
abbrev NocInput (F : EgressFifo) := Buses × (Egress → F.Write)

variable {F : EgressFifo}

namespace Noc

def raddr (noc : Noc F) (p : Island) : BitVec 5 := (noc.top.island p).fifoControl.raddr

def incrRaddr (noc : Noc F) (p : Island) : Bool := (noc.top.island p).incrRaddr noc.top.inReg

def busRdataOut (noc : Noc F) (e : Egress) : BitVec 20 :=
  (noc.egress e).busRdataPipe.out (noc.egress e).busRdataIn

/-- What is assigned to `north_out_reg` and the others. -/
def outReg (noc : Noc F) : OutBuses := fun side place k =>
  (egressIslands records).attach.findSome? fun e =>
    (e.val.2.assigned side place k).map (noc.busRdataOut e).getLsbD

/-- What the island's FIFO holds. -/
def held (noc : Noc F) (e : Egress) : BitVec 5 → BitVec 20 := F.held (noc.egress e).fifo

def step (noc : Noc F) (i : NocInput F) : Noc F where
  top := noc.top.step i.1
  egress e :=
    { fifo := F.step (noc.egress e).fifo (i.2 e) (noc.raddr e.island)
      busRdataPipe := (noc.egress e).busRdataPipe.step (noc.egress e).busRdataIn }
  out := noc.outReg

/-- Nothing has been read yet: the read address is 0, and no strobe is under way. -/
structure Fresh (noc : Noc F) (p : Island) : Prop where
  raddr : noc.raddr p = 0
  pipe : ∀ i, (noc.top.island p).incrRaddrPipe i = false
  inReg : p.readStrobe noc.top.inReg = false

end Noc

def Noc.at (noc : Noc F) (inp : Nat → NocInput F) (t : Nat) : Noc F := cycles Noc.step noc inp t

/-- The cycles before `t` in which the island's read strobe is on the bus. -/
def reads (p : Island) (inp : Nat → NocInput F) (t : Nat) : Nat :=
  (List.range t).countP fun s => p.readStrobe (inp s).1

theorem reads_succ (p : Island) (inp : Nat → NocInput F) (t : Nat) :
    reads p inp (t + 1) = reads p inp t + if p.readStrobe (inp t).1 = true then 1 else 0 := by
  unfold reads
  rw [List.range_succ, List.countP_append, List.countP_singleton]

/-! ## The strobes -/

section
variable {noc : Noc F} {p : Island} {inp : Nat → NocInput F}

theorem incrRaddr_delayed (t : Nat) :
    (noc.at inp (t + p.control.pipeDepth)).incrRaddr p =
      p.readStrobe (noc.at inp t).top.inReg :=
  BusPipe.out_delayed (fun u => ((noc.at inp u).top.island p).incrRaddrPipe)
    (fun u => p.readStrobe (noc.at inp u).top.inReg) (fun _ => rfl) t

theorem incrRaddr_at (t : Nat) :
    (noc.at inp (t + p.latency)).incrRaddr p = p.readStrobe (inp t).1 := by
  have hcycle : t + p.latency = t + 1 + p.control.pipeDepth := by
    unfold Island.latency
    omega
  rw [hcycle, incrRaddr_delayed]
  rfl

theorem incrRaddr_early (h : noc.Fresh p) {t : Nat} (ht : t < p.latency) :
    (noc.at inp t).incrRaddr p = false := by
  unfold Island.latency at ht
  by_cases hlast : t = p.control.pipeDepth
  · have hdelayed := @incrRaddr_delayed F noc p inp 0
    rw [Nat.zero_add] at hdelayed
    rw [hlast, hdelayed]
    exact h.inReg
  · have hpipe := BusPipe.out_early (fun u => ((noc.at inp u).top.island p).incrRaddrPipe)
      (fun u => p.readStrobe (noc.at inp u).top.inReg) (fun _ => rfl)
      (show t < p.control.pipeDepth by omega)
    exact hpipe.trans (h.pipe _)

theorem step_raddr (t : Nat) :
    (noc.at inp (t + 1)).raddr p =
      if (noc.at inp t).incrRaddr p = true then (noc.at inp t).raddr p + 1
      else (noc.at inp t).raddr p := rfl

theorem raddr_early (h : noc.Fresh p) {t : Nat} (ht : t ≤ p.latency) :
    (noc.at inp t).raddr p = 0 := by
  induction t with
  | zero => exact h.raddr
  | succ t ih =>
    rw [step_raddr, incrRaddr_early h (by omega)]
    exact ih (by omega)

/-- The read address counts the strobes. -/
theorem raddr_at (h : noc.Fresh p) (t : Nat) :
    (noc.at inp (t + p.latency)).raddr p = BitVec.ofNat 5 (reads p inp t) := by
  induction t with
  | zero =>
    rw [Nat.zero_add, raddr_early h (Nat.le_refl _)]
    rfl
  | succ t ih =>
    have hcycle : t + 1 + p.latency = t + p.latency + 1 := by omega
    rw [hcycle, step_raddr, incrRaddr_at, ih, reads_succ]
    split
    · rw [BitVec.ofNat_add]
      rfl
    · rfl

end

/-! ## The lanes -/

section
variable {noc : Noc F} {e : Egress} {inp : Nat → NocInput F}

theorem busRdataOut_delayed (t : Nat) :
    (noc.at inp (t + e.egress.egressPipeDepth)).busRdataOut e =
      ((noc.at inp t).egress e).busRdataIn :=
  BusPipe.out_delayed (fun u => ((noc.at inp u).egress e).busRdataPipe)
    (fun u => ((noc.at inp u).egress e).busRdataIn) (fun _ => rfl) t

theorem busRdataOut_at {t : Nat}
    (h : ¬ F.writes ((inp t).2 e) ((noc.at inp t).raddr e.island)) :
    (noc.at inp (t + 1 + e.egress.egressPipeDepth)).busRdataOut e =
      (noc.at inp t).held e ((noc.at inp t).raddr e.island) := by
  rw [busRdataOut_delayed]
  exact F.q_step ((noc.at inp t).egress e).fifo ((inp t).2 e) ((noc.at inp t).raddr e.island) h

theorem findSome?_of_unique {A B : Type} {f : A → Option B} {l : List A} {a : A} {b : B}
    (ha : a ∈ l) (hf : f a = some b) (hunique : ∀ a' ∈ l, f a' ≠ none → a' = a) :
    l.findSome? f = some b := by
  induction l with
  | nil => cases ha
  | cons x l ih =>
    cases hx : f x with
    | some y =>
      have hxa := hunique x List.mem_cons_self (by rw [hx]; exact Option.some_ne_none y)
      rw [hxa, List.findSome?_cons, hf]
    | none =>
      have hne : a ≠ x := by
        rintro rfl
        rw [hf] at hx
        cases hx
      rw [List.findSome?_cons, hx]
      exact ih (List.mem_of_ne_of_mem hne ha) fun a' ha' => hunique a' (List.mem_cons_of_mem _ ha')

/-- A bit of a place comes from the island that assigns it, and from no other. -/
theorem outReg_of_assigned (noc : Noc F) {side : Side} {place : Nat × Nat} {k j : Nat}
    (h : e.egress.assigned side place k = some j) :
    noc.outReg side place k = some ((noc.busRdataOut e).getLsbD j) := by
  refine findSome?_of_unique (List.mem_attach _ e) (congrArg (Option.map _) h) ?_
  intro e' _ hassigned
  cases hj : e'.val.2.assigned side place k with
  | none =>
    rw [hj] at hassigned
    exact absurd rfl hassigned
  | some j' =>
    exact Egress.eq_of_egress (driver_unique (Egress.mem_egress e') e.mem_egress
      (Record.mem_places_of_assigned hj) (Record.mem_places_of_assigned h))

theorem shows_outReg (noc : Noc F) (e : Egress) : e.Shows noc.outReg (noc.busRdataOut e) := by
  constructor
  · intro k hk
    apply outReg_of_assigned
    unfold Record.assigned
    rw [if_neg (not_not.mpr rfl), if_pos ⟨rfl, hk⟩]
  · intro k hk hk'
    apply outReg_of_assigned
    have hother : ¬ (e.egress.bus1 = e.egress.bus0 ∧ k ≤ 10) :=
      fun hsame => places_ne e.mem_egress hsame.1.symm
    unfold Record.assigned
    rw [if_neg (not_not.mpr rfl), if_neg hother, if_pos ⟨rfl, hk, hk'⟩]

end

/-- Every egress FIFO of the input has its island, which is `e` or drives none of its places. -/
theorem places_apart (e : Egress) {r : Record} (hr : r ∈ SoftNoc.egress records) :
    ∃ e' : Egress, e'.egress = r ∧ (e' = e ∨ r.places.Disjoint e.egress.places) := by
  obtain ⟨p, hp⟩ := egress_paired hr
  refine ⟨⟨(p, r), hp⟩, rfl, ?_⟩
  by_cases hsame : r = e.egress
  · exact .inl (Egress.eq_of_egress hsame)
  · exact .inr fun _ hplace hplace' =>
      hsame (driver_unique hr e.mem_egress hplace hplace')

/-- The lanes of every egress island show what its FIFO held at the address that the strobes
    before cycle `t` lead to, `e.latency` cycles after `t`: 10 of them, or 9 where the control
    is a stage nearer. No other island drives them. -/
theorem egress_shows (noc : Noc F) (inp : Nat → NocInput F) (e : Egress)
    (h : noc.Fresh e.island) (t : Nat)
    (hquiet : ¬ F.writes ((inp (t + e.island.latency)).2 e)
      (BitVec.ofNat 5 (reads e.island inp t))) :
    e.Shows (noc.at inp (t + e.latency)).out
        ((noc.at inp (t + e.island.latency)).held e (BitVec.ofNat 5 (reads e.island inp t))) ∧
      (e.latency = if e.island.control.stage = e.island.ingress.stage then 10 else 9) ∧
      ∀ r ∈ SoftNoc.egress records,
        ∃ e' : Egress, e'.egress = r ∧ (e' = e ∨ r.places.Disjoint e.egress.places) := by
  refine ⟨?_, e.latency_eq, fun _ hr => places_apart e hr⟩
  have hcycle : t + e.latency = t + e.island.latency + 1 + e.egress.egressPipeDepth + 1 := by
    unfold Egress.latency
    omega
  rw [← raddr_at h] at hquiet
  have hshows := shows_outReg (noc.at inp (t + e.island.latency + 1 + e.egress.egressPipeDepth)) e
  rw [busRdataOut_at hquiet, raddr_at h] at hshows
  rw [hcycle]
  exact hshows

/-! ## An island that is read in every cycle -/

def exampleEgress : Egress where
  val := ((⟨.C, (105, 165), .E, (2, 40), (2, 39), 4⟩, ⟨.I, (104, 165), .E, (2, 40), (2, 39), 4⟩),
    ⟨.E, (104, 164), .E, (2, 40), (2, 39), 5⟩)
  property := by
    refine mem_egressIslands.mpr ⟨by decide +kernel, ?_⟩
    rw [islands_records]
    decide +kernel

/-- The memory and the register behind it; the write port is on `bus_clock`, too. -/
def registeredFifo : EgressFifo where
  Fifo := MlabFifo × BitVec 20
  Write := BitVec 20 × BitVec 5 × Bool
  writes w raddr := w.2.2 = true ∧ w.2.1 = raddr
  step f w raddr := (f.1.step w.1 w.2.1 w.2.2, f.1.mem raddr)
  held f := f.1.mem
  q f := f.2
  q_step _ _ _ _ := rfl

def emptyNoc : Noc registeredFifo where
  top :=
    { inReg := fun _ _ _ => 0
      island := fun _ => ⟨fun _ => false, fun _ => false, ⟨0, 0⟩, fun _ => 0, ⟨fun _ => 0⟩⟩ }
  egress _ := ⟨(⟨fun _ => 0⟩, 0), fun _ => 0⟩
  out _ _ _ := none

/-- All bits of all buses are set. The design writes the number of the cycle, from address 0 on. -/
def readAll (t : Nat) : NocInput registeredFifo :=
  (fun _ _ _ => BitVec.allOnes 11, fun _ => (BitVec.ofNat 20 t, BitVec.ofNat 5 t, true))

theorem held_readAll (e : Egress) (t : Nat) :
    (emptyNoc.at readAll t).held e = fill (fun _ => 0) ((List.range t).map (BitVec.ofNat 20)) := by
  induction t with
  | zero => rfl
  | succ t ih =>
    rw [List.range_succ, List.map_append, List.map_singleton, fill_concat, ← ih, List.length_map,
      List.length_range]
    rfl

/-- The read of address 9 (the 42nd one) finds what was written there last, in cycle 41. -/
theorem egress_shows_readAll :
    exampleEgress.Shows (emptyNoc.at readAll (41 + exampleEgress.latency)).out 41 ∧
      exampleEgress.latency = 10 := by
  have hreads : reads exampleEgress.island readAll 41 = 41 := by decide +kernel
  have hlatency : exampleEgress.island.latency = 6 := by decide +kernel
  have hheld : fill (fun _ => 0) ((List.range 47).map (BitVec.ofNat 20)) 9 = 41 := by
    decide +kernel
  have hquiet : ¬ registeredFifo.writes ((readAll 47).2 exampleEgress) (BitVec.ofNat 5 41) :=
    fun hwrites => absurd hwrites.2 (by decide)
  obtain ⟨hshows, hdepth, -⟩ := egress_shows emptyNoc readAll exampleEgress
    ⟨rfl, fun _ => rfl, by decide⟩ 41 (by rw [hreads, hlatency]; exact hquiet)
  rw [hreads, held_readAll, hlatency] at hshows
  exact ⟨hheld ▸ hshows, hdepth⟩

end FpgaPartialReconfig.SoftNoc
