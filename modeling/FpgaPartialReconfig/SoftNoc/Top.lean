/-
  The ingress side of the generated top level.

  The lanes of the four buses go through a register at the edge (`north_in_reg` and the
  others). From there each control takes its strobes, and each ingress FIFO its words, through
  pipes of their own. A strobe comes out of the pipe `latency` cycles after it was on the bus
  (`incrWaddr_at`), a word after as many cycles as its own pipe takes (`busWdata_at`); at a
  strobe the word that is there is stored and the write address goes on (`fifo_at`).

  Left out: the LED part. The egress FIFOs and the output registers are in `ReadOut`.
-/
import FpgaPartialReconfig.Lib.Clock
import FpgaPartialReconfig.SoftNoc.Parts
import FpgaPartialReconfig.SoftNoc.Input

namespace FpgaPartialReconfig.SoftNoc

open Clock

/-- The lanes of the buses in a cycle: `north_in[i][j]` is `.N i j`. -/
abbrev Buses := Side → Nat → Nat → BitVec 11

def Buses.lane (b : Buses) (busName : Side) (place : Nat × Nat) : BitVec 11 :=
  b busName place.1 place.2

/-! ## The islands -/

/-- An ingress island of the generated top level, its control and its FIFO. -/
abbrev Island := {p : Record × Record // p ∈ islands records}

namespace Island

variable (p : Island)

def control : Record := p.val.1

def ingress : Record := p.val.2

/-- What the strobe pipes of the control take in. -/
def strobe (b : Buses) : Bool := (b.lane p.control.busName p.control.controlBus).getLsbD 0

def readStrobe (b : Buses) : Bool := (b.lane p.control.busName p.control.controlBus).getLsbD 1

/-- What the data pipe takes in, the 20 data lanes. -/
def word (b : Buses) : BitVec 20 :=
  b.lane p.ingress.busName p.ingress.bus0 ++
    (b.lane p.ingress.busName p.ingress.bus1).extractLsb' 2 9

/-- From the bus to the write port of the FIFO. -/
def latency : Nat := p.control.pipeDepth + 1

/-- A control on the first place of the FIFO: its strobes are bits 9 and 10 of the word. -/
theorem strobes_eq_bits (hname : p.control.busName = p.ingress.busName)
    (hbus : p.control.controlBus = p.ingress.bus0) (b : Buses) :
    p.strobe b = (p.word b).getLsbD 9 ∧ p.readStrobe b = (p.word b).getLsbD 10 := by
  unfold strobe readStrobe word
  rw [hname, hbus, BitVec.getLsbD_append, BitVec.getLsbD_append]
  exact ⟨rfl, rfl⟩

end Island

structure IslandState (p : Island) where
  incrWaddrPipe : BusPipe Bool p.control.pipeDepth
  incrRaddrPipe : BusPipe Bool p.control.pipeDepth
  fifoControl : FifoControl
  busWdataPipe : BusPipe (BitVec 20) p.ingress.pipeDepth
  ingressFifo : MlabFifo

namespace IslandState

variable {p : Island} (s : IslandState p) (inReg : Buses)

def incrWaddr : Bool := s.incrWaddrPipe.out (p.strobe inReg)

def incrRaddr : Bool := s.incrRaddrPipe.out (p.readStrobe inReg)

def busWdata : BitVec 20 := s.busWdataPipe.out (p.word inReg)

def step : IslandState p where
  incrWaddrPipe := s.incrWaddrPipe.step (p.strobe inReg)
  incrRaddrPipe := s.incrRaddrPipe.step (p.readStrobe inReg)
  fifoControl := s.fifoControl.step (s.incrWaddr inReg) (s.incrRaddr inReg)
  busWdataPipe := s.busWdataPipe.step (p.word inReg)
  ingressFifo :=
    s.ingressFifo.step (s.busWdata inReg) s.fifoControl.waddr (s.incrWaddr inReg)

end IslandState

structure Top where
  inReg : Buses
  island : (p : Island) → IslandState p

namespace Top

def step (top : Top) (b : Buses) : Top where
  inReg := b
  island p := (top.island p).step top.inReg

def incrWaddr (top : Top) (p : Island) : Bool := (top.island p).incrWaddr top.inReg

def busWdata (top : Top) (p : Island) : BitVec 20 := (top.island p).busWdata top.inReg

def waddr (top : Top) (p : Island) : BitVec 5 := (top.island p).fifoControl.waddr

def mem (top : Top) (p : Island) : BitVec 5 → BitVec 20 := (top.island p).ingressFifo.mem

/-- Nothing has been strobed yet: the write address is 0, and no strobe is under way. -/
structure Fresh (top : Top) (p : Island) : Prop where
  waddr : top.waddr p = 0
  pipe : ∀ i, (top.island p).incrWaddrPipe i = false
  inReg : p.strobe top.inReg = false

end Top

/-- The registers in a cycle. -/
def Top.at (top : Top) (inp : Nat → Buses) (t : Nat) : Top := cycles Top.step top inp t

/-- What is on the buses in the cycle before. -/
def previous (top : Top) (inp : Nat → Buses) : Nat → Buses
  | 0 => top.inReg
  | t + 1 => inp t

/-- The words `w` of those cycles before `t` in which the island's strobe is on the bus. -/
def strobed (p : Island) (inp : Nat → Buses) (w : Nat → BitVec 20) (t : Nat) : List (BitVec 20) :=
  ((List.range t).filter fun s => p.strobe (inp s)).map w

section
variable {p : Island} {inp : Nat → Buses} {w : Nat → BitVec 20} {t : Nat}

theorem strobed_succ_of_strobe (h : p.strobe (inp t) = true) :
    strobed p inp w (t + 1) = strobed p inp w t ++ [w t] := by
  unfold strobed
  rw [List.range_succ, List.filter_append, List.filter_singleton, h, List.map_append]
  rfl

theorem strobed_succ_of_not_strobe (h : p.strobe (inp t) = false) :
    strobed p inp w (t + 1) = strobed p inp w t := by
  unfold strobed
  rw [List.range_succ, List.filter_append, List.filter_singleton, h, List.map_append]
  exact List.append_nil _

theorem length_strobed (w' : Nat → BitVec 20) :
    (strobed p inp w t).length = (strobed p inp w' t).length := by
  unfold strobed
  rw [List.length_map, List.length_map]

end

/-! ## What arrives at the write port -/

section
variable {top : Top} {p : Island} {inp : Nat → Buses}

theorem inReg_at (top : Top) (inp : Nat → Buses) (t : Nat) :
    (top.at inp t).inReg = previous top inp t := by
  cases t with
  | zero => rfl
  | succ t => rfl

theorem incrWaddr_delayed (t : Nat) :
    (top.at inp (t + p.control.pipeDepth)).incrWaddr p = p.strobe (previous top inp t) := by
  rw [← inReg_at]
  exact BusPipe.out_delayed (fun u => ((top.at inp u).island p).incrWaddrPipe)
    (fun u => p.strobe (top.at inp u).inReg) (fun _ => rfl) t

theorem incrWaddr_at (t : Nat) :
    (top.at inp (t + p.latency)).incrWaddr p = p.strobe (inp t) := by
  have hcycle : t + p.latency = t + 1 + p.control.pipeDepth := by
    unfold Island.latency
    omega
  rw [hcycle, incrWaddr_delayed]
  rfl

/-- No strobe arrives that was not on the bus. -/
theorem incrWaddr_early (h : top.Fresh p) {t : Nat} (ht : t < p.latency) :
    (top.at inp t).incrWaddr p = false := by
  unfold Island.latency at ht
  by_cases hlast : t = p.control.pipeDepth
  · have hdelayed := @incrWaddr_delayed top p inp 0
    rw [Nat.zero_add] at hdelayed
    rw [hlast, hdelayed]
    exact h.inReg
  · have hpipe := BusPipe.out_early (fun u => ((top.at inp u).island p).incrWaddrPipe)
      (fun u => p.strobe (top.at inp u).inReg) (fun _ => rfl)
      (show t < p.control.pipeDepth by omega)
    exact hpipe.trans (h.pipe _)

/-- The word that comes with the strobe of cycle `t`. -/
def arriving (top : Top) (p : Island) (inp : Nat → Buses) (t : Nat) : BitVec 20 :=
  (top.at inp (t + p.latency)).busWdata p

/-- Words and strobes take as long as their pipes. -/
theorem busWdata_at (t : Nat) :
    (top.at inp (t + p.ingress.pipeDepth)).busWdata p = p.word (previous top inp t) := by
  rw [← inReg_at]
  exact BusPipe.out_delayed (fun u => ((top.at inp u).island p).busWdataPipe)
    (fun u => p.word (top.at inp u).inReg) (fun _ => rfl) t

theorem step_waddr (t : Nat) :
    (top.at inp (t + 1)).waddr p =
      if (top.at inp t).incrWaddr p = true then (top.at inp t).waddr p + 1
      else (top.at inp t).waddr p := rfl

theorem step_mem (t : Nat) :
    (top.at inp (t + 1)).mem p =
      if (top.at inp t).incrWaddr p = true then
        Function.update ((top.at inp t).mem p) ((top.at inp t).waddr p)
          ((top.at inp t).busWdata p)
      else (top.at inp t).mem p := rfl

/-- The `k`-th strobe stores what comes with it at address `k`. -/
theorem fifo_at (h : top.Fresh p) (t : Nat) :
    (top.at inp t).waddr p =
        BitVec.ofNat 5 (strobed p inp (arriving top p inp) (t - p.latency)).length ∧
      (top.at inp t).mem p =
        fill (top.mem p) (strobed p inp (arriving top p inp) (t - p.latency)) := by
  induction t with
  | zero =>
    rw [Nat.zero_sub]
    exact ⟨h.waddr, rfl⟩
  | succ t ih =>
    obtain ⟨hwaddr, hmem⟩ := ih
    rw [step_waddr, step_mem]
    by_cases hearly : t < p.latency
    · have hnone : t - p.latency = 0 := by omega
      have hnone' : t + 1 - p.latency = 0 := by omega
      rw [incrWaddr_early h hearly, hnone', ← hnone]
      exact ⟨hwaddr, hmem⟩
    · obtain ⟨s, rfl⟩ : ∃ s, t = s + p.latency := ⟨t - p.latency, by omega⟩
      have hnow : s + p.latency - p.latency = s := Nat.add_sub_cancel s p.latency
      have hnext : s + p.latency + 1 - p.latency = s + 1 := by omega
      rw [hnow] at hwaddr hmem
      rw [hnext, incrWaddr_at, hwaddr, hmem]
      by_cases hstrobe : p.strobe (inp s) = true
      · rw [if_pos hstrobe, if_pos hstrobe, strobed_succ_of_strobe hstrobe, List.length_append,
          fill_concat, BitVec.ofNat_add]
        exact ⟨rfl, rfl⟩
      · rw [if_neg hstrobe, if_neg hstrobe,
          strobed_succ_of_not_strobe (Bool.eq_false_of_not_eq_true hstrobe)]
        exact ⟨rfl, rfl⟩

end

end FpgaPartialReconfig.SoftNoc
