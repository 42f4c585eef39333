/-
  The parts of the soft NoC: `bus_pipe`, `fifo_control` and the FIFO's memory.

  A pipe of `DEPTH` registers gives its input back `DEPTH` cycles later
  (`BusPipe.out_delayed`), after what is in it at the beginning (`BusPipe.out_early`). The
  memory of `mlab_fifo`, which is generated from `mlab_fifo.ip`, is a dual-port RAM with a
  synchronous write; the read port of an ingress FIFO is on the side of the design.

  `fill` is what such a memory is for: the words in their order, the `k`-th at address `k`,
  which wraps around.
-/
import Mathlib.Logic.Function.Basic
import Mathlib.Data.Nat.Bitwise

namespace FpgaPartialReconfig.SoftNoc

/-! ## `bus_pipe` -/

def BusPipe (W : Type) (depth : Nat) : Type := Fin depth → W

namespace BusPipe

variable {W : Type} {depth : Nat}

def step (pipe : BusPipe W depth) (input : W) : BusPipe W depth :=
  fun i => if h : i.val = 0 then input else pipe ⟨i.val - 1, by omega⟩

def out (pipe : BusPipe W depth) (input : W) : W :=
  if h : depth = 0 then input else pipe ⟨depth - 1, by omega⟩

section
variable (pipe : Nat → BusPipe W depth) (input : Nat → W)

/-- A register holds the input of as many cycles ago as there are registers up to it. -/
theorem register_delayed (hstep : ∀ t, pipe (t + 1) = (pipe t).step (input t)) (t k : Nat)
    (hk : k < depth) : pipe (t + 1 + k) ⟨k, hk⟩ = input t := by
  induction k with
  | zero => exact congrFun (hstep t) ⟨0, hk⟩
  | succ k ih =>
    have hnext := congrFun (hstep (t + 1 + k)) ⟨k + 1, hk⟩
    exact hnext.trans (ih (by omega))

theorem out_delayed (hstep : ∀ t, pipe (t + 1) = (pipe t).step (input t)) (t : Nat) :
    (pipe (t + depth)).out (input (t + depth)) = input t := by
  unfold out
  by_cases hdepth : depth = 0
  · subst hdepth
    rfl
  · rw [dif_neg hdepth]
    have hlast := register_delayed pipe input hstep t (depth - 1) (by omega)
    have hcycle : t + 1 + (depth - 1) = t + depth := by omega
    rw [hcycle] at hlast
    exact hlast

theorem register_early (hstep : ∀ t, pipe (t + 1) = (pipe t).step (input t)) (t k : Nat)
    (hk : t + k < depth) : pipe t ⟨t + k, hk⟩ = pipe 0 ⟨k, by omega⟩ := by
  induction t with
  | zero =>
    congr 1
    exact Fin.ext (Nat.zero_add k)
  | succ t ih =>
    have hnext := congrFun (hstep t) ⟨t + 1 + k, hk⟩
    have hpositive : ¬ t + 1 + k = 0 := by omega
    have hbefore : t + 1 + k - 1 = t + k := by omega
    have hshift : (pipe t).step (input t) ⟨t + 1 + k, hk⟩ = pipe t ⟨t + k, by omega⟩ := by
      unfold step
      rw [dif_neg hpositive]
      congr 1
      exact Fin.ext hbefore
    exact hnext.trans (hshift.trans (ih (by omega)))

theorem out_early (hstep : ∀ t, pipe (t + 1) = (pipe t).step (input t)) {t : Nat}
    (ht : t < depth) : (pipe t).out (input t) = pipe 0 ⟨depth - 1 - t, by omega⟩ := by
  unfold out
  rw [dif_neg (by omega)]
  have hearly := register_early pipe input hstep t (depth - 1 - t) (by omega)
  have hlast : t + (depth - 1 - t) = depth - 1 := by omega
  simp only [hlast] at hearly
  exact hearly

end

end BusPipe

/-! ## `fifo_control` -/

structure FifoControl where
  waddr : BitVec 5
  raddr : BitVec 5
  deriving DecidableEq, Repr

def FifoControl.step (f : FifoControl) (incrWaddr incrRaddr : Bool) : FifoControl where
  waddr := if incrWaddr = true then f.waddr + 1 else f.waddr
  raddr := if incrRaddr = true then f.raddr + 1 else f.raddr

/-! ## `mlab_fifo` -/

structure MlabFifo where
  mem : BitVec 5 → BitVec 20

def MlabFifo.step (f : MlabFifo) (data : BitVec 20) (wraddress : BitVec 5) (wren : Bool) :
    MlabFifo where
  mem := if wren = true then Function.update f.mem wraddress data else f.mem

/-- The memory with the words stored in it, the `k`-th one at address `k`, modulo 32. -/
def fill (mem : BitVec 5 → BitVec 20) (ws : List (BitVec 20)) : BitVec 5 → BitVec 20 :=
  ws.zipIdx.foldl (fun mem wk => Function.update mem (BitVec.ofNat 5 wk.2) wk.1) mem

theorem fill_concat (mem : BitVec 5 → BitVec 20) (ws : List (BitVec 20)) (w : BitVec 20) :
    fill mem (ws ++ [w]) = Function.update (fill mem ws) (BitVec.ofNat 5 ws.length) w := by
  unfold fill
  rw [List.zipIdx_append, List.foldl_append, Nat.zero_add]
  rfl

/-- The last word is to be found in the memory. -/
theorem fill_concat_last (mem : BitVec 5 → BitVec 20) (ws : List (BitVec 20)) (w : BitVec 20) :
    fill mem (ws ++ [w]) (BitVec.ofNat 5 ws.length) = w := by
  rw [fill_concat, Function.update_self]

end FpgaPartialReconfig.SoftNoc
