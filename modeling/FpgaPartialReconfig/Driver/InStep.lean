/-
  Freeze and reset in step.

  A region controller has a control register, reads it back, and drives the region's reset
  from its `RESET_REQ` bit; the region follows a freeze or unfreeze request some status
  readings later. Here the `i`-th request is followed after `delay i` of them, for any
  `delay`. The driver and the tool call the controller one at a time, in any order.

  Between calls the controller is at rest: the region is frozen with reset asserted, or
  unfrozen with the control register clear (`RegionState.rest`). A call takes one such state
  to another (`freezeEnable_rest`, `freezeDisable_rest`) and asserts reset only over a frozen
  region; `calls_in_step` is that over every sequence of calls.
-/
import FpgaPartialReconfig.Driver.RegionTool
import FpgaPartialReconfig.Lib.Runs

namespace FpgaPartialReconfig.Driver

open Bus

/-! ## The region controller -/

/-- `pending` is a request the region does not follow yet: the state asked for, and the
    status readings left before it is followed. -/
structure RegionState where
  ctrl : U32
  frozen : Bool
  pending : Option (Bool × Nat)
  requests : Nat
  deriving DecidableEq, Repr

/-- Unfrozen, with control register 0. -/
def RegionState.init : RegionState := ⟨0, false, none, 0⟩

/-- The reset output. -/
def RegionState.resetAsserted (s : RegionState) : Bool := s.ctrl &&& resetReq != 0

/-- The status of a region. -/
def statusOf (frozen : Bool) : U32 := if frozen = true then freezeReqDone else unfreezeReqDone

/-- A status reading, and what it leaves of a pending request. -/
def RegionState.poll (s : RegionState) : U32 × RegionState :=
  match s.pending with
  | none => (statusOf s.frozen, s)
  | some (goal, 0) => (statusOf goal, { s with frozen := goal, pending := none })
  | some (goal, n + 1) => (statusOf s.frozen, { s with pending := some (goal, n) })

/-- A control write. -/
def RegionState.control (delay : Nat → Nat) (v : U32) (s : RegionState) : RegionState :=
  if v &&& freezeReq ≠ 0 then
    { s with ctrl := v, pending := some (true, delay s.requests), requests := s.requests + 1 }
  else if v &&& unfreezeReq ≠ 0 then
    { s with ctrl := v, pending := some (false, delay s.requests), requests := s.requests + 1 }
  else
    { s with ctrl := v }

/-- The controller at `offset`. Other addresses are not its own. -/
def regionController (offset : U32) (delay : Nat → Nat) : Device Addr U32 RegionState where
  read a s :=
    if a = versionAddr offset then (freezeBridgeSupportedVersion, s)
    else if a = statusAddr offset then s.poll
    else if a = ctrlAddr offset then (s.ctrl, s)
    else (0, s)
  write a v s := if a = ctrlAddr offset then s.control delay v else s

/-- Reset is not asserted over an unfrozen region. -/
def RegionState.Safe (s : RegionState) : Prop := s.resetAsserted = true → s.frozen = true

instance (s : RegionState) : Decidable s.Safe := inferInstanceAs (Decidable (_ → _))

/-- Where a call leaves the controller, after `k` requests. -/
def RegionState.rest (frozen : Bool) (k : Nat) : RegionState :=
  ⟨if frozen = true then resetReq else 0, frozen, none, k⟩

theorem RegionState.rest_reset (frozen : Bool) (k : Nat) :
    (rest frozen k).resetAsserted = frozen := by
  cases frozen with
  | false => simp [rest, resetAsserted]
  | true => simp [rest, resetAsserted, resetReq]

theorem RegionState.rest_safe (frozen : Bool) (k : Nat) : (rest frozen k).Safe := by
  intro h
  rw [rest_reset] at h
  exact h

/-- With reset deasserted nothing is at stake. -/
theorem RegionState.safe_mk {v : U32} (hv : v &&& resetReq = 0) (frozen : Bool)
    (pending : Option (Bool × Nat)) (k : Nat) : (⟨v, frozen, pending, k⟩ : RegionState).Safe := by
  intro hreset
  simp [resetAsserted, hv] at hreset

theorem poll_rest (frozen : Bool) (k : Nat) :
    (RegionState.rest frozen k).poll = (statusOf frozen, .rest frozen k) := rfl

theorem poll_due (v : U32) (goal : Bool) (k : Nat) :
    (⟨v, !goal, some (goal, 0), k⟩ : RegionState).poll = (statusOf goal, ⟨v, goal, none, k⟩) := rfl

theorem poll_wait (v : U32) (frozen goal : Bool) (n k : Nat) :
    (⟨v, frozen, some (goal, n + 1), k⟩ : RegionState).poll =
      (statusOf frozen, ⟨v, frozen, some (goal, n), k⟩) := rfl

section
variable (delay : Nat → Nat) (v : U32) (frozen : Bool) (pending : Option (Bool × Nat)) (k : Nat)

theorem control_freeze : (⟨v, frozen, pending, k⟩ : RegionState).control delay freezeReq =
    ⟨freezeReq, frozen, some (true, delay k), k + 1⟩ := rfl

theorem control_unfreeze : (⟨v, frozen, pending, k⟩ : RegionState).control delay unfreezeReq =
    ⟨unfreezeReq, frozen, some (false, delay k), k + 1⟩ := rfl

/-- Any other value only drives the reset. -/
theorem control_other {w : U32} (hf : w &&& freezeReq = 0) (hu : w &&& unfreezeReq = 0) :
    (⟨v, frozen, pending, k⟩ : RegionState).control delay w = ⟨w, frozen, pending, k⟩ := by
  simp only [RegionState.control, hf, hu, ne_eq, not_true_eq_false, if_false]

end

section
variable (offset : U32) (delay : Nat → Nat)

/-- The controller, with every state it enters kept. -/
abbrev recordedController : Device Addr U32 (Recorded RegionState) :=
  (regionController offset delay).recorded

theorem regionController_version (s : RegionState) :
    (regionController offset delay).read (versionAddr offset) s =
      (freezeBridgeSupportedVersion, s) := if_pos rfl

theorem regionController_status (s : RegionState) :
    (regionController offset delay).read (statusAddr offset) s = s.poll := by
  simp only [regionController, if_neg (statusAddr_ne_versionAddr offset), if_true]

theorem regionController_ctrl (s : RegionState) :
    (regionController offset delay).read (ctrlAddr offset) s = (s.ctrl, s) := by
  simp only [regionController, if_neg (ctrlAddr_ne_versionAddr offset),
    if_neg (ctrlAddr_ne_statusAddr offset), if_true]

theorem regionController_write (v : U32) (s : RegionState) :
    (regionController offset delay).write (ctrlAddr offset) v s = s.control delay v := if_pos rfl

/-! ## One access -/

theorem rest_readVersion {s : RegionState} (hs : s.Safe) :
    Spec (Recorded.At RegionState.Safe s)
      (freezeBridgeReadVersion (recordedController offset delay) offset) fun supported _ r =>
        supported = true ∧ r.At RegionState.Safe s := by
  have hread := regionController_version offset delay s
  refine ((regionController offset delay).spec_recorded_get (versionAddr offset) s
    (by rw [hread]; exact hs)).seq fun version _ hversion => ?_
  rw [hread] at hversion ⊢
  exact Spec.ite (fun hne => absurd hversion hne) fun _ => Spec.pure fun _ h => ⟨rfl, h⟩

theorem spec_readStatus {s s' : RegionState} {status : U32} (hpoll : s.poll = (status, s'))
    (hs : s'.Safe) :
    Spec (Recorded.At RegionState.Safe s)
      (readl (recordedController offset delay) (statusAddr offset)) fun v _ r =>
        v = status ∧ r.At RegionState.Safe s' := by
  have h := (regionController offset delay).spec_recorded_get (P := RegionState.Safe)
    (statusAddr offset) s
  rw [regionController_status, hpoll] at h
  exact h hs

theorem spec_readCtrl (s : RegionState) (hs : s.Safe) :
    Spec (Recorded.At RegionState.Safe s)
      (readl (recordedController offset delay) (ctrlAddr offset)) fun v _ r =>
        v = s.ctrl ∧ r.At RegionState.Safe s := by
  have h := (regionController offset delay).spec_recorded_get (P := RegionState.Safe)
    (ctrlAddr offset) s
  rw [regionController_ctrl] at h
  exact h hs

theorem spec_writeCtrl {v : U32} {s s' : RegionState} (hctrl : s.control delay v = s')
    (hs : s'.Safe) :
    Spec (Recorded.At RegionState.Safe s)
      (writel (recordedController offset delay) v (ctrlAddr offset)) fun _ _ r =>
        r.At RegionState.Safe s' := by
  have h := (regionController offset delay).spec_recorded_put (P := RegionState.Safe)
    (ctrlAddr offset) v s
  rw [regionController_write, hctrl] at h
  exact h hs

/-- The poll ends once the region has followed the request, in any number of rounds beyond
    the delay. Reset is off all the while. -/
theorem reqAck_follows {v : U32} (hv : v &&& resetReq = 0) (goal : Bool) (k : Nat) {n rounds : Nat}
    (hn : n < rounds) :
    Spec (Recorded.At RegionState.Safe ⟨v, !goal, some (goal, n), k⟩)
      (freezeBridgeReqAck (recordedController offset delay) offset (statusOf goal) rounds)
      fun acked _ r => acked = true ∧ r.At RegionState.Safe ⟨v, goal, none, k⟩ := by
  have hself : statusOf goal &&& statusOf goal ≠ 0 := by cases goal <;> decide
  have hother : statusOf (!goal) &&& statusOf goal = 0 := by cases goal <;> decide
  induction n generalizing rounds with
  | zero =>
    obtain ⟨rounds, rfl⟩ := Nat.exists_eq_add_one_of_ne_zero (by omega : rounds ≠ 0)
    refine (spec_readStatus offset delay (poll_due v goal k)
      (RegionState.safe_mk hv goal none k)).seq fun status _ hstatus => ?_
    rw [hstatus]
    exact Spec.ite (fun _ => Spec.pure fun _ h => ⟨rfl, h⟩) fun hno => absurd hself hno
  | succ n ih =>
    obtain ⟨rounds, rfl⟩ := Nat.exists_eq_add_one_of_ne_zero (by omega : rounds ≠ 0)
    refine (spec_readStatus offset delay (poll_wait v (!goal) goal n k)
      (RegionState.safe_mk hv (!goal) (some (goal, n)) k)).seq fun status _ hstatus => ?_
    rw [hstatus]
    exact Spec.ite (fun hyes => absurd hother hyes) fun _ => ih (by omega)

/-! ## One call -/

/-- A call that took the controller to rest, with at most one more request made. -/
def Rests (frozen : Bool) (k : Nat) (ret : Option Int) (r : Recorded RegionState) : Prop :=
  ret = some 0 ∧ ∃ k', k' ≤ k + 1 ∧ r.At RegionState.Safe (.rest frozen k')

theorem freezeEnable_rest (frozen : Bool) {k rounds : Nat} (hk : delay k < rounds) :
    Spec (Recorded.At RegionState.Safe (.rest frozen k))
      (fpgaPrRegionControllerFreezeEnable (recordedController offset delay) rounds offset)
      fun ret _ r => Rests true k ret r := by
  have hrest := RegionState.rest_safe frozen k
  refine (rest_readVersion offset delay hrest).seq fun supported _ hsup => ?_
  refine Spec.ite (fun hno => absurd (hsup.symm.trans hno) (by decide)) fun _ => ?_
  refine (spec_readStatus offset delay (poll_rest frozen k) hrest).seq fun status _ hstatus => ?_
  rw [hstatus]
  cases frozen with
  | true =>
    refine Spec.ite (fun _ => Spec.pure fun _ h => ⟨rfl, k, Nat.le_succ k, h⟩) fun hno => ?_
    exact absurd (by decide) hno
  | false =>
    refine Spec.ite (fun hyes => absurd hyes (by decide)) fun _ => ?_
    refine Spec.ite (fun hyes => absurd hyes (by decide)) fun _ => ?_
    have hreq : freezeReq &&& resetReq = 0 := by decide
    refine (spec_writeCtrl offset delay (control_freeze delay _ _ _ _)
      (RegionState.safe_mk hreq _ _ _)).bind fun _ _ => ?_
    refine (reqAck_follows offset delay hreq true (k + 1) hk).seq fun acked _ hacked => ?_
    refine Spec.ite (fun hno => absurd (hacked.symm.trans hno) (by decide)) fun _ => ?_
    have hreset := control_other delay freezeReq true none (k + 1)
      (by decide : resetReq &&& freezeReq = 0) (by decide)
    refine (spec_writeCtrl offset delay hreset (RegionState.rest_safe true (k + 1))).bind
      fun _ _ => ?_
    exact Spec.pure fun _ h => ⟨rfl, k + 1, Nat.le_refl _, h⟩

theorem freezeDisable_rest (frozen : Bool) {k rounds : Nat} (hk : delay k < rounds) :
    Spec (Recorded.At RegionState.Safe (.rest frozen k))
      (fpgaPrRegionControllerFreezeDisable (recordedController offset delay) rounds offset)
      fun ret _ r => Rests false k ret r := by
  have hrest := RegionState.rest_safe frozen k
  refine (rest_readVersion offset delay hrest).seq fun supported _ hsup => ?_
  refine Spec.ite (fun hno => absurd (hsup.symm.trans hno) (by decide)) fun _ => ?_
  refine (spec_readStatus offset delay (poll_rest frozen k) hrest).seq fun status _ hstatus => ?_
  rw [hstatus]
  cases frozen with
  | false =>
    refine Spec.ite (fun _ => Spec.pure fun _ h => ⟨rfl, k, Nat.le_succ k, h⟩) fun hno => ?_
    exact absurd (by decide) hno
  | true =>
    refine Spec.ite (fun hyes => absurd hyes (by decide)) fun _ => ?_
    refine Spec.ite (fun hyes => absurd hyes (by decide)) fun _ => ?_
    refine (spec_readCtrl offset delay _ hrest).seq fun v _ hv => ?_
    -- the control register holds `RESET_REQ` alone, so toggling the bit clears it
    have hclear : v ^^^ resetReq = 0 := by
      rw [hv]
      exact BitVec.xor_self
    rw [hclear]
    have htoggle := control_other delay resetReq true none k
      (by decide : (0 : U32) &&& freezeReq = 0) (by decide)
    refine (spec_writeCtrl offset delay htoggle (RegionState.safe_mk (by decide) _ _ _)).bind
      fun _ _ => ?_
    have hreq : unfreezeReq &&& resetReq = 0 := by decide
    refine (spec_writeCtrl offset delay (control_unfreeze delay _ _ _ _)
      (RegionState.safe_mk hreq _ _ _)).bind fun _ _ => ?_
    refine (reqAck_follows offset delay hreq false (k + 1) hk).seq fun acked _ hacked => ?_
    refine Spec.ite (fun hno => absurd (hacked.symm.trans hno) (by decide)) fun _ => ?_
    have hdone := control_other delay unfreezeReq false none (k + 1)
      (by decide : (0 : U32) &&& freezeReq = 0) (by decide)
    refine (spec_writeCtrl offset delay hdone (RegionState.rest_safe false (k + 1))).bind
      fun _ _ => ?_
    exact Spec.pure fun _ h => ⟨rfl, k + 1, Nat.le_refl _, h⟩

end

/-! ## Sequences of calls -/

inductive Caller where
  | driver
  | tool
  deriving DecidableEq, Repr

inductive RegionCall where
  | enable (caller : Caller)
  | disable (caller : Caller)
  deriving DecidableEq, Repr

/-- What a call is for: a frozen region under reset, or an unfrozen one out of reset. -/
def RegionCall.freezes : RegionCall → Bool
  | .enable _ => true
  | .disable _ => false

section
variable {offset : U32} (tool : Tool.On offset) (delay : Nat → Nat) (rounds : Nat)

def RegionCall.perform : RegionCall → Act (Regs (Recorded RegionState)) (Option Int)
  | .enable .driver =>
    fpgaPrRegionControllerFreezeEnable (recordedController offset delay) rounds offset
  | .enable .tool =>
    Tool.freezeBridgeEnable (recordedController offset delay) tool.dh rounds tool.ctlrOffset
  | .disable .driver =>
    fpgaPrRegionControllerFreezeDisable (recordedController offset delay) rounds offset
  | .disable .tool =>
    Tool.freezeBridgeDisable (recordedController offset delay) tool.dh rounds tool.ctlrOffset

/-- The machine after a call. -/
def callStep (m : Regs (Recorded RegionState)) (call : RegionCall) :
    Regs (Recorded RegionState) := (call.perform tool delay rounds m).2

/-- Nothing called yet. -/
def untouchedRegion : Regs (Recorded RegionState) := ⟨⟨.init, [.init]⟩, []⟩

/-- A call that returned zero and left the region as it is for. -/
structure LeftInStep (call : RegionCall) (ret : Option Int) (s : RegionState) : Prop where
  returns : ret = some 0
  frozen : s.frozen = call.freezes
  reset : s.resetAsserted = call.freezes

theorem RegionCall.perform_rest (call : RegionCall) (frozen : Bool) {k : Nat}
    (hk : delay k < rounds) :
    Spec (Recorded.At RegionState.Safe (.rest frozen k)) (call.perform tool delay rounds)
      fun ret _ r => Rests call.freezes k ret r := by
  cases call with
  | enable caller =>
    cases caller with
    | driver => exact freezeEnable_rest offset delay frozen hk
    | tool =>
      unfold perform
      rw [tool.freezeBridgeEnable_eq]
      exact freezeEnable_rest offset delay frozen hk
  | disable caller =>
    cases caller with
    | driver => exact freezeDisable_rest offset delay frozen hk
    | tool =>
      unfold perform
      rw [tool.freezeBridgeDisable_eq]
      exact freezeDisable_rest offset delay frozen hk

theorem Rests.leftInStep {call : RegionCall} {k : Nat} {ret : Option Int}
    {r : Recorded RegionState} (h : Rests call.freezes k ret r) : LeftInStep call ret r.now := by
  obtain ⟨hret, k', -, hnow, -⟩ := h
  rw [hnow]
  exact ⟨hret, rfl, RegionState.rest_reset _ _⟩

/-- From a controller at rest after `k` requests, with rounds for every request to come. -/
theorem calls_from_rest (calls : List RegionCall) {m : Regs (Recorded RegionState)}
    {frozen : Bool} {k : Nat} (hm : m.dev.At RegionState.Safe (.rest frozen k))
    (hrounds : ∀ i < k + calls.length, delay i < rounds) :
    (∀ before call after, calls = before ++ call :: after →
      LeftInStep call (call.perform tool delay rounds (run (callStep tool delay rounds) m before)).1
        (call.perform tool delay rounds (run (callStep tool delay rounds) m before)).2.dev.now) ∧
      ∀ s ∈ (run (callStep tool delay rounds) m calls).dev.entered, s.Safe := by
  induction calls generalizing m frozen k with
  | nil => exact ⟨fun before call after h => by simp at h, hm.2⟩
  | cons call calls ih =>
    have hk : delay k < rounds := hrounds k (by simp)
    have hrests : Rests call.freezes k (call.perform tool delay rounds m).1
        (callStep tool delay rounds m call).dev :=
      (call.perform_rest tool delay rounds frozen hk).at hm
    obtain ⟨-, k', hk', hnext⟩ := id hrests
    have hrounds' : ∀ i < k' + calls.length, delay i < rounds := fun i hi =>
      hrounds i (by simp only [List.length_cons]; omega)
    obtain ⟨hleft, hsafe⟩ := ih hnext hrounds'
    refine ⟨fun before call' after heq => ?_, hsafe⟩
    cases before with
    | nil =>
      obtain ⟨rfl, -⟩ := List.cons.inj heq
      exact hrests.leftInStep
    | cons first before =>
      obtain ⟨rfl, hrest⟩ := List.cons.inj heq
      exact hleft before call' after hrest

/-- Some number of rounds is beyond each of the first `n` delays. -/
theorem exists_rounds (n : Nat) : ∃ enough, ∀ i < n, delay i < enough := by
  induction n with
  | zero => exact ⟨0, fun i hi => absurd hi (Nat.not_lt_zero i)⟩
  | succ n ih =>
    obtain ⟨enough, henough⟩ := ih
    refine ⟨max enough (delay n + 1), fun i hi => ?_⟩
    by_cases h : i = n
    · rw [h]
      omega
    · have hi' := henough i (by omega)
      omega

/-- For every sequence of calls by driver and tool, and all delays: every call returns zero
    and leaves the region as it is for, and reset is never asserted over an unfrozen one. -/
theorem calls_in_step (calls : List RegionCall) :
    ∃ enough, ∀ rounds, enough ≤ rounds →
      (∀ before call after, calls = before ++ call :: after →
        LeftInStep call
          (call.perform tool delay rounds
            (run (callStep tool delay rounds) untouchedRegion before)).1
          (call.perform tool delay rounds
            (run (callStep tool delay rounds) untouchedRegion before)).2.dev.now) ∧
        ∀ s ∈ (run (callStep tool delay rounds) untouchedRegion calls).dev.entered, s.Safe := by
  obtain ⟨enough, henough⟩ := exists_rounds delay calls.length
  refine ⟨enough, fun rounds hle => ?_⟩
  have hstart : untouchedRegion.dev.At RegionState.Safe (.rest false 0) := by
    refine ⟨rfl, fun s hs => ?_⟩
    rw [List.mem_singleton.mp hs]
    exact RegionState.rest_safe false 0
  refine calls_from_rest tool delay rounds calls hstart fun i hi => ?_
  exact Nat.lt_of_lt_of_le (henough i (by omega)) hle

end

end FpgaPartialReconfig.Driver
