/-
  A load on register streams.

  When every register answers its reads from a stream, the whole course of a load is fixed
  by the file and the streams. `LoadShown` says when the log of a load shows the file
  loaded: the start checks pass, the chunk checks before the last word all read
  "in progress", and among the readings after the last word success comes before anything
  that ends the load. `loaded_iff` is that, for files of every length.

  The start checks read the CSR once, and on Stratix 10 three more times (the wait for the
  initial state, the state printed before the start request, the one printed before the
  first word); `startReads` counts them.
-/
import FpgaPartialReconfig.Driver.Loader

namespace FpgaPartialReconfig.Driver

open Bus

section
variable (s : Addr → Nat → U32)

/-- The `i`-th value the CSR answers. -/
def csrAt (i : Nat) : U32 := s altPrCsr i

theorem streams_readl {pre : (Addr → Nat) → Prop} (a : Addr) (k : Nat)
    (hk : ∀ n, pre n → n a = k) :
    Spec pre (readl (Device.streams s) a) fun v es n' =>
      (v = s a k ∧ es = [.read a (s a k)]) ∧
        ∃ n, pre n ∧ n' = Function.update n a (k + 1) :=
  Device.spec_streams_get s a k hk

theorem streams_writel (pre : (Addr → Nat) → Prop) (v : U32) (a : Addr) :
    Spec pre (writel (Device.streams s) v a) fun _ es n => es = [.write a v] ∧ pre n :=
  Device.spec_streams_put s a v

/-- One CSR reading. -/
theorem streams_prState (stateOf : U32 → FpgaState) (k : Nat) :
    Spec (fun n => n altPrCsr = k) (prState (Device.streams s) stateOf) fun st es n =>
      (st = stateOf (csrAt s k) ∧ es = [.read altPrCsr (csrAt s k)]) ∧ n altPrCsr = k + 1 := by
  refine (streams_readl s altPrCsr k fun _ h => h).seq fun v es h => Spec.pure ?_
  obtain ⟨rfl, rfl⟩ := h
  intro n hparts
  obtain ⟨n₀, -, rfl⟩ := hparts
  exact ⟨⟨rfl, rfl⟩, Function.update_self ..⟩

/-! ## The completion poll -/

/-- Success was read. -/
def Shown (stateOf : U32 → FpgaState) (es : List (Access Addr U32)) : Prop :=
  ∃ v, .read altPrCsr v ∈ es ∧ stateOf v = .operating

/-- Among the `n` readings from index `k` on, success comes before any error. -/
def ShowsSuccess (stateOf : U32 → FpgaState) (k n : Nat) : Prop :=
  ∃ i < n, stateOf (csrAt s (k + i)) = .operating ∧
    ∀ j < i, stateOf (csrAt s (k + j)) ≠ .writeErr

theorem showsSuccess_succ (stateOf : U32 → FpgaState) (k n : Nat) :
    ShowsSuccess s stateOf k (n + 1) ↔
      stateOf (csrAt s k) = .operating ∨
        stateOf (csrAt s k) ≠ .writeErr ∧ ShowsSuccess s stateOf (k + 1) n := by
  constructor
  · intro hparts
    obtain ⟨i, hi, hop, hbefore⟩ := hparts
    cases i with
    | zero => exact .inl hop
    | succ i =>
      refine .inr ⟨hbefore 0 (by omega), i, by omega, ?_, fun j hj => ?_⟩
      · rw [Nat.add_assoc, Nat.add_comm 1]
        exact hop
      · rw [Nat.add_assoc, Nat.add_comm 1]
        exact hbefore (j + 1) (by omega)
  · rintro (hop | ⟨herr, i, hi, hop, hbefore⟩)
    · exact ⟨0, by omega, hop, fun j hj => absurd hj (Nat.not_lt_zero j)⟩
    · refine ⟨i + 1, by omega, ?_, fun j hj => ?_⟩
      · rw [Nat.add_comm i, ← Nat.add_assoc]
        exact hop
      · cases j with
        | zero => exact herr
        | succ j =>
          rw [Nat.add_comm j, ← Nat.add_assoc]
          exact hbefore j (by omega)

theorem shown_nil (stateOf : U32 → FpgaState) : ¬ Shown stateOf [] := by
  intro hparts
  obtain ⟨v, hv, -⟩ := hparts
  cases hv

theorem shown_append {stateOf : U32 → FpgaState} {es es' : List (Access Addr U32)} :
    Shown stateOf (es ++ es') ↔ Shown stateOf es ∨ Shown stateOf es' := by
  simp only [Shown, List.mem_append, or_and_right, exists_or]

theorem shown_read (stateOf : U32 → FpgaState) (v : U32) :
    Shown stateOf [.read altPrCsr v] ↔ stateOf v = .operating := by
  simp [Shown]

theorem streams_pollComplete (stateOf : U32 → FpgaState) (n k : Nat) :
    Spec (fun r => r altPrCsr = k) (pollComplete (Device.streams s) stateOf n) fun _ es _ =>
      Silent es ∧ (Shown stateOf es ↔ ShowsSuccess s stateOf k n) := by
  induction n generalizing k with
  | zero =>
    refine Spec.pure fun _ _ => ⟨silent_nil, ?_⟩
    exact ⟨fun h => absurd h (shown_nil _), fun ⟨i, hi, _⟩ => absurd hi (Nat.not_lt_zero i)⟩
  | succ n ih =>
    refine (streams_prState s stateOf k).seq fun st es h => ?_
    obtain ⟨rfl, rfl⟩ := h
    refine Spec.ite (fun herr => Spec.pure fun _ _ => ?_) fun herr => ?_
    · rw [List.append_nil, shown_read, showsSuccess_succ, herr]
      exact ⟨silent_read _ _, by simp⟩
    refine Spec.ite (fun hop => Spec.pure fun _ _ => ?_) fun hop => ?_
    · rw [List.append_nil, shown_read, showsSuccess_succ, hop]
      exact ⟨silent_read _ _, by simp⟩
    · refine (ih (k + 1)).mono (fun _ h => h) fun _ es' _ h => ?_
      rw [shown_append, shown_read, showsSuccess_succ, h.2]
      exact ⟨(silent_read _ _).append h.1, by simp [herr, hop]⟩

/-! ## The start checks -/

/-- None of the registers the start checks look at has been read yet. -/
def Fresh (n : Addr → Nat) : Prop := n altPrCsr = 0 ∧ n altPrVer = 0 ∧ n altPrPofId = 0

/-- No start is pending, and the POF id, where there is one, is zero or the image's. -/
def StartChecks (id : U32) : Prop :=
  csrAt s 0 &&& altPrCsrPrStart = 0 ∧
    (s altPrVer 0 = altPrVerPofId → s altPrPofId 0 = 0 ∨ s altPrPofId 0 = id)

/-- The start checks pass for an image of `count` bytes with the id word `id`. -/
def Accepted (id : U32) (count : Nat) : Prop :=
  StartChecks s id ∧ (s altPrVer 0 = altPrVerPofId → altPrRbfIdOfst ≤ count)

/-- The register read last by the start checks: the POF id, or VERSION when it announces
    none. -/
def lastRead : U32 :=
  if s altPrVer 0 = altPrVerPofId then s altPrPofId 0 else s altPrVer 0

/-- A `write_init` that returned `ret` and made the accesses `es`: where `ok` holds its only
    write is the start request over `val`, and otherwise it fails and writes nothing. -/
structure StartOutcome (ok : Prop) (val : U32) (ret : Int) (es : List (Access Addr U32)) :
    Prop where
  accepts : ok → ret = 0 ∧ ∃ es₀, Silent es₀ ∧
    es = es₀ ++ [.write altPrCsr (val ||| altPrCsrPrStart)]
  refuses : ¬ ok → ret < 0 ∧ Silent es

theorem StartOutcome.silent_append {ok : Prop} {val : U32} {ret : Int}
    {es es' : List (Access Addr U32)} (hes : Silent es) (h : StartOutcome ok val ret es') :
    StartOutcome ok val ret (es ++ es') := by
  refine ⟨fun hok => ?_, fun hok => ⟨(h.refuses hok).1, hes.append (h.refuses hok).2⟩⟩
  obtain ⟨hret, es₀, hes₀, rfl⟩ := h.accepts hok
  exact ⟨hret, es ++ es₀, hes.append hes₀, (List.append_assoc ..).symm⟩

theorem StartOutcome.ret_zero_iff {ok : Prop} {val : U32} {ret : Int}
    {es : List (Access Addr U32)} (h : StartOutcome ok val ret es) : ret = 0 ↔ ok := by
  refine ⟨fun h0 => ?_, fun hok => (h.accepts hok).1⟩
  by_contra hok
  have hneg := (h.refuses hok).1
  omega

theorem start_bit (val : U32) : (val ||| altPrCsrPrStart) &&& altPrCsrPrStart ≠ 0 := by
  rw [BitVec.and_or_distrib_right, BitVec.and_self]
  intro h
  have hbit := congrArg (fun v => BitVec.getLsbD v 0) h
  simp [altPrCsrPrStart] at hbit

/-- The start request is the only write, and it is over `val`. -/
theorem StartOutcome.write_iff {ok : Prop} {val : U32} {ret : Int}
    {es : List (Access Addr U32)} (h : StartOutcome ok val ret es) (a : Addr) (v : U32) :
    .write a v ∈ es ↔ ok ∧ a = altPrCsr ∧ v = val ||| altPrCsrPrStart := by
  by_cases hok : ok
  · obtain ⟨-, es₀, hes₀, rfl⟩ := h.accepts hok
    simp [hes₀.no_write, hok]
  · simp [(h.refuses hok).2.no_write, hok]

/-- What a wait between the checks and the start request has to provide: it succeeds exactly
    when `G` holds, writes nothing, and leaves `k` readings of the CSR behind. -/
def SettleSpec (settle : Act (Regs (Addr → Nat)) Int) (G : Prop) (k : Nat) : Prop :=
  Spec (fun n => n altPrCsr = 1) settle fun ret es n =>
    ((ret = 0 ↔ G) ∧ (ret = 0 → n altPrCsr = k)) ∧ ret ≤ 0 ∧ Silent es

theorem streams_start {settle : Act (Regs (Addr → Nat)) Int} {G ok : Prop} {k : Nat}
    (hsettle : SettleSpec settle G k) (hok : G ↔ ok) (val : U32) :
    Spec (fun n => n altPrCsr = 1) (writeInit.start (Device.streams s) settle val)
      fun ret es n => StartOutcome ok val ret es ∧ (ret = 0 → n altPrCsr = k) := by
  refine Spec.bind hsettle fun ret es => ?_
  refine Spec.ite (fun hne => Spec.pure fun _ h => ?_) fun heq => ?_
  · obtain ⟨⟨hzero, -⟩, hle, hes⟩ := h
    rw [List.append_nil]
    refine ⟨⟨fun h => absurd (hzero.mpr (hok.mpr h)) hne, fun _ => ⟨by omega, hes⟩⟩,
      fun h => absurd h hne⟩
  · have h0 : ret = 0 := not_not.mp heq
    refine (streams_writel s _ (val ||| altPrCsrPrStart) altPrCsr).bind fun _ es' =>
      Spec.pure fun _ h => ?_
    obtain ⟨rfl, ⟨hzero, hcount⟩, -, hes⟩ := h
    have hyes : ok := hok.mp (hzero.mp h0)
    exact ⟨⟨fun _ => ⟨rfl, es, hes, rfl⟩, fun h => absurd hyes h⟩, fun _ => hcount h0⟩

theorem streams_writeInit {settle : Act (Regs (Addr → Nat)) Int} {G : Prop} {k : Nat}
    (hsettle : SettleSpec settle G k) (buf : Mem) (count : Nat) :
    Spec Fresh (writeInit (Device.streams s) settle buf count) fun ret es n =>
      StartOutcome (Accepted s (le32 buf altPrRbfIdOfst) count ∧ G) (lastRead s) ret es ∧
        (ret = 0 → n altPrCsr = k) := by
  -- a refused image: the accesses so far are readings
  have hfail : ∀ (pre : (Addr → Nat) → Prop) (es : List (Access Addr U32)), Silent es →
      ¬ Accepted s (le32 buf altPrRbfIdOfst) count →
      Spec pre (pure (-EINVAL) : Act (Regs (Addr → Nat)) Int) fun ret es' n =>
        StartOutcome (Accepted s (le32 buf altPrRbfIdOfst) count ∧ G) (lastRead s) ret
          (es ++ es') ∧ (ret = 0 → n altPrCsr = k) := by
    intro pre es hes hno
    refine Spec.pure fun _ _ => ⟨⟨fun h => absurd h.1 hno, fun _ => ⟨by decide, ?_⟩⟩,
      fun h => absurd h (by decide)⟩
    rw [List.append_nil]
    exact hes
  have hstart : ∀ (val : U32) (es : List (Access Addr U32)), Silent es → val = lastRead s →
      Accepted s (le32 buf altPrRbfIdOfst) count →
      Spec (fun n => n altPrCsr = 1) (writeInit.start (Device.streams s) settle val)
        fun ret es' n =>
          StartOutcome (Accepted s (le32 buf altPrRbfIdOfst) count ∧ G) (lastRead s) ret
            (es ++ es') ∧ (ret = 0 → n altPrCsr = k) := by
    intro val es hes hval hok
    have hiff : G ↔ Accepted s (le32 buf altPrRbfIdOfst) count ∧ G :=
      ⟨fun h => ⟨hok, h⟩, fun h => h.2⟩
    refine (streams_start s hsettle hiff val).mono (fun _ h => h) fun _ _ _ h => ?_
    exact ⟨hval ▸ h.1.silent_append hes, h.2⟩
  refine (streams_readl s altPrCsr 0 fun _ h => h.1).seq fun val es₁ h => ?_
  obtain ⟨rfl, rfl⟩ := h
  refine Spec.ite (fun hset => hfail _ [.read altPrCsr (csrAt s 0)] (silent_read _ _)
    fun h => hset h.1.1) fun hclear => ?_
  refine (streams_readl s altPrVer 0 ?_).seq fun val es₂ h => ?_
  · intro v hv
    obtain ⟨n, hn, rfl⟩ := hv
    rw [Function.update_of_ne (by decide)]
    exact hn.2.1
  obtain ⟨rfl, rfl⟩ := h
  refine Spec.ite (fun hver => ?_) fun hver => ?_
  · refine Spec.ite (fun hlt => hfail _ [.read altPrCsr (csrAt s 0), .read altPrVer _]
      (fun _ => rfl) fun h => absurd (h.2 hver) (by omega)) fun hlt => ?_
    refine (streams_readl s altPrPofId 0 ?_).seq fun val es₃ h => ?_
    · intro v hv
      obtain ⟨_, ⟨n, hn, rfl⟩, rfl⟩ := hv
      rw [Function.update_of_ne (by decide), Function.update_of_ne (by decide)]
      exact hn.2.2
    obtain ⟨rfl, rfl⟩ := h
    refine Spec.ite (fun hid => hfail _ [.read altPrCsr (csrAt s 0), .read altPrVer _,
      .read altPrPofId _] (fun _ => rfl) fun h => (h.1.2 hver).elim hid.1 hid.2) fun hid => ?_
    refine (hstart _ [.read altPrCsr (csrAt s 0), .read altPrVer _, .read altPrPofId _]
      (fun _ => rfl) (if_pos hver).symm ⟨⟨not_not.mp hclear, fun _ => ?_⟩, fun _ => by omega⟩).mono
      ?_ fun _ _ _ h => h
    · by_contra hno
      exact hid ⟨fun h => hno (.inl h), fun h => hno (.inr h)⟩
    · intro v hv
      obtain ⟨_, ⟨_, ⟨n, -, rfl⟩, rfl⟩, rfl⟩ := hv
      rfl
  · refine (hstart _ [.read altPrCsr (csrAt s 0), .read altPrVer _] (fun _ => rfl)
      (if_neg hver).symm ⟨⟨not_not.mp hclear, fun h => absurd h hver⟩,
        fun h => absurd h hver⟩).mono ?_ fun _ _ _ h => h
    intro v hv
    obtain ⟨_, ⟨n, -, rfl⟩, rfl⟩ := hv
    rfl

/-- Stratix 10 waits out a busy status and then gives up, whatever it reads meanwhile. -/
theorem streams_waitForInitialState (k : Nat) :
    Spec (fun n => n altPrCsr = k) (S10.waitForInitialState (Device.streams s)) fun ret _ n =>
      (ret = if csrAt s k &&& S10.altPrCsrStatusMsk = S10.altPrCsrStatusBusy then -ETIMEDOUT
        else 0) ∧ (ret = 0 → n altPrCsr = k + 1) := by
  refine (streams_readl s altPrCsr k fun _ h => h).seq fun val _ h => ?_
  obtain ⟨rfl, -⟩ := h
  refine Spec.ite (fun hbusy => ?_) fun hbusy => Spec.pure ?_
  · refine Spec.bind (S10.emits_waitRounds (Device.streams s) _ _).spec fun timeout _ => ?_
    refine Spec.ite (fun _ => Spec.pure fun _ _ => ?_) fun hout => Spec.pure fun _ h => ?_
    · exact ⟨(if_pos hbusy).symm, fun h => absurd h (by decide)⟩
    · exact absurd h.1 hout
  · intro v hv
    obtain ⟨n, -, rfl⟩ := hv
    exact ⟨(if_neg hbusy).symm, fun _ => Function.update_self ..⟩

theorem streams_settle (k : Nat) :
    Spec (fun n => n altPrCsr = k) (S10.settle (Device.streams s)) fun ret _ n =>
      (ret = 0 ↔ csrAt s k &&& S10.altPrCsrStatusMsk ≠ S10.altPrCsrStatusBusy) ∧
        (ret = 0 → n altPrCsr = k + 2) := by
  refine (streams_waitForInitialState s k).seq fun ret _ hret => ?_
  refine Spec.ite (fun hne => Spec.pure fun _ _ => ?_) fun heq => ?_
  · refine ⟨⟨fun h => absurd h (by decide), fun h => ?_⟩, fun h => absurd h (by decide)⟩
    rw [if_neg h] at hret
    exact absurd hret hne
  · have h0 : ret = 0 := not_not.mp heq
    have hbusy : csrAt s k &&& S10.altPrCsrStatusMsk ≠ S10.altPrCsrStatusBusy := by
      intro h
      rw [if_pos h, h0] at hret
      exact absurd hret (by decide)
    refine ((streams_prState s S10.stateOf (k + 1)).mono (fun _ h => h h0)
      fun _ _ _ h => h).seq fun _ _ _ => Spec.pure fun _ h => ?_
    exact ⟨⟨fun _ => hbusy, fun _ => rfl⟩, fun _ => h⟩

namespace Core

/-- What else stands before the start request: on Stratix 10 the status must not be busy. -/
def Settles : Core → Prop
  | .a10 => True
  | .s10 _ => csrAt s 1 &&& S10.altPrCsrStatusMsk ≠ S10.altPrCsrStatusBusy

/-- CSR readings of a successful init. -/
def initReads : Core → Nat
  | .a10 => 1
  | .s10 _ => 3

/-- CSR readings before the first word. -/
def startReads : Core → Nat
  | .a10 => 1
  | .s10 _ => 4

/-- On Stratix 10 the wait and the status reading after it, on Arria 10 nothing. -/
theorem settle_a10 : SettleSpec (pure 0) (Core.a10.Settles s) Core.a10.initReads :=
  Spec.pure fun _ h => ⟨⟨⟨fun _ => trivial, fun _ => rfl⟩, fun _ => h⟩, Int.le_refl 0, silent_nil⟩

theorem settle_s10 (verbose : Bool) : SettleSpec (S10.settle (Device.streams s))
    ((Core.s10 verbose).Settles s) (Core.s10 verbose).initReads :=
  (streams_settle s 1).and (S10.emits_settle (Device.streams s)).spec

/-- `write_init` of the fpga_pcie driver. -/
theorem altPrIpWriteInit_outcome (core : Core) (buf : Mem) (count : Nat) :
    Spec Fresh (core.altPrIpWriteInit (Device.streams s) buf count) fun ret es n =>
      StartOutcome (Accepted s (le32 buf altPrRbfIdOfst) count ∧ core.Settles s) (lastRead s)
        ret es ∧ (ret = 0 → n altPrCsr = core.initReads) := by
  cases core with
  | a10 => exact streams_writeInit s (settle_a10 s) buf count
  | s10 verbose => exact streams_writeInit s (settle_s10 s verbose) buf count

theorem streams_altPrIpWriteInit (core : Core) (buf : Mem) {count : Nat}
    (hcount : altPrRbfIdOfst ≤ count) :
    Spec Fresh (core.altPrIpWriteInit (Device.streams s) buf count) fun ret es n =>
      ((ret = 0 ↔ StartChecks s (le32 buf altPrRbfIdOfst) ∧ core.Settles s) ∧
        writesTo altPrData es = []) ∧ (ret = 0 → n altPrCsr = core.initReads) := by
  refine ((core.altPrIpWriteInit_outcome s buf count).and
    (core.emits_altPrIpWriteInit (Device.streams s) buf count).spec).mono
    (fun _ h => h) fun ret es n h => ?_
  obtain ⟨⟨hout, hcsr⟩, -, hdata⟩ := h
  refine ⟨⟨hout.ret_zero_iff.trans ?_, hdata⟩, hcsr⟩
  exact ⟨fun h => ⟨h.1.1, h.2⟩, fun h => ⟨⟨h.1, fun _ => hcount⟩, h.2⟩⟩

theorem streams_altPrIpFpgaWriteComplete (core : Core) (configTimeout : Int) (k : Nat) :
    Spec (fun r => r altPrCsr = k)
      (core.altPrIpFpgaWriteComplete (Device.streams s) configTimeout) fun _ es _ =>
        Silent es ∧ (Shown core.stateOf es ↔
          ShowsSuccess s core.stateOf k (BitVec.ofInt 32 configTimeout).toNat) := by
  cases core with
  | a10 => exact streams_pollComplete s A10.stateOf _ k
  | s10 verbose => exact streams_pollComplete s S10.stateOf _ k

/-! ## The chunk checks -/

/-- A chunk boundary reads the status only on Stratix 10 with `VERBOSE_TRUE`. -/
def verbose : Core → Bool
  | .a10 => false
  | .s10 verbose => verbose

/-- Readings at the chunk boundaries of `words` words. -/
def chunks (core : Core) (words : Nat) : Nat := if core.verbose = true then words / 1024 else 0

theorem streams_chunkCheck (core : Core) (k j : Nat) :
    Spec (fun n => n altPrCsr = k) (core.chunkCheck (Device.streams s) j) fun ok es n =>
      ((ok = true ↔ (1024 ≤ j ∧ core.verbose = true → core.stateOf (csrAt s k) = .write)) ∧
        (Shown core.stateOf es ↔
          (1024 ≤ j ∧ core.verbose = true) ∧ core.stateOf (csrAt s k) = .operating) ∧
        Silent es) ∧
      n altPrCsr = k + if 1024 ≤ j ∧ core.verbose = true then 1 else 0 := by
  cases core with
  | a10 =>
    refine Spec.ite (fun h => absurd h.2 (by decide)) fun _ => Spec.pure fun _ h => ?_
    refine ⟨⟨⟨fun _ h => absurd h.2 (by decide), fun _ => rfl⟩,
      ⟨fun h => absurd h (shown_nil _), fun h => absurd h.1.2 (by decide)⟩, silent_nil⟩, ?_⟩
    rw [if_neg (fun h => absurd h.2 (by decide))]
    exact h
  | s10 verbose =>
    refine Spec.ite (fun hc => ?_) fun hc => Spec.pure fun _ h => ?_
    · refine (streams_prState s S10.stateOf k).seq fun st es h => Spec.pure fun _ hn => ?_
      obtain ⟨rfl, rfl⟩ := h
      refine ⟨⟨?_, ?_, silent_read _ _⟩, ?_⟩
      · rw [beq_iff_eq]
        exact ⟨fun h _ => h, fun h => h hc⟩
      · rw [List.append_nil, shown_read]
        exact ⟨fun h => ⟨hc, h⟩, fun h => h.2⟩
      · rw [Core.verbose, if_pos hc]
        exact hn
    · refine ⟨⟨⟨fun _ h => absurd h hc, fun _ => rfl⟩,
        ⟨fun h => absurd h (shown_nil _), fun h => absurd h.1 hc⟩, silent_nil⟩, ?_⟩
      rw [Core.verbose, if_neg hc]
      exact h

/-- The words go through exactly when every chunk boundary reads "in progress". -/
theorem streams_feed (core : Core) (ws : List U32) {j : Nat} (hj : j < 1024) (k : Nat) :
    Spec (fun n => n altPrCsr = k)
      (feed (Device.streams s) (core.chunkCheck (Device.streams s)) j ws) fun ok _ n =>
        (ok = true ↔
          ∀ i < core.chunks (j + ws.length), core.stateOf (csrAt s (k + i)) = .write) ∧
        (ok = true → n altPrCsr = k + core.chunks (j + ws.length)) := by
  induction ws generalizing j k with
  | nil =>
    have h0 : core.chunks (j + 0) = 0 := by
      unfold chunks
      split <;> omega
    refine Spec.pure fun n h => ?_
    rw [List.length_nil, h0]
    exact ⟨⟨fun _ i hi => absurd hi (Nat.not_lt_zero i), fun _ => rfl⟩, fun _ => h⟩
  | cons w ws ih =>
    refine (streams_writel s (fun n => n altPrCsr = k) w altPrData).seq fun _ _ _ => ?_
    refine (core.streams_chunkCheck s k (j + 1)).seq fun ok _ hok => ?_
    obtain ⟨hok, -, -⟩ := hok
    have hstep : core.chunks (j + (w :: ws).length) =
        (if 1024 ≤ j + 1 ∧ core.verbose = true then 1 else 0) +
          core.chunks ((if 1024 ≤ j + 1 then 0 else j + 1) + ws.length) := by
      simp only [chunks, List.length_cons]
      cases core.verbose
      · simp
      · by_cases hc : 1024 ≤ j + 1
        · simp only [hc, and_self, if_true]
          omega
        · simp only [hc, false_and, if_false, if_true]
          omega
    rw [hstep]
    refine Spec.ite (fun hyes => ?_) fun hno => Spec.pure fun _ _ => ?_
    · refine (ih (by split <;> omega) (k + _)).mono (fun _ h => h) fun ok' _ n h => ?_
      refine ⟨h.1.trans ⟨fun hall i hi => ?_, fun hall i hi => ?_⟩, fun hok' => ?_⟩
      · by_cases hc : 1024 ≤ j + 1 ∧ core.verbose = true
        · rw [if_pos hc] at hi hall
          cases i with
          | zero => exact hok.mp hyes hc
          | succ i =>
            rw [Nat.add_comm i, ← Nat.add_assoc]
            exact hall i (by omega)
        · rw [if_neg hc] at hi hall
          exact hall i (by omega)
      · rw [Nat.add_assoc]
        exact hall _ (by omega)
      · rw [h.2 hok', Nat.add_assoc]
    · refine ⟨⟨fun h => absurd h (by decide), fun hall => ?_⟩, fun h => absurd h (by decide)⟩
      refine absurd (hok.mpr fun hc => ?_) hno
      rw [if_pos hc] at hall
      exact hall 0 (by omega)

end Core

end

/-! ## The last word -/

section
variable {σ : Type} (D : Device Addr U32 σ)

/-- Peeling off the last word of a stream. -/
theorem feed_concat (check : Nat → Act (Regs σ) Bool) (ws : List U32) (w : U32) {j : Nat}
    (hj : j < 1024) :
    feed D check j (ws ++ [w]) =
      (do
        let ok ← feed D check j ws
        if ok = true then do
          writel D w altPrData
          check ((j + ws.length) % 1024 + 1)
        else
          pure false) := by
  induction ws generalizing j with
  | nil =>
    funext m
    simp only [List.nil_append, feed, Act.bind_apply, Act.ite_apply, Act.pure_apply, if_true,
      List.length_nil, Nat.add_zero, Nat.mod_eq_of_lt hj]
    split <;> rename_i h
    · exact Prod.ext h.symm rfl
    · exact Prod.ext (Bool.eq_false_iff.mpr h).symm rfl
  | cons v ws ih =>
    funext m
    have hmod : ((if 1024 ≤ j + 1 then 0 else j + 1) + ws.length) % 1024 =
        (j + (v :: ws).length) % 1024 := by
      rw [List.length_cons]
      split <;> omega
    simp only [List.cons_append, feed, Act.bind_apply, Act.ite_apply, Act.pure_apply]
    split
    · rw [ih (by split <;> omega), hmod]
      simp only [Act.bind_apply, Act.ite_apply, Act.pure_apply]
    · rfl

/-- `write`, with the last word of the image taken apart: `check` is what stands between it
    and `close`. -/
def Core.lastWord (core : Core) (ws : List U32) (w : U32) (check : Act (Regs σ) Bool)
    (close : Act (Regs σ) Int) : Act (Regs σ) Int := do
  core.preWrite D
  let ok ← feed D (core.chunkCheck D) 0 ws
  if ok = true then do
    writel D w altPrData
    let ok ← check
    if ok = true then
      close
    else
      return - EIO
  else
    return - EIO

theorem Core.stream_concat (core : Core) (ws : List U32) (w : U32) (close : Act (Regs σ) Int) :
    core.stream D (ws ++ [w]) close =
      core.lastWord D ws w (core.chunkCheck D (ws.length % 1024 + 1)) close := by
  funext m
  unfold stream lastWord
  rw [feed_concat D _ ws w (by decide), Nat.zero_add]
  simp only [Act.bind_apply, Act.ite_apply, Act.pure_apply]
  split
  · rfl
  · rfl

theorem Core.stream_tail (core : Core) (ws : List U32) (w : U32) :
    core.stream D ws (closeWrite D core.stateOf [w]) =
      core.lastWord D ws w (pure true) (closeWrite D core.stateOf []) := by
  funext m
  simp only [stream, lastWord, closeWrite, putWords, Act.bind_apply, Act.ite_apply,
    Act.pure_apply, if_true]

theorem Core.altPrIpFpgaWrite_lastWord (core : Core) (fp : RbfFile) (buf : Mem)
    (h4 : 4 ≤ fp.size) (hmax : fp.size ≤ 2 ^ 31) :
    core.altPrIpFpgaWrite D fp buf =
      core.lastWord D (wordsBetween fp.bytes 0 ((fp.size + 3) / 4 - 1))
        (fileWord fp.bytes ((fp.size + 3) / 4 - 1))
        (if fp.size % 4 = 0 then core.chunkCheck D (((fp.size + 3) / 4 - 1) % 1024 + 1)
          else pure true)
        (if fp.size < 2 ^ 31 then closeWrite D core.stateOf [] else pure (-EFAULT)) := by
  by_cases hmod : fp.size % 4 = 0
  · have hlast : fp.size / 4 = (fp.size + 3) / 4 - 1 + 1 := by omega
    have htail : tailWords fp.bytes = [] := if_pos hmod
    rw [if_pos hmod]
    by_cases hsize : fp.size < 2 ^ 31
    · have hlen : fp.bytes.length / 4 = (fp.size + 3) / 4 - 1 + 1 := hlast
      rw [if_pos hsize, core.altPrIpFpgaWrite_small D fp buf h4 hsize, streamImage, htail, hlen,
        wordsBetween_concat _ (Nat.zero_le _), stream_concat, wordsBetween_length, Nat.sub_zero]
    · have hlen : 2 ^ 29 = (fp.size + 3) / 4 - 1 + 1 := by omega
      rw [if_neg hsize, core.altPrIpFpgaWrite_large D fp buf (by omega), hlen,
        wordsBetween_concat _ (Nat.zero_le _), stream_concat, wordsBetween_length, Nat.sub_zero]
  · have hlast : fp.bytes.length / 4 = (fp.size + 3) / 4 - 1 := by
      simp only [RbfFile.size] at hmod ⊢
      omega
    have htail : tailWords fp.bytes = [fileWord fp.bytes (fp.bytes.length / 4)] := if_neg hmod
    rw [if_neg hmod, if_pos (by omega), core.altPrIpFpgaWrite_small D fp buf h4 (by omega),
      streamImage, htail, stream_tail, hlast]

end

/-- Only a boundary after the last complete word of a file without a remainder comes after
    the last word. -/
def Core.LastChunk (core : Core) (n : Nat) : Prop :=
  n % 4 = 0 ∧ n / 4 % 1024 = 0 ∧ core.verbose = true

instance (core : Core) (n : Nat) : Decidable (core.LastChunk n) :=
  inferInstanceAs (Decidable (_ ∧ _))

/-! ## When the log shows the file loaded -/

theorem fileWords_concat {bytes : List Byte} (h : 0 < bytes.length) :
    fileWords bytes = wordsBetween bytes 0 ((bytes.length + 3) / 4 - 1) ++
      [fileWord bytes ((bytes.length + 3) / 4 - 1)] := by
  rw [← wordsBetween_concat _ (Nat.zero_le _), wordsBetween, fileWords, ← List.range_eq_range']
  congr 2
  omega

/-- The last data write splits the log; success counts after it. -/
theorem loaded_iff_shown {stateOf : U32 → FpgaState} {words ws : List U32} {w : U32}
    {front back : List (Access Addr U32)} (hfront : writesTo altPrData front = ws)
    (hback : Silent back) (hwords : words = ws ++ [w]) :
    Loaded stateOf words (front ++ .write altPrData w :: back) ↔ Shown stateOf back := by
  constructor
  · intro hparts
    obtain ⟨-, before, v, after, heq, hop, hafter⟩ := hparts
    rcases List.append_eq_append_iff.mp heq with ⟨mid, hb, hm⟩ | ⟨mid, hf, hm⟩
    · cases mid with
      | nil => cases hm
      | cons e mid =>
        simp only [List.cons_append, List.cons.injEq] at hm
        exact ⟨v, by rw [hm.2]; simp, hop⟩
    · -- a reading before the write would leave the write after it
      cases mid with
      | nil => cases hm
      | cons e mid =>
        simp only [List.cons_append, List.cons.injEq] at hm
        rw [hm.2, writesTo_append] at hafter
        exact absurd (List.append_eq_nil_iff.mp hafter).2 (by simp [writesTo])
  · intro hparts
    obtain ⟨v, hv, hop⟩ := hparts
    obtain ⟨before, after, rfl⟩ := List.append_of_mem hv
    have hsplit := hback altPrData
    rw [writesTo_append] at hsplit
    refine ⟨?_, front ++ .write altPrData w :: before, v, after, by simp, hop,
      (List.append_eq_nil_iff.mp hsplit).2⟩
    rw [hwords, ← hfront, writesTo_append]
    simp only [writesTo, if_true, hback altPrData]

/-- When the log of a load shows the file loaded. -/
structure LoadShown (core : Core) (s : Addr → Nat → U32) (bytes : List Byte) (polls : Nat) :
    Prop where
  size_ge : 1024 ≤ bytes.length
  size_le : bytes.length ≤ 2 ^ 31
  starts : StartChecks s (fileWord bytes 71) ∧ core.Settles s
  /-- Every chunk boundary before the last word. -/
  chunks : ∀ i < core.chunks ((bytes.length + 3) / 4 - 1),
    core.stateOf (csrAt s (core.startReads + i)) = .write
  /-- The readings after the last word: a chunk boundary there, then the status check and
      the poll, which a file of 2 GiB does not get to. -/
  success :
    let next := core.startReads + core.chunks ((bytes.length + 3) / 4 - 1)
    (core.LastChunk bytes.length ∧ core.stateOf (csrAt s next) = .operating) ∨
      (bytes.length < 2 ^ 31 ∧
        (core.LastChunk bytes.length → core.stateOf (csrAt s next) = .write) ∧
        ShowsSuccess s core.stateOf (next + if core.LastChunk bytes.length then 1 else 0)
          (polls + 1))

section
variable (s : Addr → Nat → U32)

/-- What stands between the last word and the end of `write`. -/
theorem Core.streams_lastCheck (core : Core) {n : Nat} (h4 : 4 ≤ n) (k : Nat) :
    Spec (fun r => r altPrCsr = k)
      (if n % 4 = 0 then
        core.chunkCheck (Device.streams s) (((n + 3) / 4 - 1) % 1024 + 1)
      else pure true) fun ok es r =>
      ((ok = true ↔ (core.LastChunk n → core.stateOf (csrAt s k) = .write)) ∧
        (Shown core.stateOf es ↔
          core.LastChunk n ∧ core.stateOf (csrAt s k) = .operating) ∧
        Silent es) ∧
      r altPrCsr = k + if core.LastChunk n then 1 else 0 := by
  refine Spec.ite (fun hmod => ?_) fun hmod => Spec.pure fun _ h => ?_
  · have hiff : (1024 ≤ ((n + 3) / 4 - 1) % 1024 + 1 ∧ core.verbose = true) ↔
        core.LastChunk n := by
      simp only [LastChunk, hmod, true_and]
      refine and_congr_left fun _ => ?_
      omega
    have hcheck := core.streams_chunkCheck s k (((n + 3) / 4 - 1) % 1024 + 1)
    simp only [hiff] at hcheck
    exact hcheck
  · have hno : ¬ core.LastChunk n := fun h => hmod h.1
    rw [if_neg hno]
    exact ⟨⟨⟨fun _ h => absurd h hno, fun _ => rfl⟩,
      ⟨fun h => absurd h (shown_nil _), fun h => absurd h.1 hno⟩, silent_nil⟩, h⟩

theorem Core.streams_close (core : Core) (small : Prop) [Decidable small] (k : Nat) :
    Spec (fun r => r altPrCsr = k)
      (if small then closeWrite (Device.streams s) core.stateOf [] else pure (-EFAULT))
      fun ret es r =>
        ((ret = 0 ↔ small ∧ core.stateOf (csrAt s k) ≠ .writeErr) ∧
          (Shown core.stateOf es ↔ small ∧ core.stateOf (csrAt s k) = .operating) ∧
          Silent es) ∧ (ret = 0 → r altPrCsr = k + 1) := by
  refine Spec.ite (fun hsmall => ?_) fun hsmall => Spec.pure fun _ _ => ?_
  · rw [closeWrite_nil]
    refine (streams_prState s core.stateOf k).seq fun st es h => ?_
    obtain ⟨rfl, rfl⟩ := h
    refine Spec.ite (fun herr => Spec.pure fun _ _ => ?_) fun herr => Spec.pure fun _ hn => ?_
    all_goals rw [List.append_nil, shown_read]
    · exact ⟨⟨⟨fun h => absurd h (by decide), fun h => absurd herr h.2⟩,
        ⟨fun h => ⟨hsmall, h⟩, fun h => h.2⟩, silent_read _ _⟩, fun h => absurd h (by decide)⟩
    · exact ⟨⟨⟨fun _ => ⟨hsmall, herr⟩, fun _ => rfl⟩, ⟨fun h => ⟨hsmall, h⟩, fun h => h.2⟩,
        silent_read _ _⟩, fun _ => hn⟩
  · exact ⟨⟨⟨fun h => absurd h (by decide), fun h => absurd h.1 hsmall⟩,
      ⟨fun h => absurd h (shown_nil _), fun h => absurd h.1 hsmall⟩, silent_nil⟩,
      fun h => absurd h (by decide)⟩

/-- What a call of `write` shows, when it got through to the last word. -/
structure Core.WriteShown (core : Core) (n next : Nat) (ws : List U32) (w : U32) (ret : Int)
    (es : List (Access Addr U32)) : Prop where
  ret_iff : ret = 0 ↔ (core.LastChunk n → core.stateOf (csrAt s next) = .write) ∧
    n < 2 ^ 31 ∧
      core.stateOf (csrAt s (next + if core.LastChunk n then 1 else 0)) ≠ .writeErr
  split : ∃ front back, es = front ++ .write altPrData w :: back ∧
    writesTo altPrData front = ws ∧ Silent back ∧
    (Shown core.stateOf back ↔
      (core.LastChunk n ∧ core.stateOf (csrAt s next) = .operating) ∨
        (core.LastChunk n → core.stateOf (csrAt s next) = .write) ∧ n < 2 ^ 31 ∧
          core.stateOf (csrAt s (next + if core.LastChunk n then 1 else 0)) = .operating)

theorem Core.streams_lastWord (core : Core) {n : Nat} (h4 : 4 ≤ n) (ws : List U32) (w : U32) :
    let next := core.startReads + core.chunks ws.length
    let through := ∀ i < core.chunks ws.length,
      core.stateOf (csrAt s (core.startReads + i)) = .write
    Spec (fun r => r altPrCsr = core.initReads)
      (core.lastWord (Device.streams s) ws w
        (if n % 4 = 0 then
          core.chunkCheck (Device.streams s) (((n + 3) / 4 - 1) % 1024 + 1)
        else pure true)
        (if n < 2 ^ 31 then closeWrite (Device.streams s) core.stateOf [] else pure (-EFAULT)))
      fun ret es r =>
        ((¬ through ∧ ret ≠ 0 ∧ writesTo altPrData es <+: ws) ∨
          (through ∧ core.WriteShown s n next ws w ret es)) ∧
        (ret = 0 → r altPrCsr = next + (if core.LastChunk n then 1 else 0) + 1) := by
  intro next through
  have hpre : Spec (fun r => r altPrCsr = core.initReads) (core.preWrite (Device.streams s))
      fun _ es r => Silent es ∧ r altPrCsr = core.startReads := by
    cases core with
    | a10 => exact Spec.pure fun _ h => ⟨silent_nil, h⟩
    | s10 verbose =>
      refine (streams_prState s S10.stateOf 3).seq fun st es h => Spec.pure fun _ hn => ?_
      obtain ⟨-, rfl⟩ := h
      exact ⟨silent_read _ _, hn⟩
  refine hpre.seq fun _ es₀ h₀ => ?_
  have hfeed : Spec (fun r => r altPrCsr = core.startReads)
      (feed (Device.streams s) (core.chunkCheck (Device.streams s)) 0 ws) fun ok es r =>
        ((ok = true ↔ through) ∧ writesTo altPrData es <+: ws ∧
          (ok = true → writesTo altPrData es = ws)) ∧ (ok = true → r altPrCsr = next) := by
    refine ((core.streams_feed s ws (by decide : 0 < 1024) core.startReads).and
      (emits_feed (Device.streams s) (core.emits_chunkCheck (Device.streams s)) 0 ws).spec).mono
      (fun _ h => h) fun ok es r h => ?_
    rw [Nat.zero_add] at h
    exact ⟨⟨h.1.1, h.2⟩, h.1.2⟩
  refine hfeed.seq fun ok es₁ h₁ => ?_
  obtain ⟨hok, hprefix, hall⟩ := h₁
  refine Spec.ite (fun hyes => ?_) fun hno => Spec.pure fun _ _ => ?_
  · refine (((streams_writel s (fun r => r altPrCsr = next) w altPrData).mono
      (fun _ h => h hyes) fun _ _ _ h => h).seq fun _ es₂ h₂ => ?_)
    subst h₂
    refine (core.streams_lastCheck s h4 next).seq fun ok' es₃ h₃ => ?_
    obtain ⟨hok', hshown₃, hsilent₃⟩ := h₃
    have hfront : writesTo altPrData (es₀ ++ es₁) = ws := by
      rw [writesTo_append, h₀ altPrData, hall hyes, List.nil_append]
    refine Spec.ite (fun hyes' => ?_) fun hno' => Spec.pure fun _ _ => ?_
    · refine (core.streams_close s (n < 2 ^ 31) _).mono (fun _ h => h) fun ret es₄ r h => ?_
      obtain ⟨⟨hret, hshown₄, hsilent₄⟩, hread⟩ := h
      have hwrite := hok'.mp hyes'
      refine ⟨.inr ⟨hok.mp hyes, ?_, es₀ ++ es₁, es₃ ++ es₄, ?_, hfront,
        hsilent₃.append hsilent₄, ?_⟩, hread⟩
      · rw [hret]
        exact ⟨fun h => ⟨hwrite, h⟩, fun h => h.2⟩
      · simp only [List.append_assoc, List.singleton_append]
      · rw [shown_append, hshown₃, hshown₄]
        exact or_congr_right ⟨fun h => ⟨hwrite, h⟩, fun h => h.2⟩
    · have hwrite := fun h => hno' (hok'.mpr h)
      refine ⟨.inr ⟨hok.mp hyes, ?_, es₀ ++ es₁, es₃, ?_, hfront, hsilent₃, ?_⟩,
        fun h => absurd h (by decide)⟩
      · exact ⟨fun h => absurd h (by decide), fun h => absurd h.1 hwrite⟩
      · simp only [List.append_assoc, List.singleton_append, List.append_nil]
      · rw [hshown₃]
        exact ⟨.inl, fun h => h.resolve_right fun h => hwrite h.1⟩
  · refine ⟨.inl ⟨fun h => hno (hok.mpr h), by decide, ?_⟩, fun h => absurd h (by decide)⟩
    rw [List.append_nil, writesTo_append, h₀ altPrData, List.nil_append]
    exact hprefix

/-- As long as the written words are the first ones of fewer than all, nothing is loaded. -/
theorem not_loaded_of_fewer {stateOf : U32 → FpgaState} {words ws : List U32}
    {es : List (Access Addr U32)} (hes : writesTo altPrData es <+: ws)
    (hfewer : ws.length < words.length) : ¬ Loaded stateOf words es := by
  intro hload
  have hle := hes.length_le
  rw [hload.1] at hle
  omega

/-- With the last word written, what comes after it decides. -/
theorem loaded_iff_shown_after {stateOf : U32 → FpgaState} {words ws : List U32} {w : U32}
    {es₀ front back more : List (Access Addr U32)} (hnone : writesTo altPrData es₀ = [])
    (hfront : writesTo altPrData front = ws) (hback : Silent back) (hmore : Silent more)
    (hwords : words = ws ++ [w]) :
    Loaded stateOf words (es₀ ++ (front ++ .write altPrData w :: back ++ more)) ↔
      Shown stateOf back ∨ Shown stateOf more := by
  have hsplit : es₀ ++ (front ++ .write altPrData w :: back ++ more) =
      (es₀ ++ front) ++ .write altPrData w :: (back ++ more) := by
    simp only [List.append_assoc, List.cons_append]
  have hall : writesTo altPrData (es₀ ++ front) = ws := by
    rw [writesTo_append, hnone, hfront]
    rfl
  rw [hsplit, loaded_iff_shown hall (hback.append hmore) hwords, shown_append]

/-- Beyond 2 GiB some words are never written. -/
theorem not_loaded_large (core : Core) (stack : Mem) (configTimeout : Int) (fp : RbfFile)
    (configState : FpgaState) (hsize : 2 ^ 31 < fp.size) :
    Emits (fpgaConfigBufLoad (Device.streams s) core stack configTimeout fp configState)
      fun _ es => ¬ Loaded core.stateOf (fileWords fp.bytes) es := by
  have hshort : ∀ {es : List (Access Addr U32)},
      writesTo altPrData es <+: wordsBetween fp.bytes 0 (2 ^ 29) →
        ¬ Loaded core.stateOf (fileWords fp.bytes) es := by
    intro es hes
    apply not_loaded_of_fewer hes
    rw [fileWords_length, wordsBetween_length]
    simp only [RbfFile.size] at hsize
    omega
  unfold fpgaConfigBufLoad
  rw [if_neg (fun h => h ((read_1024 stack).mpr (by omega))),
    core.altPrIpFpgaWrite_large _ fp stack (by omega)]
  refine (core.emits_altPrIpWriteInit _ _ 1024).bind fun ret es₁ h₁ => ?_
  refine Spec.ite (fun _ => Spec.pure fun _ _ => hshort ?_) fun _ => ?_
  · rw [List.append_nil, h₁.2]
    exact List.nil_prefix
  refine (core.emits_stream_cut _ _).bind fun ret es₂ h₂ => ?_
  refine Spec.ite (fun _ => Spec.pure fun _ _ => hshort ?_) fun h0 => absurd h₂.1 h0
  rw [List.append_nil, writesTo_append, h₁.2]
  exact h₂.2

/-- On register streams, the log of a load of at least 1024 bytes shows the file loaded
    exactly when `LoadShown` says so. -/
theorem loaded_iff (core : Core) (stack : Mem) (configTimeout : Int) (fp : RbfFile)
    (configState : FpgaState) :
    Spec Fresh (fpgaConfigBufLoad (Device.streams s) core stack configTimeout fp configState)
      fun _ es _ => Loaded core.stateOf (fileWords fp.bytes) es ↔
        LoadShown core s fp.bytes (BitVec.ofInt 32 configTimeout).toNat := by
  by_cases hmin : 1024 ≤ fp.size
  swap
  · rw [fpgaConfigBufLoad_short _ core stack configTimeout fp configState (by omega)]
    exact Spec.pure fun _ _ =>
      ⟨fun h => absurd h (not_loaded_nil _ _), fun h => absurd h.size_ge hmin⟩
  by_cases hmax : fp.size ≤ 2 ^ 31
  swap
  · exact (not_loaded_large s core stack configTimeout fp configState (by omega)).spec.mono
      (fun _ h => h) fun _ _ _ h => ⟨fun hl => absurd hl h, fun hl => absurd hl.size_le hmax⟩
  unfold fpgaConfigBufLoad
  rw [if_neg (fun h => h ((read_1024 stack).mpr hmin)),
    core.altPrIpFpgaWrite_lastWord _ fp stack (by omega) hmax]
  have hpos : 0 < fp.bytes.length := by
    simp only [RbfFile.size] at hmin
    omega
  have hwords := fileWords_concat hpos
  have hlen := wordsBetween_length fp.bytes 0 ((fp.bytes.length + 3) / 4 - 1)
  simp only [RbfFile.size] at hmin hmax ⊢
  have hinit := core.streams_altPrIpWriteInit s (fp.kernelRead 0 1024 stack).2
    (by decide : altPrRbfIdOfst ≤ 1024)
  rw [header_id stack hmin] at hinit
  generalize wordsBetween fp.bytes 0 ((fp.bytes.length + 3) / 4 - 1) = ws at hwords hlen ⊢
  generalize fileWord fp.bytes ((fp.bytes.length + 3) / 4 - 1) = w at hwords ⊢
  have hmissing : ∀ {es : List (Access Addr U32)}, writesTo altPrData es <+: ws →
      ¬ Loaded core.stateOf (fileWords fp.bytes) es := by
    intro es hes
    apply not_loaded_of_fewer hes
    rw [hwords, List.length_append]
    exact Nat.lt_succ_self _
  refine hinit.seq fun ret es₀ h₀ => ?_
  obtain ⟨hstart, hnone⟩ := h₀
  refine Spec.ite (fun hne => Spec.pure fun _ _ => ?_) fun heq => ?_
  · refine ⟨fun h => absurd h (hmissing ?_), fun h => absurd (hstart.mpr h.starts) hne⟩
    rw [List.append_nil, hnone]
    exact List.nil_prefix
  have h0 : ret = 0 := not_not.mp heq
  have hlast := core.streams_lastWord s (by omega : 4 ≤ fp.bytes.length) ws w
  simp only [hlen, Nat.sub_zero] at hlast
  refine (hlast.mono (fun _ h => h h0) fun _ _ _ h => h).seq fun ret es₁ h₁ => ?_
  rcases h₁ with ⟨hno, hne, hprefix⟩ | ⟨hthrough, hret, front, back, rfl, hfront, hsilent, hshown⟩
  · refine Spec.ite (fun _ => Spec.pure fun _ _ => ?_) fun heq => absurd hne heq
    refine ⟨fun h => absurd h (hmissing ?_), fun h => absurd h.chunks hno⟩
    rwa [List.append_nil, writesTo_append, hnone]
  have hloaded : ∀ {more : List (Access Addr U32)}, Silent more →
      (Loaded core.stateOf (fileWords fp.bytes)
        (es₀ ++ (front ++ .write altPrData w :: back ++ more)) ↔
          Shown core.stateOf back ∨ Shown core.stateOf more) :=
    fun hmore => loaded_iff_shown_after hnone hfront hsilent hmore hwords
  have hcond : LoadShown core s fp.bytes (BitVec.ofInt 32 configTimeout).toNat ↔ _ :=
    ⟨fun h => h.success, fun h => ⟨hmin, hmax, hstart.mp h0, hthrough, h⟩⟩
  rw [hcond]
  simp only [showsSuccess_succ]
  refine Spec.ite (fun hne => Spec.pure fun _ _ => ?_) fun heq => ?_
  · rw [hloaded silent_nil, hshown]
    have hend := mt hret.mpr hne
    constructor
    · rintro ((h | ⟨hwrite, hsmall, hop⟩) | h)
      · exact .inl h
      · exact .inr ⟨hsmall, hwrite, .inl hop⟩
      · exact absurd h (shown_nil _)
    · rintro (h | ⟨hsmall, hwrite, hop | ⟨herr, -⟩⟩)
      · exact .inl (.inl h)
      · exact .inl (.inr ⟨hwrite, hsmall, hop⟩)
      · exact absurd ⟨hwrite, hsmall, herr⟩ hend
  · have h0' : ret = 0 := not_not.mp heq
    obtain ⟨hwrite, hsmall, herr⟩ := hret.mp h0'
    refine ((core.streams_altPrIpFpgaWriteComplete s configTimeout _).mono (fun _ h => h h0')
      fun _ _ _ h => ⟨h, trivial⟩).seq fun ret es₂ h₂ => ?_
    obtain ⟨hsilent₂, hshown₂⟩ := h₂
    refine Spec.ite (fun _ => Spec.pure fun _ _ => ?_) fun _ => Spec.pure fun _ _ => ?_
    all_goals
      rw [List.append_nil, hloaded hsilent₂, hshown, hshown₂]
      constructor
      · rintro ((h | ⟨-, -, hop⟩) | h)
        · exact .inl h
        · exact .inr ⟨hsmall, hwrite, .inl hop⟩
        · exact .inr ⟨hsmall, hwrite, .inr ⟨herr, h⟩⟩
      · rintro (h | ⟨-, -, hop | ⟨-, h⟩⟩)
        · exact .inl (.inl h)
        · exact .inl (.inr ⟨hwrite, hsmall, hop⟩)
        · exact .inr h

end

end FpgaPartialReconfig.Driver
