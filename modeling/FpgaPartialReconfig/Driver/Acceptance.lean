/-
  Which images `write_init` of the fpga driver accepts.

  The image comes with its length, so the id word can lie past its end: `writeInitIn` is
  `writeInit` over a buffer that ends, and `none` is a read past it. `writeInitIn_some` says
  the two agree wherever nothing is read past the end.

  `MayStart` is when a start request is due: the flag is set, no start is pending, an
  announced POF id is zero or equal to a complete id word, and the wait for an initial state
  succeeds. The source asks for 284 bytes where a complete word takes 288, so an image that
  ends inside the id word is the exception, and `acceptsExactly_iff` says just when.
-/
import FpgaPartialReconfig.Driver.Readings

namespace FpgaPartialReconfig.Driver

open Bus

/-- `*(u32 *)(buf + ofs)` for a buffer of `image.length` bytes; `none` is a read past it. -/
def le32In (image : List Byte) (ofs : Nat) : Option U32 :=
  if ofs + 4 ≤ image.length then some (le32 (memOf image) ofs) else none

section
variable {σ : Type} (D : Device Addr U32 σ)

/-- `writeInit` over a buffer that ends. -/
def writeInitIn (settle : Act (Regs σ) Int) (image : List Byte) : Act (Regs σ) (Option Int) := do
  let val ← readl D altPrCsr
  if val &&& altPrCsrPrStart ≠ 0 then
    return some (-EINVAL)
  else do
    let val ← readl D altPrVer
    if val = altPrVerPofId then
      if image.length < altPrRbfIdOfst then
        return some (-EINVAL)
      else do
        let val ← readl D altPrPofId
        -- the id word is looked at only when there is a POF id to compare it with
        if val ≠ 0 then
          match le32In image altPrRbfIdOfst with
          | none => return none
          | some id =>
            if val ≠ id then
              return some (-EINVAL)
            else
              start val
        else
          start val
    else
      start val
where
  start (val : U32) : Act (Regs σ) (Option Int) := do
    let ret ← writeInit.start D settle val
    return some ret

namespace Core

/-- What stands between the checks and the start request. -/
def settle : Core → Act (Regs σ) Int
  | .a10 => pure 0
  | .s10 _ => S10.settle D

/-- `alt_pr_fpga_write_init` of either core over the image of a `debugfs` write. -/
def altPrFpgaWriteInitIn (core : Core) (partialReconfig : Bool) (image : List Byte) :
    Act (Regs σ) (Option Int) :=
  if partialReconfig = false then
    pure (some (-EINVAL))
  else
    writeInitIn D (core.settle D) image

end Core

/-! ## Agreement with the unbounded buffer -/

theorem le32In_eq {image : List Byte} {buf : Mem} (hbuf : ∀ i < image.length, buf i = memOf image i)
    {ofs : Nat} {id : U32} (h : le32In image ofs = some id) : id = le32 buf ofs := by
  unfold le32In at h
  split at h
  · rename_i hlen
    rw [← Option.some.inj h]
    exact le32_congr fun i hi => (hbuf _ (by omega)).symm
  · cases h

/-- A call that reads nothing past the end is the call over any memory that begins with the
    image. -/
theorem writeInitIn_some {settle : Act (Regs σ) Int} {image : List Byte} {buf : Mem}
    (hbuf : ∀ i < image.length, buf i = memOf image i) {m : Regs σ} {ret : Int}
    (h : (writeInitIn D settle image m).1 = some ret) :
    writeInit D settle buf image.length m = (ret, (writeInitIn D settle image m).2) := by
  unfold writeInitIn writeInitIn.start at h ⊢
  unfold writeInit
  simp only [Act.bind_apply, Act.ite_apply, Act.pure_apply] at h ⊢
  split
  · rename_i hc
    rw [if_pos hc] at h
    rw [← Option.some.inj h]
  rename_i hc
  rw [if_neg hc] at h
  split
  · rename_i hv
    rw [if_pos hv] at h
    split
    · rename_i hl
      rw [if_pos hl] at h
      rw [← Option.some.inj h]
    rename_i hl
    rw [if_neg hl] at h
    by_cases h0 : (readl D altPrPofId (readl D altPrVer (readl D altPrCsr m).2).2).1 = 0
    · simp only [h0, ne_eq, not_true_eq_false, false_and, if_false] at h ⊢
      rw [← Option.some.inj h]
    · simp only [ne_eq, h0, not_false_eq_true, true_and, if_true] at h ⊢
      cases hid : le32In image altPrRbfIdOfst with
      | none =>
        simp only [hid] at h
        cases h
      | some id =>
        rw [hid] at h
        rw [← le32In_eq hbuf hid]
        simp only [Act.ite_apply, Act.bind_apply, Act.pure_apply] at h ⊢
        split at h <;> rw [← Option.some.inj h] <;> simp [*]
  · rename_i hv
    rw [if_neg hv] at h
    rw [← Option.some.inj h]

theorem Core.altPrFpgaWriteInitIn_some (core : Core) (partialReconfig : Bool)
    {image : List Byte} {buf : Mem} (hbuf : ∀ i < image.length, buf i = memOf image i)
    {m : Regs σ} {ret : Int}
    (h : (core.altPrFpgaWriteInitIn D partialReconfig image m).1 = some ret) :
    core.altPrFpgaWriteInit D partialReconfig buf image.length m =
      (ret, (core.altPrFpgaWriteInitIn D partialReconfig image m).2) := by
  unfold altPrFpgaWriteInitIn at h ⊢
  cases partialReconfig with
  | false =>
    rw [← Option.some.inj h]
    cases core <;> rfl
  | true => cases core <;> exact writeInitIn_some D hbuf h

end

section
variable (s : Addr → Nat → U32)

/-! ## Reading past the end -/

/-- The image ends inside its id word, after the start checks have let it through. -/
structure EndsInId (count : Nat) : Prop where
  clear : csrAt s 0 &&& altPrCsrPrStart = 0
  announced : s altPrVer 0 = altPrVerPofId
  enough : altPrRbfIdOfst ≤ count
  short : count < altPrRbfIdOfst + 4

/-- The id word of such an image is read when there is a POF id to compare it with. -/
theorem streams_writeInitIn_none {settle : Act (Regs (Addr → Nat)) Int} {G : Prop} {k : Nat}
    (hsettle : SettleSpec settle G k) (image : List Byte) :
    Spec Fresh (writeInitIn (Device.streams s) settle image) fun ret _ _ =>
      (ret = none ↔ EndsInId s image.length ∧ s altPrPofId 0 ≠ 0) := by
  have hsome : ∀ (ret : Int) (pre : (Addr → Nat) → Prop),
      ¬ (EndsInId s image.length ∧ s altPrPofId 0 ≠ 0) →
      Spec pre (pure (some ret) : Act (Regs (Addr → Nat)) (Option Int)) fun ret _ _ =>
        (ret = none ↔ EndsInId s image.length ∧ s altPrPofId 0 ≠ 0) :=
    fun _ _ hno => Spec.pure fun _ _ => ⟨nofun, fun h => absurd h hno⟩
  have hstart : ∀ val : U32, ¬ (EndsInId s image.length ∧ s altPrPofId 0 ≠ 0) →
      Spec (fun n => n altPrCsr = 1) (writeInitIn.start (Device.streams s) settle val)
        fun ret _ _ => (ret = none ↔ EndsInId s image.length ∧ s altPrPofId 0 ≠ 0) :=
    fun val hno => Spec.bind (streams_start s hsettle Iff.rfl val) fun ret _ => hsome ret _ hno
  refine (streams_readl s altPrCsr 0 fun _ h => h.1).seq fun val _ h => ?_
  obtain ⟨rfl, -⟩ := h
  refine Spec.ite (fun hset => hsome _ _ fun h => hset h.1.clear) fun hclear => ?_
  refine (streams_readl s altPrVer 0 ?_).seq fun val _ h => ?_
  · intro v hv
    obtain ⟨n, hn, rfl⟩ := hv
    rw [Function.update_of_ne (by decide)]
    exact hn.2.1
  obtain ⟨rfl, -⟩ := h
  refine Spec.ite (fun hver => ?_) fun hver => ?_
  · refine Spec.ite (fun hlt => hsome _ _ fun h => absurd h.1.enough (by omega)) fun hlt => ?_
    refine (streams_readl s altPrPofId 0 ?_).seq fun val _ h => ?_
    · intro v hv
      obtain ⟨_, ⟨n, hn, rfl⟩, rfl⟩ := hv
      rw [Function.update_of_ne (by decide), Function.update_of_ne (by decide)]
      exact hn.2.2
    obtain ⟨rfl, -⟩ := h
    have hcsr : ∀ n : Addr → Nat, (∃ n₂, (∃ n₁, (∃ n₀, Fresh n₀ ∧
        n₁ = Function.update n₀ altPrCsr 1) ∧ n₂ = Function.update n₁ altPrVer 1) ∧
        n = Function.update n₂ altPrPofId 1) → n altPrCsr = 1 := by
      intro v hv
      obtain ⟨_, ⟨_, ⟨n, -, rfl⟩, rfl⟩, rfl⟩ := hv
      rfl
    refine Spec.ite (fun hpof => ?_) fun hpof => ?_
    · by_cases hlen : altPrRbfIdOfst + 4 ≤ image.length
      · have hno : ¬ (EndsInId s image.length ∧ s altPrPofId 0 ≠ 0) := fun h =>
          absurd h.1.short (by omega)
        rw [le32In, if_pos hlen]
        exact Spec.ite (fun _ => hsome _ _ hno) fun _ =>
          (hstart _ hno).mono hcsr fun _ _ _ h => h
      · rw [le32In, if_neg hlen]
        exact Spec.pure fun _ _ =>
          ⟨fun _ => ⟨⟨not_not.mp hclear, hver, by omega, by omega⟩, hpof⟩, fun _ => rfl⟩
    · exact (hstart _ fun h => hpof h.2).mono hcsr fun _ _ _ h => h
  · refine (hstart _ fun h => hver h.1.announced).mono ?_ fun _ _ _ h => h
    intro v hv
    obtain ⟨_, ⟨n, -, rfl⟩, rfl⟩ := hv
    rfl

/-- Where the wait for an initial state begins: the start checks have read the CSR once. -/
def csrReadOnce : Regs (Addr → Nat) := ⟨fun a => if a = altPrCsr then 1 else 0, []⟩

namespace Core

theorem settleSpec (core : Core) :
    SettleSpec (core.settle (Device.streams s)) (core.Settles s) core.initReads := by
  cases core with
  | a10 => exact settle_a10 s
  | s10 verbose => exact settle_s10 s verbose

/-- `write_init` of the fpga driver over a buffer without end. -/
theorem altPrFpgaWriteInit_outcome (core : Core) (buf : Mem) (count : Nat) :
    Spec Fresh (core.altPrFpgaWriteInit (Device.streams s) true buf count) fun ret es _ =>
      StartOutcome (Accepted s (le32 buf altPrRbfIdOfst) count ∧ core.Settles s) (lastRead s)
        ret es := by
  have h := streams_writeInit s (core.settleSpec s) buf count
  cases core <;> exact h.mono (fun _ h => h) fun _ _ _ h => h.1

/-- And over an image that ends. -/
theorem altPrFpgaWriteInitIn_outcome (core : Core) (image : List Byte) :
    Spec Fresh (core.altPrFpgaWriteInitIn (Device.streams s) true image) fun ret es _ =>
      (ret = none ↔ EndsInId s image.length ∧ s altPrPofId 0 ≠ 0) ∧
        ∀ r, ret = some r → StartOutcome
          (Accepted s (le32 (memOf image) altPrRbfIdOfst) image.length ∧ core.Settles s)
          (lastRead s) r es := by
  intro m hm
  obtain ⟨es, hes, hnone⟩ := streams_writeInitIn_none s (core.settleSpec s) image m hm
  refine ⟨es, hes, hnone, fun r hr => ?_⟩
  have heq := core.altPrFpgaWriteInitIn_some (Device.streams s) true
    (fun i _ => (rfl : memOf image i = memOf image i)) hr
  obtain ⟨es', hes', hout⟩ := core.altPrFpgaWriteInit_outcome s (memOf image) image.length m hm
  rw [heq] at hes' hout
  obtain rfl : es = es' := List.append_cancel_left (hes.symm.trans hes')
  exact hout

/-! ## When a start request is due -/

/-- The wait for an initial state succeeds. -/
def WaitSucceeds : Core → Prop
  | .a10 => True
  | .s10 _ => (S10.altPrWaitForInitialState (Device.streams s) csrReadOnce).1 = 0

/-- Everything `write_init` asks of the flag, the registers and the image. -/
structure MayStart (core : Core) (partialReconfig : Bool) (image : List Byte) : Prop where
  flag : partialReconfig = true
  clear : csrAt s 0 &&& altPrCsrPrStart = 0
  id : s altPrVer 0 = altPrVerPofId → altPrRbfIdOfst + 4 ≤ image.length ∧
    (s altPrPofId 0 = 0 ∨ s altPrPofId 0 = le32 (memOf image) altPrRbfIdOfst)
  ready : core.WaitSucceeds s

/-- A call reads nothing past the end of the image, and writes the start request exactly
    when one is due. -/
structure AcceptsExactly (core : Core) (partialReconfig : Bool) (image : List Byte)
    (ret : Option Int) (es : List (Access Addr U32)) : Prop where
  bounded : ret ≠ none
  starts : (∃ v, .write altPrCsr v ∈ es ∧ v &&& altPrCsrPrStart ≠ 0) ↔
    core.MayStart s partialReconfig image
  refuses : ¬ core.MayStart s partialReconfig image →
    (∃ e : Int, 0 < e ∧ ret = some (-e)) ∧ Silent es

variable {s}

theorem waitSucceeds_iff (core : Core) : core.WaitSucceeds s ↔ core.Settles s := by
  cases core with
  | a10 => exact Iff.rfl
  | s10 verbose =>
    have hwait := (streams_waitForInitialState s 1).at (m := csrReadOnce) rfl
    change (S10.waitForInitialState (Device.streams s) csrReadOnce).1 = 0 ↔
      csrAt s 1 &&& S10.altPrCsrStatusMsk ≠ S10.altPrCsrStatusBusy
    rw [hwait.1]
    by_cases hbusy : csrAt s 1 &&& S10.altPrCsrStatusMsk = S10.altPrCsrStatusBusy
    · rw [if_pos hbusy]
      exact ⟨fun h => absurd h (by decide), fun hne => absurd hbusy hne⟩
    · rw [if_neg hbusy]
      exact ⟨fun _ => hbusy, fun _ => rfl⟩

/-- Outside the id word the source's bound and a complete word ask the same. -/
theorem mayStart_iff (core : Core) (image : List Byte) (hends : ¬ EndsInId s image.length) :
    core.MayStart s true image ↔
      Accepted s (le32 (memOf image) altPrRbfIdOfst) image.length ∧ core.Settles s := by
  constructor
  · intro h
    refine ⟨⟨⟨h.clear, fun hver => (h.id hver).2⟩, fun hver => ?_⟩,
      core.waitSucceeds_iff.mp h.ready⟩
    have hlen := (h.id hver).1
    omega
  · intro hparts
    obtain ⟨⟨⟨hclear, hid⟩, hlen⟩, hsettles⟩ := hparts
    refine ⟨rfl, hclear, fun hver => ⟨?_, hid hver⟩, core.waitSucceeds_iff.mpr hsettles⟩
    by_contra hshort
    exact hends ⟨hclear, hver, hlen hver, by omega⟩

theorem not_mayStart_of_endsInId (core : Core) {partialReconfig : Bool} {image : List Byte}
    (hends : EndsInId s image.length) : ¬ core.MayStart s partialReconfig image := by
  intro h
  have hlen := (h.id hends.announced).1
  have hshort := hends.short
  omega

/-- An outcome under the condition that a start is due is what is asked. -/
theorem AcceptsExactly.of_outcome {core : Core} {partialReconfig : Bool} {image : List Byte}
    {val : U32} {r : Int} {es : List (Access Addr U32)} {ok : Prop}
    (hok : core.MayStart s partialReconfig image ↔ ok) (h : StartOutcome ok val r es) :
    core.AcceptsExactly s partialReconfig image (some r) es := by
  refine ⟨nofun, ?_, fun hno => ?_⟩
  · rw [hok]
    constructor
    · intro hparts
      obtain ⟨v, hv, -⟩ := hparts
      exact ((h.write_iff _ _).mp hv).1
    · intro hyes
      exact ⟨_, (h.write_iff _ _).mpr ⟨hyes, rfl, rfl⟩, start_bit val⟩
  · obtain ⟨hneg, hes⟩ := h.refuses fun h => hno (hok.mpr h)
    exact ⟨⟨-r, by omega, by rw [Int.neg_neg]⟩, hes⟩

/-- An image that ends inside its id word is read past its end, or started. -/
theorem not_acceptsExactly (core : Core) {image : List Byte} (hends : EndsInId s image.length)
    (h : s altPrPofId 0 ≠ 0 ∨ core.Settles s) {m : Regs (Addr → Nat)} (hm : Fresh m.dev) :
    ¬ core.AcceptsExactly s true image
      (core.altPrFpgaWriteInitIn (Device.streams s) true image m).1
      (trace (core.altPrFpgaWriteInitIn (Device.streams s) true image) m) := by
  obtain ⟨hnone, hout⟩ := (core.altPrFpgaWriteInitIn_outcome s image).at hm
  intro hacc
  by_cases hpof : s altPrPofId 0 = 0
  · obtain ⟨r, hr⟩ := Option.ne_none_iff_exists'.mp hacc.bounded
    have hok : Accepted s (le32 (memOf image) altPrRbfIdOfst) image.length ∧ core.Settles s :=
      ⟨⟨⟨hends.clear, fun _ => .inl hpof⟩, fun _ => hends.enough⟩,
        h.resolve_left fun hne => hne hpof⟩
    have hstart := ((hout r hr).write_iff _ _).mpr ⟨hok, rfl, rfl⟩
    exact core.not_mayStart_of_endsInId hends
      (hacc.starts.mp ⟨_, hstart, start_bit (lastRead s)⟩)
  · exact hacc.bounded (hnone.mpr ⟨hends, hpof⟩)

/-- For every image and all readings: a call behaves as asked, except on an image that ends
    inside its id word when there is a POF id to compare or nothing left to wait for. -/
theorem acceptsExactly_iff (core : Core) (s : Addr → Nat → U32) (partialReconfig : Bool)
    (image : List Byte) :
    core.AcceptsExactly s partialReconfig image
        (core.altPrFpgaWriteInitIn (Device.streams s) partialReconfig image ⟨fun _ => 0, []⟩).1
        (trace (core.altPrFpgaWriteInitIn (Device.streams s) partialReconfig image)
          ⟨fun _ => 0, []⟩) ↔
      ¬ (partialReconfig = true ∧ EndsInId s image.length ∧
        (s altPrPofId 0 ≠ 0 ∨ core.Settles s)) := by
  have hfresh : Fresh fun _ => 0 := ⟨rfl, rfl, rfl⟩
  constructor
  · intro hacc hparts
    obtain ⟨rfl, hends, h⟩ := hparts
    exact core.not_acceptsExactly hends h hfresh hacc
  intro hno
  cases partialReconfig with
  | false =>
    exact ⟨nofun, ⟨fun ⟨_, h, _⟩ => absurd h List.not_mem_nil, fun h => absurd h.flag nofun⟩,
      fun _ => ⟨⟨EINVAL, by decide, rfl⟩, silent_nil⟩⟩
  | true =>
    obtain ⟨hnone, hout⟩ := (core.altPrFpgaWriteInitIn_outcome s image).at
      (m := ⟨fun _ => 0, []⟩) hfresh
    have hne : (core.altPrFpgaWriteInitIn (Device.streams s) true image ⟨fun _ => 0, []⟩).1 ≠ none :=
      fun h => hno ⟨rfl, (hnone.mp h).1, .inl (hnone.mp h).2⟩
    obtain ⟨r, hr⟩ := Option.ne_none_iff_exists'.mp hne
    rw [hr]
    by_cases hends : EndsInId s image.length
    · -- no POF id to compare, and the wait fails
      have hset : ¬ core.Settles s := fun h => hno ⟨rfl, hends, .inr h⟩
      exact .of_outcome ⟨fun h => absurd h (core.not_mayStart_of_endsInId hends),
        fun h => absurd h.2 hset⟩ (hout r hr)
    · exact .of_outcome (core.mayStart_iff image hends) (hout r hr)

/-- VERSION announces a POF id, the POF id is zero, and the image has 285 bytes: the start
    request is written without a complete id word. -/
theorem not_acceptsExactly_285 :
    ¬ Core.a10.AcceptsExactly (fun a _ => if a = altPrVer then altPrVerPofId else 0) true
      (List.replicate 285 0)
      (Core.a10.altPrFpgaWriteInitIn
        (Device.streams fun a _ => if a = altPrVer then altPrVerPofId else 0) true
        (List.replicate 285 0) ⟨fun _ => 0, []⟩).1
      (trace (Core.a10.altPrFpgaWriteInitIn
        (Device.streams fun a _ => if a = altPrVer then altPrVerPofId else 0) true
        (List.replicate 285 0)) ⟨fun _ => 0, []⟩) := by
  refine Core.a10.not_acceptsExactly ⟨by decide, rfl, ?_, ?_⟩ (.inr trivial) ⟨rfl, rfl, rfl⟩
  · rw [List.length_replicate]
    decide
  · rw [List.length_replicate]
    decide

end Core

end

end FpgaPartialReconfig.Driver
