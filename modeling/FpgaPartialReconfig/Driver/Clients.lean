/-
  Several fpga-configure clients on one region.

  Each client freezes the region, loads its file and unfreezes the region, one ioctl at a
  time; the ioctls of the clients interleave in any order (`Pool`). The region controller is
  any device whose status follows the freeze and unfreeze requests (`RegionModel`), and
  `watched` notes whether a data word ever reaches the PR IP while the region is not frozen.

  Nothing keeps clients apart. A client that finds the region frozen goes on, so it depends
  on a freeze that another client's unfreeze takes away: `clients_write_unfrozen` is such a
  run. `clients_write_frozen` is what holds: no data word is written to an unfrozen region
  as long as every load comes with a freeze still standing, that is, with no unfreeze
  request gone through between the last successful freeze and the load.
-/
import FpgaPartialReconfig.Driver.Ioctl
import FpgaPartialReconfig.Lib.Runs

namespace FpgaPartialReconfig.Driver

open Bus

/-- A region controller at `offset`: the status shows exactly one of the two states, a
    control write with `FREEZE_REQ` freezes and one with `UNFREEZE_REQ` unfreezes, and
    nothing else does. -/
structure RegionModel {σ : Type} (D : Device Addr U32 σ) (offset : U32) where
  frozen : σ → Bool
  status : ∀ s, (D.read (statusAddr offset) s).1 =
    if frozen s = true then freezeReqDone else unfreezeReqDone
  frozen_read : ∀ a s, frozen (D.read a s).2 = frozen s
  frozen_ctrl : ∀ v s, frozen (D.write (ctrlAddr offset) v s) =
    if v &&& freezeReq ≠ 0 then true
    else if v &&& unfreezeReq ≠ 0 then false
    else frozen s
  frozen_write : ∀ a v s, a ≠ ctrlAddr offset → frozen (D.write a v s) = frozen s

section
variable {σ : Type} {D : Device Addr U32 σ} {offset : U32}

/-- The device, with a note of whether a data word was written while the region was not
    frozen. -/
def RegionModel.watched (M : RegionModel D offset) : Device Addr U32 (σ × Bool) where
  read a s := ((D.read a s.1).1, (D.read a s.1).2, s.2)
  write a v s := (D.write a v s.1, s.2 || (decide (a = altPrData) && !M.frozen s.1))

variable (M : RegionModel D offset)

/-! ## What the calls do to the region -/

theorem ctrlAddr_ne_prIp (ofs : Nat) : Addr.prIp ofs ≠ ctrlAddr offset := nofun

/-- The region controller calls write no data. -/
theorem RegionModel.region_quiet {α : Type} {x : Act (Regs (σ × Bool)) α}
    (h : Within M.watched Addr.IsPrBar x) (m : Regs (σ × Bool)) :
    (x m).2.dev.2 = m.dev.2 := by
  refine h.keeps (I := fun s => s.2 = m.dev.2) (fun _ _ _ hs => hs) ?_ m rfl
  intro v v s hv hs
  obtain ⟨ofs, rfl⟩ := hv
  simpa [RegionModel.watched] using hs

theorem RegionModel.frozen_prIp {α : Type} {x : Act (Regs (σ × Bool)) α}
    (h : Within M.watched Addr.IsPrIp x) (m : Regs (σ × Bool)) :
    M.frozen (x m).2.dev.1 = M.frozen m.dev.1 := by
  refine h.keeps (I := fun s => M.frozen s.1 = M.frozen m.dev.1) ?_ ?_ m rfl
  · exact fun a s _ hs => (M.frozen_read a s.1).trans hs
  · intro v v s hv hs
    obtain ⟨ofs, rfl⟩ := hv
    exact (M.frozen_write _ v s.1 (ctrlAddr_ne_prIp ofs)).trans hs

/-- A load on a frozen region leaves it frozen and is not noted. -/
theorem RegionModel.load_frozen {α : Type} {x : Act (Regs (σ × Bool)) α}
    (h : Within M.watched Addr.IsPrIp x) (m : Regs (σ × Bool)) (hfrozen : M.frozen m.dev.1 = true)
    (hquiet : m.dev.2 = false) :
    M.frozen (x m).2.dev.1 = true ∧ (x m).2.dev.2 = false := by
  refine h.keeps (I := fun s => M.frozen s.1 = true ∧ s.2 = false) ?_ ?_ m ⟨hfrozen, hquiet⟩
  · intro a s _ hs
    exact ⟨(M.frozen_read a s.1).trans hs.1, hs.2⟩
  · intro v v s hv hs
    obtain ⟨ofs, rfl⟩ := hv
    refine ⟨(M.frozen_write _ v s.1 (ctrlAddr_ne_prIp ofs)).trans hs.1, ?_⟩
    simp [RegionModel.watched, hs.1, hs.2]

theorem RegionModel.status_frozen (s : σ) :
    (D.read (statusAddr offset) s).1 &&& freezeReqDone ≠ 0 ↔ M.frozen s = true := by
  rw [M.status]
  cases M.frozen s <;> decide

/-- Reads keep the region as it is; a reading of the status says what that is. -/
theorem RegionModel.spec_readl (a : Addr) (b : Prop) :
    Spec (fun s => b → M.frozen s.1 = true) (readl M.watched a) fun v _ s =>
      (a = statusAddr offset → v &&& freezeReqDone ≠ 0 → M.frozen s.1 = true) ∧
        (b → M.frozen s.1 = true) := by
  refine (M.watched.spec_get a).mono (fun _ h => h) ?_
  intro v es s' hparts
  obtain ⟨-, s, hs, hread⟩ := hparts
  obtain rfl : v = (M.watched.read a s).1 := by rw [hread]
  obtain rfl : s' = (M.watched.read a s).2 := by rw [hread]
  refine ⟨fun ha hv => ?_, fun hb => (M.frozen_read a s.1).trans (hs hb)⟩
  subst ha
  exact (M.frozen_read _ s.1).trans ((M.status_frozen s.1).mp hv)

theorem RegionModel.spec_writel {v : U32} (hv : v &&& unfreezeReq = 0) (b : Prop) :
    Spec (fun s => b → M.frozen s.1 = true) (writel M.watched v (ctrlAddr offset)) fun _ _ s =>
      (b ∨ v &&& freezeReq ≠ 0) → M.frozen s.1 = true := by
  refine (M.watched.spec_put (ctrlAddr offset) v).mono (fun _ h => h) ?_
  intro _ es s' hread hor
  obtain ⟨-, s, hs, rfl⟩ := hread
  rw [show M.frozen (M.watched.write (ctrlAddr offset) v s).1 = _ from M.frozen_ctrl v s.1]
  split
  · rfl
  · rename_i hfreeze
    rw [if_neg (by rw [hv]; decide)]
    exact hor.elim hs fun h => absurd h hfreeze

theorem RegionModel.spec_readVersion (b : Prop) :
    Spec (fun s => b → M.frozen s.1 = true) (freezeBridgeReadVersion M.watched offset)
      fun _ _ s => b → M.frozen s.1 = true :=
  (M.spec_readl (versionAddr offset) b).bind fun _ _ =>
    Spec.ite (fun _ => Spec.pure fun _ h => h.2) fun _ => Spec.pure fun _ h => h.2

theorem RegionModel.spec_reqAck (reqAck : U32) (rounds : Nat) (b : Prop) :
    Spec (fun s => b → M.frozen s.1 = true)
      (freezeBridgeReqAck M.watched offset reqAck rounds) fun _ _ s =>
        b → M.frozen s.1 = true := by
  induction rounds with
  | zero => exact Spec.pure fun _ h => h
  | succ rounds ih =>
    exact (M.spec_readl (statusAddr offset) b).bind fun _ _ =>
      Spec.ite (fun _ => Spec.pure fun _ h => h.2) fun _ =>
        ih.mono (fun _ h => h.2) fun _ _ _ h => h

/-- A freeze call never unfreezes the region, and leaves it frozen when it returns zero. -/
theorem RegionModel.freezeEnable_frozen (rounds : Nat) (b : Prop) :
    Spec (fun s => b → M.frozen s.1 = true)
      (fpgaPrRegionControllerFreezeEnable M.watched rounds offset) fun ret _ s =>
        (b ∨ ret = some 0) → M.frozen s.1 = true := by
  refine (M.spec_readVersion b).bind fun supported _ => ?_
  refine Spec.ite (fun _ => Spec.pure fun _ h hor => h (hor.resolve_right nofun)) fun _ => ?_
  refine (M.spec_readl (statusAddr offset) b).bind fun status _ => ?_
  refine Spec.ite (fun hset => Spec.pure fun _ h _ => h.1 rfl hset) fun _ => ?_
  refine Spec.ite (fun _ => Spec.pure fun _ h hor => h.2 (hor.resolve_right nofun)) fun _ => ?_
  refine ((M.spec_writel (by decide : freezeReq &&& unfreezeReq = 0) b).mono (fun _ h => h.2)
    fun _ _ _ h => h).bind fun _ _ => ?_
  -- from the freeze request on the region is frozen
  refine ((M.spec_reqAck freezeReqDone rounds True).mono
    (fun _ h _ => h (.inr (by decide))) fun _ _ _ h => h).bind fun acked _ => ?_
  refine Spec.ite (fun _ => Spec.pure fun _ h _ => h trivial) fun _ => ?_
  refine (M.spec_writel (by decide : resetReq &&& unfreezeReq = 0) True).bind fun _ _ => ?_
  exact Spec.pure fun _ h _ => h (.inl trivial)

/-- An unfreeze call that returns an error leaves the region frozen. -/
theorem RegionModel.freezeDisable_frozen (rounds : Nat) (b : Prop) :
    Spec (fun s => b → M.frozen s.1 = true)
      (fpgaPrRegionControllerFreezeDisable M.watched rounds offset) fun ret _ s =>
        (∃ e, e < 0 ∧ ret = some e) → b → M.frozen s.1 = true := by
  have hzero : ¬ ∃ e : Int, e < 0 ∧ some (0 : Int) = some e := by
    intro hparts
    obtain ⟨e, he, h⟩ := hparts
    obtain rfl := Option.some.inj h
    exact absurd he (by decide)
  refine (M.spec_readVersion b).bind fun supported _ => ?_
  refine Spec.ite (fun _ => Spec.pure fun _ h _ => h) fun _ => ?_
  refine (M.spec_readl (statusAddr offset) b).bind fun status _ => ?_
  refine Spec.ite (fun _ => Spec.pure fun _ _ h => absurd h hzero) fun _ => ?_
  refine Spec.ite (fun _ => Spec.pure fun _ h _ => h.2) fun _ => ?_
  -- from here on the call ends in zero, or not at all
  refine (emits_readl M.watched (ctrlAddr offset)).spec.bind fun _ _ => ?_
  refine (emits_writel M.watched _ (ctrlAddr offset)).spec.bind fun _ _ => ?_
  refine (emits_writel M.watched _ (ctrlAddr offset)).spec.bind fun _ _ => ?_
  refine (within_freezeBridgeReqAck M.watched offset _ rounds).emits.spec.bind fun acked _ => ?_
  refine Spec.ite (fun _ => Spec.pure fun _ _ ⟨e, _, h⟩ => nomatch h) fun _ => ?_
  refine (emits_writel M.watched _ (ctrlAddr offset)).spec.bind fun _ _ => ?_
  exact Spec.pure fun _ _ h => absurd h hzero

/-! ## When a load is covered -/

def Request.IsEnable (q : Request) : Prop := ∃ arg, q = .freezeEnable arg
def Request.IsPr (q : Request) : Prop := ∃ arg, q = .initiatePr arg

/-- An unfreeze request that does not return an error. -/
def Unfreezing {ι : Type} (e : Event ι Request Reply) : Prop :=
  (∃ arg, e.call = .freezeDisable arg) ∧ ¬ ∃ err, err < 0 ∧ e.answer = answer err

/-- A freeze request returned zero, and no unfreeze request has gone through since. -/
def FreezeStands {ι : Type} (hist : List (Event ι Request Reply)) : Prop :=
  ∃ before e after, hist = before ++ e :: after ∧
    (e.call.IsEnable ∧ e.answer = answer 0) ∧ ∀ e' ∈ after, ¬ Unfreezing e'

/-- Every load comes while a freeze stands. -/
def Covered {ι : Type} (hist : List (Event ι Request Reply)) : Prop :=
  ∀ before e after, hist = before ++ e :: after → e.call.IsPr → FreezeStands before

theorem Covered.left {ι : Type} {xs ys : List (Event ι Request Reply)} (h : Covered (xs ++ ys)) :
    Covered xs := by
  rintro before e after rfl hpr
  exact h before e (after ++ ys) (by rw [List.append_assoc, List.cons_append]) hpr

theorem Covered.last {ι : Type} {xs : List (Event ι Request Reply)}
    {e : Event ι Request Reply} (h : Covered (xs ++ [e])) (he : e.call.IsPr) : FreezeStands xs :=
  h xs e [] rfl he

theorem Covered.nil {ι : Type} : Covered ([] : List (Event ι Request Reply)) := by
  intro before e after heq
  simp at heq

theorem Covered.snoc {ι : Type} {xs : List (Event ι Request Reply)} {e : Event ι Request Reply}
    (h : Covered xs) (he : e.call.IsPr → FreezeStands xs) : Covered (xs ++ [e]) :=
  forall_steps_snoc.mpr ⟨h, he⟩

theorem FreezeStands.snoc {ι : Type} {xs : List (Event ι Request Reply)}
    {e : Event ι Request Reply} (h : FreezeStands xs) (he : ¬ Unfreezing e) :
    FreezeStands (xs ++ [e]) := by
  obtain ⟨before, d, after, rfl, hd, hafter⟩ := h
  refine ⟨before, d, after ++ [e], by rw [List.append_assoc, List.cons_append], hd, ?_⟩
  intro e' he'
  rcases List.mem_append.mp he' with hmem | hmem
  · exact hafter e' hmem
  · exact List.mem_singleton.mp hmem ▸ he

theorem FreezeStands.of_enable {ι : Type} (xs : List (Event ι Request Reply))
    {e : Event ι Request Reply} (he : e.call.IsEnable) (hanswer : e.answer = answer 0) :
    FreezeStands (xs ++ [e]) :=
  ⟨xs, e, [], rfl, ⟨he, hanswer⟩, fun _ hmem => absurd hmem List.not_mem_nil⟩

/-- A freeze that stands after a call stood before it, or is that call. -/
theorem FreezeStands.of_snoc {ι : Type} {xs : List (Event ι Request Reply)}
    {e : Event ι Request Reply} (h : FreezeStands (xs ++ [e])) :
    (e.call.IsEnable ∧ e.answer = answer 0) ∨ (FreezeStands xs ∧ ¬ Unfreezing e) := by
  obtain ⟨before, d, after, heq, hd, hafter⟩ := h
  rcases List.eq_nil_or_concat after with rfl | ⟨mid, last, rfl⟩
  · obtain ⟨-, hlast⟩ := List.append_inj' heq rfl
    obtain rfl : e = d := List.cons.inj hlast |>.1
    exact .inl hd
  · rw [List.concat_eq_append, ← List.cons_append, ← List.append_assoc] at heq
    obtain ⟨hxs, hlast⟩ := List.append_inj' heq rfl
    obtain rfl : e = last := List.cons.inj hlast |>.1
    refine .inr ⟨⟨before, d, mid, hxs, hd, fun e' he' => hafter e' ?_⟩, hafter e ?_⟩
    · simp [he']
    · simp

/-! ## Every interleaving -/

/-- The requests of a client on this region. -/
def ClientCall (offset : U32) (q : Request) : Prop :=
  (q = .freezeEnable none ∨ q = .freezeEnable (some offset)) ∨ q.IsPr ∨
    (q = .freezeDisable none ∨ q = .freezeDisable (some offset))

theorem onlyCalls_partialReconfig (args : RunArgs) :
    (partialReconfig { args with regionControllerAddr := offset }).OnlyCalls
      (ClientCall offset) := by
  obtain ⟨rbf, opened, addr, enableCopied, prCopied, disableCopied⟩ := args
  refine checked_onlyCalls _ (.inl ?_) (checked_onlyCalls _ (.inr (.inl ⟨_, rfl⟩))
    (checked_onlyCalls _ (.inr (.inr ?_)) trivial))
  · cases enableCopied
    · exact .inl rfl
    · exact .inr rfl
  · cases disableCopied
    · exact .inl rfl
    · exact .inr rfl

/-- No data word was written to an unfrozen region, and while a freeze stands the region is
    frozen. -/
def RegionModel.Safe {ι : Type} (priv : Priv (σ × Bool)) (hist : List (Event ι Request Reply)) :
    Prop :=
  priv.regs.dev.2 = false ∧ (FreezeStands hist → M.frozen priv.regs.dev.1 = true)

theorem RegionModel.safe_step {ι : Type} (core : Core) (stack : Mem) (rounds : Nat)
    {priv : Priv (σ × Bool)} {hist : List (Event ι Request Reply)} (i : ι) {q : Request}
    (hsafe : M.Safe priv hist) (hq : ClientCall offset q)
    (hcovered : Covered (hist ++ [⟨i, q, (myIoctl M.watched core stack rounds q priv).1⟩])) :
    M.Safe (myIoctl M.watched core stack rounds q priv).2
      (hist ++ [⟨i, q, (myIoctl M.watched core stack rounds q priv).1⟩]) := by
  obtain ⟨hquiet, hfrozen⟩ := hsafe
  rcases hq with (rfl | rfl) | ⟨arg, rfl⟩ | hdisable
  · -- the argument could not be copied: nothing happens, and the call does not return zero
    refine ⟨hquiet, fun hstands => hfrozen ?_⟩
    rcases hstands.of_snoc with h | h
    · cases h.2
    · exact h.1
  · refine ⟨(M.region_quiet (within_freezeEnable M.watched rounds offset) priv.regs).trans hquiet,
      fun hstands => ?_⟩
    refine (M.freezeEnable_frozen rounds (FreezeStands hist)).at hfrozen ?_
    rcases hstands.of_snoc with ⟨-, hanswer⟩ | ⟨h, -⟩
    · right
      rw [myIoctl_freezeEnable] at hanswer
      obtain ⟨ret, hret, heq⟩ := Option.bind_eq_some_iff.mp hanswer
      rw [hret]
      obtain rfl : ret = 0 := congrArg Reply.ret (Option.some.inj heq)
      rfl
    · exact .inl h
  · -- a load: the freeze that covers it stands
    have hstands := hcovered.last ⟨arg, rfl⟩
    rcases arg with _ | ⟨_ | fp, configTimeout⟩
    · exact ⟨hquiet, fun _ => hfrozen hstands⟩
    · exact ⟨hquiet, fun _ => hfrozen hstands⟩
    · obtain ⟨hf, hq⟩ := M.load_frozen
        (within_fpgaConfigBufLoad M.watched core stack configTimeout fp priv.configState)
        priv.regs (hfrozen hstands) hquiet
      exact ⟨hq, fun _ => hf⟩
  · have hstands : ∀ {arg}, FreezeStands (hist ++ [⟨i, .freezeDisable arg,
        (myIoctl M.watched core stack rounds (.freezeDisable arg) priv).1⟩]) →
        FreezeStands hist ∧ ∃ err, err < 0 ∧
          (myIoctl M.watched core stack rounds (.freezeDisable arg) priv).1 = answer err := by
      intro arg h
      rcases h.of_snoc with ⟨⟨_, h⟩, -⟩ | ⟨h, hno⟩
      · cases h
      · exact ⟨h, not_not.mp fun hret => hno ⟨⟨arg, rfl⟩, hret⟩⟩
    rcases hdisable with rfl | rfl
    · exact ⟨hquiet, fun h => hfrozen (hstands h).1⟩
    · refine ⟨(M.region_quiet (within_freezeDisable M.watched rounds offset) priv.regs).trans
        hquiet, fun h => ?_⟩
      obtain ⟨hbefore, err, herr, hanswer⟩ := hstands h
      rw [myIoctl_freezeDisable] at hanswer
      obtain ⟨ret, hret, heq⟩ := Option.bind_eq_some_iff.mp hanswer
      obtain rfl : ret = err := congrArg Reply.ret (Option.some.inj heq)
      exact (M.freezeDisable_frozen rounds (FreezeStands hist)).at hfrozen ⟨ret, herr, hret⟩
        hbefore

/-- Any number of clients, each with its own file, and any interleaving of their ioctls: as
    long as every load comes while a freeze stands, no data word is written to the PR IP
    while the region is not frozen. -/
theorem clients_write_frozen {ι : Type} [DecidableEq ι] (core : Core) (stack : Mem)
    (rounds : Nat) (args : ι → RunArgs) (dev : σ) (upstreamDev : Option Upstream)
    (schedule : List ι) :
    let pool := Pool.run (myIoctl M.watched core stack rounds)
      (Pool.start (fpgaPcieProbe (dev, false) upstreamDev)
        fun i => partialReconfig { args i with regionControllerAddr := offset }) schedule
    Covered pool.history → pool.shared.regs.dev.2 = false := by
  intro pool hcovered
  have h0 : M.Safe (fpgaPcieProbe (dev, false) upstreamDev) ([] : List (Event ι Request Reply)) :=
    ⟨rfl, fun ⟨before, _, _, h, _⟩ => by cases before <;> cases h⟩
  exact (Pool.run_inv (C := Covered) (myIoctl M.watched core stack rounds)
    (fun _ _ h => h.left) (fun i => onlyCalls_partialReconfig (args i)) h0
    (fun _ _ i _ hsafe hq hc => M.safe_step core stack rounds i hsafe hq hc) schedule hcovered).1

/-! ## A load nothing covers -/

/-- A note stays. -/
theorem RegionModel.note_stays {α : Type} {P : Addr → Prop} {x : Act (Regs (σ × Bool)) α}
    (h : Within M.watched P x) (m : Regs (σ × Bool)) (hm : m.dev.2 = true) :
    (x m).2.dev.2 = true :=
  h.keeps (I := fun s => s.2 = true) (fun _ _ _ hs => hs)
    (fun a v s _ hs => by simp [RegionModel.watched, hs]) m hm

theorem RegionModel.feed_noted {check : Nat → Act (Regs (σ × Bool)) Bool}
    (hcheck : ∀ j, Within M.watched Addr.IsPrIp (check j)) (j : Nat) (w : U32) (ws : List U32)
    (m : Regs (σ × Bool)) (hm : M.frozen m.dev.1 = false) :
    (feed M.watched check j (w :: ws) m).2.dev.2 = true := by
  have hrest : Within M.watched Addr.IsPrIp (do
      let ok ← check (j + 1)
      if ok = true then
        feed M.watched check (if 1024 ≤ j + 1 then 0 else j + 1) ws
      else
        pure false) :=
    .bind (hcheck _) fun _ => .ite (within_feed M.watched hcheck _ ws) (.pure _)
  refine M.note_stays hrest (writel M.watched w altPrData m).2 ?_
  simp [writel, Device.put, RegionModel.watched, hm]

theorem RegionModel.streamImage_noted (core : Core) {bytes : List Byte} (h4 : 4 ≤ bytes.length)
    (m : Regs (σ × Bool)) (hm : M.frozen m.dev.1 = false) :
    (core.streamImage M.watched bytes m).2.dev.2 = true := by
  unfold Core.streamImage Core.stream
  rw [wordsBetween_cons _ (by omega : 0 < bytes.length / 4)]
  have hfeed := M.feed_noted (core.within_chunkCheck M.watched) 0 (fileWord bytes 0)
    (wordsBetween bytes (0 + 1) (bytes.length / 4)) (core.preWrite M.watched m).2
    ((M.frozen_prIp (core.within_preWrite M.watched) m).trans hm)
  simp only [Act.bind_apply, Act.ite_apply, Act.pure_apply]
  split
  · exact M.note_stays (within_closeWrite M.watched _ _) _ hfeed
  · exact hfeed

/-- Once its start checks pass on an unfrozen region, a load is noted. -/
theorem RegionModel.load_noted (core : Core) (stack : Mem) (configTimeout : Int) (fp : RbfFile)
    (configState : FpgaState) (hmin : 1024 ≤ fp.size) (hmax : fp.size < 2 ^ 31)
    (m : Regs (σ × Bool)) (hm : M.frozen m.dev.1 = false)
    (hinit : (core.altPrIpWriteInit M.watched (fp.kernelRead 0 1024 stack).2 1024 m).1 = 0) :
    (fpgaConfigBufLoad M.watched core stack configTimeout fp configState m).2.dev.2 = true := by
  unfold fpgaConfigBufLoad bufLoad
  rw [if_neg (fun h => h ((read_1024 stack).mpr hmin)),
    core.altPrIpFpgaWrite_small _ fp stack (by omega) hmax]
  have h4 : 4 ≤ fp.bytes.length := by
    simp only [RbfFile.size] at hmin
    omega
  have hwrite := M.streamImage_noted core h4 _
    ((M.frozen_prIp (core.within_altPrIpWriteInit M.watched (fp.kernelRead 0 1024 stack).2 1024)
      m).trans hm)
  simp only [Act.bind_apply, Act.ite_apply, Act.pure_apply, hinit, ne_eq, not_true_eq_false,
    if_false]
  split
  · exact hwrite
  · split <;>
      exact M.note_stays (core.within_altPrIpFpgaWriteComplete M.watched configTimeout) _ hwrite

end

/-! ## Two clients on a simulated region -/

/-- A region at offset 0 of BAR 4 with a PR IP that always reports success. The state is
    whether the region is frozen. -/
def simRegion : Device Addr U32 Bool where
  read a frozen :=
    (if a = versionAddr 0 then freezeBridgeSupportedVersion
      else if a = statusAddr 0 then if frozen = true then freezeReqDone else unfreezeReqDone
      else if a = altPrCsr then A10.altPrCsrStatusPrSuccess
      else 0, frozen)
  write a v frozen :=
    if a = ctrlAddr 0 then
      if v &&& freezeReq ≠ 0 then true
      else if v &&& unfreezeReq ≠ 0 then false
      else frozen
    else frozen

def simModel : RegionModel simRegion 0 where
  frozen := id
  status frozen := by cases frozen <;> with_unfolding_all rfl
  frozen_read _ _ := rfl
  frozen_ctrl v frozen := by simp only [simRegion, if_true, id]
  frozen_write a v frozen h := by simp only [simRegion, if_neg h, id]

theorem sim_freezeEnable (m : Regs (Bool × Bool)) :
    (fpgaPrRegionControllerFreezeEnable simModel.watched 1 0 m).1 = some 0 := by
  obtain ⟨⟨frozen, note⟩, log⟩ := m
  cases frozen <;> with_unfolding_all rfl

theorem sim_freezeDisable (m : Regs (Bool × Bool)) :
    (fpgaPrRegionControllerFreezeDisable simModel.watched 1 0 m).1 = some 0 ∧
      (fpgaPrRegionControllerFreezeDisable simModel.watched 1 0 m).2.dev.1 = false := by
  obtain ⟨⟨frozen, note⟩, log⟩ := m
  cases frozen <;> constructor <;> with_unfolding_all rfl

def zeroFile : RbfFile := .ofBytes (List.replicate 1024 0)

/-- Client requests on the simulated region. -/
def simArgs : RunArgs := ⟨zeroFile, true, 0, true, true, true⟩

/-- The driver over the simulated region. -/
def simIoctl : Request → Act (Priv (Bool × Bool)) (Option Reply) :=
  myIoctl simModel.watched .a10 (fun _ => 0) 1

theorem size_zeroFile : zeroFile.size = 1024 := by
  rw [zeroFile, RbfFile.size_ofBytes, List.length_replicate]

/-- The start checks pass: the status is never "started" and there is no POF id. -/
theorem sim_writeInit (buf : Mem) (m : Regs (Bool × Bool)) :
    (A10.altPrIpWriteInit simModel.watched buf 1024 m).1 = 0 := by
  obtain ⟨⟨frozen, note⟩, log⟩ := m
  with_unfolding_all rfl

theorem sim_initiatePr (priv : Priv (Bool × Bool)) :
    (simIoctl simArgs.initiatePr priv).1 = answer 0 ∧
      (priv.regs.dev.1 = false → (simIoctl simArgs.initiatePr priv).2.regs.dev.2 = true) := by
  rcases myIoctl_initiatePr simModel.watched .a10 (fun _ => 0) 1 simArgs priv with
    ⟨-, -, hanswer, hregs⟩ | ⟨hno, -⟩
  · refine ⟨hanswer, fun hm => ?_⟩
    rw [simIoctl, hregs]
    exact simModel.load_noted .a10 (fun _ => 0) 10 simArgs.rbf priv.configState
      (by rw [simArgs, size_zeroFile]) (by rw [simArgs, size_zeroFile]; decide) priv.regs hm
      (sim_writeInit _ _)
  · exact absurd ⟨rfl, rfl⟩ hno

theorem sim_freezeEnable_answer (priv : Priv (Bool × Bool)) :
    (simIoctl simArgs.freezeEnable priv).1 = answer 0 :=
  congrArg (·.bind answer) (sim_freezeEnable priv.regs)

theorem sim_freezeDisable_answer (priv : Priv (Bool × Bool)) :
    (simIoctl simArgs.freezeDisable priv).1 = answer 0 ∧
      (simIoctl simArgs.freezeDisable priv).2.regs.dev.1 = false :=
  ⟨congrArg (·.bind answer) (sim_freezeDisable priv.regs).1, (sim_freezeDisable priv.regs).2⟩

/-- Client 0 freezes, client 1 finds the region frozen and goes on, client 0 loads and
    unfreezes, and client 1 loads into the running region. -/
theorem clients_write_unfrozen :
    (Pool.run simIoctl (Pool.start (fpgaPcieProbe (false, false) none)
      fun _ : Fin 2 => partialReconfig simArgs) [0, 1, 0, 0, 1]).shared.regs.dev.2 = true := by
  simp only [Pool.run, List.foldl_cons, List.foldl_nil]
  generalize hp₀ : (Pool.start (fpgaPcieProbe (false, false) none)
    fun _ : Fin 2 => partialReconfig simArgs) = p₀
  have hstart : ∀ i, p₀.prog i = some (partialReconfig simArgs) := fun i => by rw [← hp₀]; rfl
  obtain ⟨-, hprog₁, -⟩ := step_checked simIoctl _ p₀ 0 (hstart 0) (sim_freezeEnable_answer _)
  generalize p₀.step simIoctl 0 = p₁ at *
  obtain ⟨-, hprog₂, -⟩ := step_checked simIoctl _ p₁ 1 (by rw [hprog₁]; exact hstart 1)
    (sim_freezeEnable_answer _)
  generalize p₁.step simIoctl 1 = p₂ at *
  obtain ⟨-, hprog₃, -⟩ := step_checked simIoctl _ p₂ 0 (by rw [hprog₂, hprog₁]; rfl)
    (sim_initiatePr _).1
  generalize p₂.step simIoctl 0 = p₃ at *
  obtain ⟨hshared₄, hprog₄, -⟩ := step_checked simIoctl _ p₃ 0 (by rw [hprog₃]; rfl)
    (sim_freezeDisable_answer _).1
  generalize p₃.step simIoctl 0 = p₄ at *
  obtain ⟨hshared₅, -, -⟩ := step_checked simIoctl _ p₄ 1 (by rw [hprog₄, hprog₃, hprog₂]; rfl)
    (sim_initiatePr _).1
  rw [hshared₅]
  refine (sim_initiatePr p₄.shared).2 ?_
  rw [hshared₄]
  exact (sim_freezeDisable_answer p₃.shared).2

/-- The calls of two clients in turn: both freeze, both load, and only then do they unfreeze. -/
def inTurn : List (Event (Fin 2) Request Reply) :=
  [⟨0, simArgs.freezeEnable, answer 0⟩, ⟨1, simArgs.freezeEnable, answer 0⟩] ++
    [⟨0, simArgs.initiatePr, answer 0⟩] ++ [⟨1, simArgs.initiatePr, answer 0⟩] ++
    [⟨0, simArgs.freezeDisable, answer 0⟩] ++ [⟨1, simArgs.freezeDisable, answer 0⟩]

theorem covered_inTurn : Covered inTurn := by
  have henable : ¬ simArgs.freezeEnable.IsPr := by
    intro hpr
    obtain ⟨arg, harg⟩ := hpr
    cases harg
  have hdisable : ¬ simArgs.freezeDisable.IsPr := by
    intro hpr
    obtain ⟨arg, harg⟩ := hpr
    cases harg
  have hload : ¬ Unfreezing (ι := Fin 2) ⟨0, simArgs.initiatePr, answer 0⟩ := by
    intro hunfreezing
    obtain ⟨⟨arg, harg⟩, -⟩ := hunfreezing
    cases harg
  have hfrozen : FreezeStands (ι := Fin 2)
      ([⟨0, simArgs.freezeEnable, answer 0⟩] ++ [⟨1, simArgs.freezeEnable, answer 0⟩]) :=
    .of_enable _ ⟨_, rfl⟩ rfl
  unfold inTurn
  refine Covered.snoc (Covered.snoc (Covered.snoc (Covered.snoc ?_ ?_) ?_) ?_) ?_
  · exact (Covered.nil.snoc (e := ⟨0, simArgs.freezeEnable, answer 0⟩) fun hpr =>
      absurd hpr henable).snoc fun hpr => absurd hpr henable
  · exact fun _ => hfrozen
  · exact fun _ => hfrozen.snoc hload
  · exact fun hpr => absurd hpr hdisable
  · exact fun hpr => absurd hpr hdisable

theorem history_inTurn : (Pool.run simIoctl (Pool.start (fpgaPcieProbe (false, false) none)
    fun _ : Fin 2 => partialReconfig simArgs) [0, 1, 0, 1, 0, 1]).history = inTurn := by
  simp only [Pool.run, List.foldl_cons, List.foldl_nil]
  generalize hp₀ : (Pool.start (fpgaPcieProbe (false, false) none)
    fun _ : Fin 2 => partialReconfig simArgs) = p₀
  have hstart : ∀ i, p₀.prog i = some (partialReconfig simArgs) := fun i => by rw [← hp₀]; rfl
  have hhist₀ : p₀.history = [] := by rw [← hp₀]; rfl
  obtain ⟨-, hprog₁, hhist₁⟩ := step_checked simIoctl _ p₀ 0 (hstart 0) (sim_freezeEnable_answer _)
  generalize p₀.step simIoctl 0 = p₁ at *
  obtain ⟨-, hprog₂, hhist₂⟩ := step_checked simIoctl _ p₁ 1 (by rw [hprog₁]; exact hstart 1)
    (sim_freezeEnable_answer _)
  generalize p₁.step simIoctl 1 = p₂ at *
  obtain ⟨-, hprog₃, hhist₃⟩ := step_checked simIoctl _ p₂ 0 (by rw [hprog₂, hprog₁]; rfl)
    (sim_initiatePr _).1
  generalize p₂.step simIoctl 0 = p₃ at *
  obtain ⟨-, hprog₄, hhist₄⟩ := step_checked simIoctl _ p₃ 1 (by rw [hprog₃, hprog₂]; rfl)
    (sim_initiatePr _).1
  generalize p₃.step simIoctl 1 = p₄ at *
  obtain ⟨-, hprog₅, hhist₅⟩ := step_checked simIoctl _ p₄ 0 (by rw [hprog₄, hprog₃]; rfl)
    (sim_freezeDisable_answer _).1
  generalize p₄.step simIoctl 0 = p₅ at *
  obtain ⟨-, -, hhist₆⟩ := step_checked simIoctl _ p₅ 1 (by rw [hprog₅, hprog₄]; rfl)
    (sim_freezeDisable_answer _).1
  rw [hhist₆, hhist₅, hhist₄, hhist₃, hhist₂, hhist₁, hhist₀]
  rfl

/-- Client 1 relies on the freeze of client 0, which stands until both have loaded. -/
theorem clients_write_frozen_inTurn :
    (Pool.run simIoctl (Pool.start (fpgaPcieProbe (false, false) none)
      fun _ : Fin 2 => partialReconfig simArgs) [0, 1, 0, 1, 0, 1]).shared.regs.dev.2 = false := by
  have hsafe := clients_write_frozen simModel .a10 (fun _ => 0) 1 (fun _ : Fin 2 => simArgs) false
    none [0, 1, 0, 1, 0, 1]
  have haddr : { simArgs with regionControllerAddr := 0 } = simArgs := rfl
  have hioctl : myIoctl simModel.watched .a10 (fun _ => 0) 1 = simIoctl := rfl
  simp only [haddr, hioctl, history_inTurn] at hsafe
  exact hsafe covered_inTurn

end FpgaPartialReconfig.Driver
