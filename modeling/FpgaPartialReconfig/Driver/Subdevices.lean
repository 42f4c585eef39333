/-
  The subdevices of the fpga driver.

  A card's list of subdevices is filled by the probe loop over a device tree and emptied by
  the removal loop; `state` and `base_dtb` both run the two. `Books` says that the list and
  the history of subdriver calls agree: what was probed with success has been removed once,
  unless it is in the list, and then it has not. The loops keep the books whatever the steps
  of a probe return, and every write either leaves the list alone, empties it, or empties it
  and then fills it from one tree (`write_of_probes`, `write_of_not_probes`).

  `subdevices_intact` is what follows for every sequence of writes: a list that is not empty
  means `ST_BASE_PROBED`; there the list is that of the last tree probed, one entry for each
  node that could be deployed; and no tree is probed before every subdevice of an earlier one
  has been removed.
-/
import FpgaPartialReconfig.Driver.Debugfs
import Mathlib.Data.List.Count
import Mathlib.Data.List.Nodup

namespace FpgaPartialReconfig.Driver.Debugfs

/-! ## Which nodes are deployed -/

/-- The driver, BAR and offset a subdevice was probed with. -/
def Fdev.target (fdev : Fdev) : FpgaDrvEntry × U32 × U32 := (fdev.drv, fdev.bar, fdev.offset)

/-- Every step of the probe goes through. -/
def ProbeSteps.Succeeds (steps : ProbeSteps) : Prop :=
  steps.allocated = true ∧ steps.setName = 0 ∧ steps.deviceAdd = 0 ∧ steps.probe = 0

instance (steps : ProbeSteps) : Decidable steps.Succeeds :=
  inferInstanceAs (Decidable (_ ∧ _ ∧ _ ∧ _))

/-- What node `k` is deployed as: it has a target, and its probe succeeds. -/
def deployed (barMapped : Nat → Bool) (steps : Nat → ProbeSteps) (node : FdtNode × Nat) :
    Option (FpgaDrvEntry × U32 × U32) :=
  if (steps node.2).Succeeds then probeTarget barMapped node.1 else none

/-- A write that goes through the nodes of its tree. -/
def Write.Probes (w : Write) (priv : Priv) : Prop :=
  (w.Redeploys ∨ w.DeploysRom ∧ priv.state = .idle) ∧ w.fdt.checkHeader = 0

instance (w : Write) : Decidable w.Redeploys := inferInstanceAs (Decidable (_ ∧ _ ∧ _))

instance (w : Write) : Decidable w.DeploysRom := inferInstanceAs (Decidable (_ ∧ _ ∧ _ ∧ _))

instance (w : Write) (priv : Priv) : Decidable (w.Probes priv) :=
  inferInstanceAs (Decidable (_ ∧ _))

/-- The card, and the last write that probed its tree. -/
def track (p : Priv × Option Write) (w : Write) : Priv × Option Write :=
  (write p.1 w, if w.Probes p.1 then some w else p.2)

def lastProbed (priv : Priv) (ws : List Write) : Option Write := (run track (priv, none) ws).2

/-- The list holds one subdevice for each node of the tree that is deployed, and nothing
    else. The last one probed comes first. -/
structure DeployedFrom (w : Write) (barMapped : Nat → Bool) (priv : Priv) : Prop where
  nodes : priv.fdevList.reverse.map Fdev.target =
    w.fdt.nodes.zipIdx.filterMap (deployed barMapped w.steps)
  distinct : (priv.fdevList.map Fdev.allocation).Nodup

/-! ## The books -/

/-- The list and the history of subdriver calls agree. -/
structure Books (priv : Priv) : Prop where
  fresh : ∀ fdev ret, .probe fdev ret ∈ priv.calls → fdev.allocation < priv.allocations
  removed : ∀ fdev, .remove fdev ∈ priv.calls → .probe fdev 0 ∈ priv.calls
  listed : ∀ fdev ∈ priv.fdevList, .probe fdev 0 ∈ priv.calls
  distinct : (priv.fdevList.map Fdev.allocation).Nodup
  counted : ∀ fdev, .probe fdev 0 ∈ priv.calls →
    priv.calls.count (.remove fdev) = if fdev ∈ priv.fdevList then 0 else 1

/-- Equal in all that the books are about. -/
structure SameBooks (priv priv' : Priv) : Prop where
  fdevList : priv'.fdevList = priv.fdevList
  allocations : priv'.allocations = priv.allocations
  calls : priv'.calls = priv.calls
  barMapped : priv'.barMapped = priv.barMapped

theorem Books.congr {priv priv' : Priv} (h : Books priv) (hsame : SameBooks priv priv') :
    Books priv' := by
  constructor
  · rw [hsame.calls, hsame.allocations]
    exact h.fresh
  · rw [hsame.calls]
    exact h.removed
  · rw [hsame.calls, hsame.fdevList]
    exact h.listed
  · rw [hsame.fdevList]
    exact h.distinct
  · rw [hsame.calls, hsame.fdevList]
    exact h.counted

/-- A subdevice at a new address has not been called. -/
theorem Books.not_called {priv : Priv} (h : Books priv) {fdev : Fdev}
    (hnew : priv.allocations ≤ fdev.allocation) :
    (∀ ret, .probe fdev ret ∉ priv.calls) ∧ .remove fdev ∉ priv.calls := by
  have hprobe : ∀ ret, .probe fdev ret ∉ priv.calls := by
    intro ret hmem
    have hlt := h.fresh fdev ret hmem
    omega
  exact ⟨hprobe, fun hmem => hprobe 0 (h.removed fdev hmem)⟩

section
variable {calls : List SubdrvCall} {fdev g : Fdev} {ret r : Int}

theorem count_probed : (calls ++ [SubdrvCall.probe fdev ret]).count (SubdrvCall.remove g) =
    calls.count (SubdrvCall.remove g) := by
  rw [List.count_append, List.count_singleton]
  rfl

theorem probe_mem_probed : SubdrvCall.probe g r ∈ calls ++ [SubdrvCall.probe fdev ret] ↔
    SubdrvCall.probe g r ∈ calls ∨ g = fdev ∧ r = ret := by
  rw [List.mem_append, List.mem_singleton, SubdrvCall.probe.injEq]

theorem remove_mem_probed : SubdrvCall.remove g ∈ calls ++ [SubdrvCall.probe fdev ret] ↔
    SubdrvCall.remove g ∈ calls := by
  simp

end

/-- What any probe at a new address leaves of the books. -/
theorem Books.fresh_probed {priv : Priv} (h : Books priv) {fdev : Fdev} (ret : Int)
    (hnew : fdev.allocation = priv.allocations) (g : Fdev) (r : Int)
    (hg : .probe g r ∈ priv.calls ++ [.probe fdev ret]) : g.allocation < priv.allocations + 1 := by
  rcases probe_mem_probed.mp hg with hg | ⟨rfl, -⟩
  · exact Nat.lt_succ_of_lt (h.fresh g r hg)
  · omega

/-- A probe that fails is noted in the history only. -/
theorem Books.probe_fails {priv : Priv} (h : Books priv) {fdev : Fdev} {ret : Int}
    (hnew : fdev.allocation = priv.allocations) (hret : ret ≠ 0) :
    Books { priv with
      allocations := priv.allocations + 1, calls := priv.calls ++ [.probe fdev ret] } := by
  refine ⟨h.fresh_probed ret hnew, fun g hg => ?_, fun g hg => ?_, h.distinct, fun g hg => ?_⟩
  · exact probe_mem_probed.mpr (.inl (h.removed g (remove_mem_probed.mp hg)))
  · exact probe_mem_probed.mpr (.inl (h.listed g hg))
  · rcases probe_mem_probed.mp hg with hg | ⟨-, h0⟩
    · exact count_probed.trans (h.counted g hg)
    · exact absurd h0.symm hret

/-- A probe that succeeds puts a new subdevice in the list. -/
theorem Books.probe_succeeds {priv : Priv} (h : Books priv) {fdev : Fdev}
    (hnew : fdev.allocation = priv.allocations) :
    Books { priv with
      allocations := priv.allocations + 1, calls := priv.calls ++ [.probe fdev 0],
      fdevList := fdev :: priv.fdevList } := by
  obtain ⟨-, hremove⟩ := h.not_called (Nat.le_of_eq hnew.symm)
  refine ⟨h.fresh_probed 0 hnew, fun g hg => ?_, fun g hg => ?_, ?_, fun g hg => ?_⟩
  · exact probe_mem_probed.mpr (.inl (h.removed g (remove_mem_probed.mp hg)))
  · rcases List.mem_cons.mp hg with rfl | hg
    · exact probe_mem_probed.mpr (.inr ⟨rfl, rfl⟩)
    · exact probe_mem_probed.mpr (.inl (h.listed g hg))
  · refine List.nodup_cons.mpr ⟨fun hmem => ?_, h.distinct⟩
    obtain ⟨g, hg, halloc⟩ := List.mem_map.mp hmem
    have hlt := h.fresh g 0 (h.listed g hg)
    omega
  · refine count_probed.trans ?_
    by_cases heq : g = fdev
    · rw [heq, if_pos List.mem_cons_self]
      exact List.count_eq_zero_of_not_mem hremove
    · have hold : SubdrvCall.probe g 0 ∈ priv.calls :=
        (probe_mem_probed.mp hg).resolve_right fun h => heq h.1
      rw [h.counted g hold]
      simp only [List.mem_cons, heq, false_or]

/-! ## The loops -/

/-- A probe adds to the history no removal. -/
structure Probed (priv priv' : Priv) : Prop where
  books : Books priv'
  calls : ∃ probed, priv'.calls = priv.calls ++ probed ∧ ∀ fdev, .remove fdev ∉ probed
  barMapped : priv'.barMapped = priv.barMapped

theorem Probed.trans {priv priv' priv'' : Priv} (h : Probed priv priv') (h' : Probed priv' priv'') :
    Probed priv priv'' := by
  obtain ⟨probed, hcalls, hno⟩ := h.calls
  obtain ⟨probed', hcalls', hno'⟩ := h'.calls
  refine ⟨h'.books, ⟨probed ++ probed', ?_, fun fdev hmem => ?_⟩, h'.barMapped.trans h.barMapped⟩
  · rw [hcalls', hcalls, List.append_assoc]
  · rcases List.mem_append.mp hmem with hmem | hmem
    · exact hno fdev hmem
    · exact hno' fdev hmem

/-- One probe keeps the books, and adds its target to the list exactly if it succeeds. -/
theorem probeOne_probed (drv : FpgaDrvEntry) (bar offset : U32) (steps : ProbeSteps)
    {priv : Priv} (h : Books priv) :
    let priv' := (fpgaPcieProbeOne drv bar offset steps priv).2
    Probed priv priv' ∧ priv'.fdevList.map Fdev.target =
      (if steps.Succeeds then [(drv, bar, offset)] else []) ++ priv.fdevList.map Fdev.target := by
  intro priv'
  have hno : ∀ (fdev g : Fdev) (ret : Int), SubdrvCall.remove g ∉ [SubdrvCall.probe fdev ret] :=
    fun _ _ _ hmem => by cases List.mem_singleton.mp hmem
  -- the steps before the driver's own probe leave the history alone
  have hsilent : ∀ q : Priv, Books q → q.calls = priv.calls → q.barMapped = priv.barMapped →
      q.fdevList = priv.fdevList → ¬ steps.Succeeds → Probed priv q ∧
        q.fdevList.map Fdev.target = (if steps.Succeeds then [(drv, bar, offset)] else []) ++
          priv.fdevList.map Fdev.target := by
    intro q hbooks hcalls hbars hlist hfail
    refine ⟨⟨hbooks, ⟨[], ?_, fun _ => List.not_mem_nil⟩, hbars⟩, ?_⟩
    · rw [hcalls, List.append_nil]
    · rw [if_neg hfail, hlist]
      rfl
  have hmore : Books { priv with allocations := priv.allocations + 1 } :=
    ⟨fun g r hg => Nat.lt_succ_of_lt (h.fresh g r hg), h.removed, h.listed, h.distinct, h.counted⟩
  unfold priv' fpgaPcieProbeOne
  by_cases hallocated : steps.allocated = false
  · rw [if_pos hallocated]
    exact hsilent priv h rfl rfl rfl fun hs => by
      rw [hs.1] at hallocated
      cases hallocated
  rw [if_neg hallocated]
  by_cases hname : steps.setName ≠ 0
  · simp only [if_pos hname]
    exact hsilent _ hmore rfl rfl rfl fun hs => hname hs.2.1
  simp only [if_neg hname]
  by_cases hadd : steps.deviceAdd ≠ 0
  · simp only [if_pos hadd]
    exact hsilent _ hmore rfl rfl rfl fun hs => hadd hs.2.2.1
  simp only [if_neg hadd]
  by_cases hprobe : steps.probe ≠ 0
  · simp only [if_pos hprobe]
    refine ⟨⟨h.probe_fails rfl hprobe, ⟨_, rfl, fun g => hno _ g _⟩, rfl⟩, ?_⟩
    rw [if_neg fun hs : steps.Succeeds => hprobe hs.2.2.2]
    rfl
  · have hzero : steps.probe = 0 := not_not.mp hprobe
    have hs : steps.Succeeds :=
      ⟨by simpa using hallocated, not_not.mp hname, not_not.mp hadd, hzero⟩
    simp only [hzero, if_pos hs]
    exact ⟨⟨h.probe_succeeds rfl, ⟨_, rfl, fun g => hno _ g _⟩, rfl⟩, rfl⟩

/-- The probe loop keeps the books, and adds what its nodes are deployed as. -/
theorem probeNodes_probed (steps : Nat → ProbeSteps) (k : Nat) (nodes : List FdtNode)
    {priv : Priv} (h : Books priv) :
    let priv' := probeNodes steps k nodes priv
    Probed priv priv' ∧ priv'.fdevList.reverse.map Fdev.target =
      priv.fdevList.reverse.map Fdev.target ++
        (nodes.zipIdx k).filterMap (deployed priv.barMapped steps) := by
  induction nodes generalizing k priv with
  | nil =>
    refine ⟨⟨h, ⟨[], ?_, fun _ => List.not_mem_nil⟩, rfl⟩, ?_⟩
    · exact (List.append_nil _).symm
    · exact (List.append_nil _).symm
  | cons node nodes ih =>
    rw [List.zipIdx_cons]
    unfold probeNodes
    cases htarget : probeTarget priv.barMapped node with
    | none =>
      have hnone : deployed priv.barMapped steps (node, k) = none := by
        simp only [deployed, htarget, ite_self]
      rw [List.filterMap_cons_none hnone]
      exact ih (k + 1) h
    | some target =>
      obtain ⟨drv, bar, offset⟩ := target
      obtain ⟨hone, htargets⟩ := probeOne_probed drv bar offset (steps k) h
      obtain ⟨hrest, hnodes⟩ := ih (k + 1) hone.books
      refine ⟨hone.trans hrest, ?_⟩
      rw [hnodes, hone.barMapped, List.map_reverse, htargets, List.reverse_append,
        ← List.map_reverse]
      by_cases hs : (steps k).Succeeds
      · have hsome : deployed priv.barMapped steps (node, k) = some (drv, bar, offset) := by
          simp only [deployed, if_pos hs, htarget]
        rw [if_pos hs, List.filterMap_cons_some hsome]
        simp
      · have hnone : deployed priv.barMapped steps (node, k) = none := by
          simp only [deployed, if_neg hs]
        rw [if_neg hs, List.filterMap_cons_none hnone]
        simp

theorem removeFdevs_books (fdevs : List Fdev) (priv : Priv) :
    (removeFdevs fdevs priv).calls = priv.calls ++ fdevs.map .remove ∧
      (removeFdevs fdevs priv).allocations = priv.allocations ∧
      (removeFdevs fdevs priv).barMapped = priv.barMapped := by
  induction fdevs generalizing priv with
  | nil => exact ⟨(List.append_nil _).symm, rfl, rfl⟩
  | cons fdev fdevs ih =>
    unfold removeFdevs
    obtain ⟨hcalls, hallocations, hbars⟩ := ih (fpgaPcieRemoveOne fdev { priv with fdevList := fdevs })
    refine ⟨?_, hallocations, hbars⟩
    rw [hcalls, List.map_cons, fpgaPcieRemoveOne, List.append_assoc]
    rfl

theorem removeAll_calls (priv : Priv) : (fpgaPcieRemoveAllSubdrivers priv).calls =
    priv.calls ++ priv.fdevList.map .remove := (removeFdevs_books _ _).1

theorem removeAll_allocations (priv : Priv) :
    (fpgaPcieRemoveAllSubdrivers priv).allocations = priv.allocations := (removeFdevs_books _ _).2.1

theorem removeAll_barMapped (priv : Priv) :
    (fpgaPcieRemoveAllSubdrivers priv).barMapped = priv.barMapped := (removeFdevs_books _ _).2.2

/-- The removal loop calls each listed subdevice once. -/
theorem Books.removeAll {priv : Priv} (h : Books priv) :
    Books (fpgaPcieRemoveAllSubdrivers priv) := by
  have hinj : Function.Injective SubdrvCall.remove := fun _ _ heq => SubdrvCall.remove.inj heq
  have hprobe : ∀ fdev ret, SubdrvCall.probe fdev ret ∈ priv.calls ++ priv.fdevList.map .remove ↔
      .probe fdev ret ∈ priv.calls := by
    intro fdev ret
    simp
  constructor
  · intro fdev ret hmem
    rw [removeAll_calls, hprobe] at hmem
    rw [removeAll_allocations]
    exact h.fresh fdev ret hmem
  · intro fdev hmem
    rw [removeAll_calls] at hmem ⊢
    rw [hprobe]
    rcases List.mem_append.mp hmem with hmem | hmem
    · exact h.removed fdev hmem
    · rw [List.mem_map_of_injective hinj] at hmem
      exact h.listed fdev hmem
  · intro fdev hmem
    rw [removeAll_fdevList] at hmem
    cases hmem
  · rw [removeAll_fdevList]
    exact List.nodup_nil
  · intro fdev hmem
    rw [removeAll_calls, hprobe] at hmem
    rw [removeAll_calls, removeAll_fdevList, List.count_append, h.counted fdev hmem,
      List.count_map_of_injective _ _ hinj, if_neg List.not_mem_nil]
    have hnodup : priv.fdevList.Nodup := List.Nodup.of_map Fdev.allocation h.distinct
    by_cases hlisted : fdev ∈ priv.fdevList
    · rw [if_pos hlisted, List.count_eq_one_of_mem hnodup hlisted]
    · rw [if_neg hlisted, List.count_eq_zero_of_not_mem hlisted]

/-! ## One write -/

theorem write_deploysRom {priv : Priv} {w : Write} (h : w.DeploysRom) (hstate : priv.state = .idle) :
    write priv w = (fpgaPcieProbeAllSubdrivers w.fdt w.steps priv).2 := by
  obtain ⟨hfile, hallocated, hcopied, hcommand⟩ := h
  simp [write, hfile, fpgaPcieStateWriteFile, hallocated, hcopied, hcommand, hstate]

/-- The tree of a write is probed on a card whose list is empty: as it is, when `state` is
    written in `ST_IDLE`, and after the removal loop when `base_dtb` is. -/
theorem write_of_probes {priv : Priv} {w : Write} (h : w.Probes priv) :
    ∃ base, (base = priv ∧ priv.state = .idle ∨ base = fpgaPcieRemoveAllSubdrivers priv) ∧
      write priv w =
        { probeNodes w.steps 0 w.fdt.nodes base with state := .baseProbed } := by
  obtain ⟨hfile, hheader⟩ := h
  rcases hfile with hredeploys | ⟨hrom, hstate⟩
  · refine ⟨_, .inr rfl, ?_⟩
    rw [write_redeploys priv hredeploys, fpgaPcieProbeAllSubdrivers, if_neg (not_not.mpr hheader)]
  · refine ⟨priv, .inl ⟨rfl, hstate⟩, ?_⟩
    rw [write_deploysRom hrom hstate, fpgaPcieProbeAllSubdrivers, if_neg (not_not.mpr hheader)]

/-- A write that probes no tree leaves the list alone, or empties it and leaves
    `ST_BASE_PROBED`. -/
theorem write_of_not_probes {priv : Priv} {w : Write} (h : ¬ w.Probes priv) :
    SameBooks priv (write priv w) ∧
      ((write priv w).state = priv.state ∨
        priv.state = .aerDisabled ∧ (write priv w).state = .idle) ∨
    SameBooks (fpgaPcieRemoveAllSubdrivers priv) (write priv w) ∧
      (write priv w).state ≠ .baseProbed := by
  have hheader : ∀ base : Priv, w.fdt.checkHeader ≠ 0 →
      (fpgaPcieProbeAllSubdrivers w.fdt w.steps base).2 = base := by
    intro base hbad
    rw [fpgaPcieProbeAllSubdrivers, if_pos hbad]
  rcases write_cases priv w with heq | ⟨-, heq⟩ | ⟨hstate, heq⟩ | ⟨hrom, hstate, heq⟩ |
    ⟨-, heq⟩ | ⟨hredeploys, heq⟩
  · rw [heq]
    exact .inl ⟨⟨rfl, rfl, rfl, rfl⟩, .inl rfl⟩
  · rw [heq]
    exact .inr ⟨⟨rfl, rfl, rfl, rfl⟩, nofun⟩
  · rw [heq]
    exact .inl ⟨⟨rfl, rfl, rfl, rfl⟩, .inr ⟨hstate, rfl⟩⟩
  · have hbad : w.fdt.checkHeader ≠ 0 := fun h0 => h ⟨.inr ⟨hrom, hstate⟩, h0⟩
    rw [heq, hheader priv hbad]
    exact .inl ⟨⟨rfl, rfl, rfl, rfl⟩, .inl rfl⟩
  · rw [heq]
    exact .inr ⟨⟨rfl, rfl, rfl, rfl⟩, nofun⟩
  · have hbad : w.fdt.checkHeader ≠ 0 := fun h0 => h ⟨.inl hredeploys, h0⟩
    rw [heq, hheader _ hbad]
    exact .inr ⟨⟨rfl, rfl, rfl, rfl⟩, nofun⟩

/-- What holds in every state reached. -/
structure ListInv (barMapped : Nat → Bool) (priv : Priv) : Prop where
  bars : priv.barMapped = barMapped
  state : priv.fdevList ≠ [] → priv.state = .baseProbed
  books : Books priv

/-- What the removal part of a probing write leaves. -/
structure Cleared (barMapped : Nat → Bool) (priv base : Priv) : Prop where
  bars : base.barMapped = barMapped
  empty : base.fdevList = []
  books : Books base
  calls : ∃ removed, base.calls = priv.calls ++ removed ∧ ∀ fdev ret, .probe fdev ret ∉ removed

theorem ListInv.cleared {barMapped : Nat → Bool} {priv base : Priv} (h : ListInv barMapped priv)
    (hbase : base = priv ∧ priv.state = .idle ∨ base = fpgaPcieRemoveAllSubdrivers priv) :
    Cleared barMapped priv base := by
  rcases hbase with ⟨rfl, hstate⟩ | rfl
  · refine ⟨h.bars, ?_, h.books, [], (List.append_nil _).symm, fun _ _ => List.not_mem_nil⟩
    by_contra hne
    have hprobed := h.state hne
    rw [hstate] at hprobed
    cases hprobed
  · refine ⟨(removeAll_barMapped priv).trans h.bars, removeAll_fdevList priv, h.books.removeAll,
      _, removeAll_calls priv, fun fdev ret hmem => ?_⟩
    obtain ⟨g, -, hg⟩ := List.mem_map.mp hmem
    cases hg

/-- A subdevice of an earlier tree, once the list is empty. -/
theorem Cleared.removed_once {barMapped : Nat → Bool} {priv base : Priv}
    (h : Cleared barMapped priv base) {fdev : Fdev} (hprobed : .probe fdev 0 ∈ priv.calls) :
    base.calls.count (.remove fdev) = 1 := by
  obtain ⟨removed, hcalls, -⟩ := h.calls
  have hmem : SubdrvCall.probe fdev 0 ∈ base.calls := by
    rw [hcalls]
    exact List.mem_append_left _ hprobed
  rw [h.books.counted fdev hmem, h.empty, if_neg List.not_mem_nil]

theorem ListInv.write {barMapped : Nat → Bool} {priv : Priv} (w : Write)
    (h : ListInv barMapped priv) : ListInv barMapped (write priv w) := by
  by_cases hprobes : w.Probes priv
  · obtain ⟨base, hbase, heq⟩ := write_of_probes hprobes
    have hclear := h.cleared hbase
    obtain ⟨hprobed, -⟩ := probeNodes_probed w.steps 0 w.fdt.nodes hclear.books
    rw [heq]
    exact ⟨hprobed.barMapped.trans hclear.bars, fun _ => rfl,
      hprobed.books.congr ⟨rfl, rfl, rfl, rfl⟩⟩
  · rcases write_of_not_probes hprobes with ⟨hsame, hstate⟩ | ⟨hsame, -⟩
    · refine ⟨hsame.barMapped.trans h.bars, fun hne => ?_, h.books.congr hsame⟩
      rw [hsame.fdevList] at hne
      have hprobed := h.state hne
      rcases hstate with hstate | ⟨hdisabled, -⟩
      · rw [hstate, hprobed]
      · rw [hprobed] at hdisabled
        cases hdisabled
    · refine ⟨?_, fun hne => ?_, h.books.removeAll.congr hsame⟩
      · rw [hsame.barMapped, removeAll_barMapped, h.bars]
      · rw [hsame.fdevList, removeAll_fdevList] at hne
        exact absurd rfl hne

/-- The list after a write that probes its tree is that tree's. -/
theorem ListInv.deployedFrom {barMapped : Nat → Bool} {priv : Priv} {w : Write}
    (h : ListInv barMapped priv) (hprobes : w.Probes priv) :
    DeployedFrom w barMapped (Debugfs.write priv w) := by
  obtain ⟨base, hbase, heq⟩ := write_of_probes hprobes
  have hclear := h.cleared hbase
  obtain ⟨hprobed, hnodes⟩ := probeNodes_probed w.steps 0 w.fdt.nodes hclear.books
  rw [heq]
  refine ⟨?_, hprobed.books.distinct⟩
  rw [hclear.empty, hclear.bars] at hnodes
  exact hnodes

/-- With the last tree probed: in `ST_BASE_PROBED` the list is its. -/
def TrackInv (barMapped : Nat → Bool) (p : Priv × Option Write) : Prop :=
  ListInv barMapped p.1 ∧ (p.1.state = .baseProbed →
    ∃ w, p.2 = some w ∧ DeployedFrom w barMapped p.1)

theorem TrackInv.track {barMapped : Nat → Bool} (p : Priv × Option Write) (w : Write)
    (h : TrackInv barMapped p) : TrackInv barMapped (track p w) := by
  obtain ⟨hinv, hlast⟩ := h
  refine ⟨hinv.write w, fun hstate => ?_⟩
  unfold Debugfs.track at hstate ⊢
  by_cases hprobes : w.Probes p.1
  · exact ⟨w, if_pos hprobes, hinv.deployedFrom hprobes⟩
  · rcases write_of_not_probes hprobes with ⟨hsame, hkept⟩ | ⟨-, hleft⟩
    · rcases hkept with hkept | ⟨-, hidle⟩
      · obtain ⟨last, hp, hdeployed⟩ := hlast (hkept.symm.trans hstate)
        refine ⟨last, (if_neg hprobes).trans hp, ?_, ?_⟩
        · rw [hsame.fdevList]
          exact hdeployed.nodes
        · rw [hsame.fdevList]
          exact hdeployed.distinct
      · exact absurd (hidle.symm.trans hstate) nofun
    · exact absurd hstate hleft

theorem run_track_fst (ws : List Write) (p : Priv × Option Write) :
    (run track p ws).1 = run write p.1 ws := by
  induction ws generalizing p with
  | nil => rfl
  | cons w ws ih => exact ih (track p w)

/-! ## Sequences of writes -/

/-- What a sequence of writes to a card leaves of its subdevices. -/
structure Intact (barMapped : Nat → Bool) (init : Priv) (ws : List Write) : Prop where
  /-- A list that is not empty means `ST_BASE_PROBED`. -/
  state : (run write init ws).fdevList ≠ [] → (run write init ws).state = .baseProbed
  /-- There the list is that of the last tree probed. -/
  nodes : (run write init ws).state = .baseProbed →
    ∃ w, lastProbed init ws = some w ∧ DeployedFrom w barMapped (run write init ws)
  /-- A deployed subdevice is in the list or has been removed, once. -/
  once : ∀ fdev, .probe fdev 0 ∈ (run write init ws).calls →
    (run write init ws).calls.count (.remove fdev) =
      if fdev ∈ (run write init ws).fdevList then 0 else 1
  /-- A write that probes a tree makes its removals before any probe, and then every subdevice
      deployed earlier has been removed, once. -/
  before : ∀ earlier w later, ws = earlier ++ w :: later → w.Probes (run write init earlier) →
    ∃ removed probed,
      (run write init (earlier ++ [w])).calls =
        ((run write init earlier).calls ++ removed) ++ probed ∧
      (∀ fdev ret, .probe fdev ret ∉ removed) ∧
      (∀ fdev, .remove fdev ∉ probed) ∧
      ∀ fdev, .probe fdev 0 ∈ (run write init earlier).calls →
        ((run write init earlier).calls ++ removed).count (.remove fdev) = 1

theorem listInv_fpgaPcieProbe (upstreamDev : Option Upstream) (barMapped : Nat → Bool) :
    ListInv barMapped (fpgaPcieProbe upstreamDev barMapped) where
  bars := rfl
  state := fun hne => absurd rfl hne
  books := ⟨nofun, nofun, nofun, List.nodup_nil, nofun⟩

/-- For every sequence of writes to `state` and `base_dtb`, with any trees and outcomes. -/
theorem subdevices_intact (upstreamDev : Option Upstream) (barMapped : Nat → Bool)
    (ws : List Write) : Intact barMapped (fpgaPcieProbe upstreamDev barMapped) ws := by
  have hinit := listInv_fpgaPcieProbe upstreamDev barMapped
  have hrun : ∀ ws, ListInv barMapped (run write (fpgaPcieProbe upstreamDev barMapped) ws) :=
    fun ws => run_inv (fun _ w h => h.write w) hinit ws
  have htrack : TrackInv barMapped (run track (fpgaPcieProbe upstreamDev barMapped, none) ws) :=
    run_inv TrackInv.track ⟨hinit, fun h => absurd (h : PrivState.idle = .baseProbed) nofun⟩ ws
  have hfst := run_track_fst ws (fpgaPcieProbe upstreamDev barMapped, none)
  refine ⟨(hrun ws).state, fun hstate => ?_, (hrun ws).books.counted,
    fun earlier w later _ hprobes => ?_⟩
  · rw [← hfst] at hstate ⊢
    exact htrack.2 hstate
  · obtain ⟨base, hbase, heq⟩ := write_of_probes hprobes
    have hclear := (hrun earlier).cleared hbase
    obtain ⟨removed, hremoved, hnone⟩ := hclear.calls
    obtain ⟨⟨-, ⟨probed, hcalls, hno⟩, -⟩, -⟩ :=
      probeNodes_probed w.steps 0 w.fdt.nodes hclear.books
    refine ⟨removed, probed, ?_, hnone, hno, fun fdev hmem => ?_⟩
    · rw [run_snoc, heq, ← hremoved]
      exact hcalls
    · rw [← hremoved]
      exact hclear.removed_once hmem

end FpgaPartialReconfig.Driver.Debugfs
