/-
  When the loops of the driver over a blob end.

  Over a declared block each function of the reader ends that does not go past a property
  that is stuck. One that is reached holds up `fdt_next_node` for good: there is no way from
  tag to tag around it (`Leads`). So both loops return if and only if none is reached
  (`forNodes_ends`, `forNodes_stuck`).
-/
import FpgaPartialReconfig.Driver.FdtWalk
import FpgaPartialReconfig.Driver.FdtProbe

namespace FpgaPartialReconfig.Driver.Blob

open CString
open Debugfs (ProbeSteps numRegs altrPciCvpNumBars)

theorem ptrAdd_lt (p : Nat) (x : Int) : ptrAdd p x < 2 ^ 64 := by
  unfold ptrAdd
  omega

/-- Enough rounds for the block, and for each string up to a NUL at `q`. -/
structure Rounds (mem : Memory) (fdt q rounds : Nat) : Prop where
  block : fdtSizeDtStruct mem fdt + 4 < rounds
  nul : mem q = 0
  space : 2 ^ 64 ≤ q
  strings : q < rounds

variable {mem : Memory} {fdt rounds o q : Nat}

theorem Rounds.strlen (h : Rounds mem fdt q rounds) {p : Nat} (hp : p < 2 ^ 64) :
    ∃ len, strlen mem p rounds = some len := by
  have hspace := h.space
  have hstrings := h.strings
  exact strlen_ends h.nul (by omega) (by omega)

/-! ## One node ends -/

theorem checkOffset_reached (hd : Declared mem fdt) (ho : Reached mem fdt o) {tag : Nat} {next : Int}
    (hat : TagAt mem fdt o tag next) (htag : tag ≠ FDT_END)
    (hrounds : fdtSizeDtStruct mem fdt + 4 < rounds) :
    ∃ o' : Nat, checkOffset mem fdt rounds tag o = some (o' : Int) ∧ Reached mem fdt o' ∧
      (Free mem fdt → o < o') := by
  have haligned := ho.isAligned hd
  obtain ⟨tag', next', hat', hrun, hadvances, -⟩ := tagAt_declared hd haligned
  obtain ⟨rfl, rfl⟩ := hat.unique hat'
  obtain ⟨o', rfl, -, -, hlater⟩ := (hadvances htag).next
  have hvalid : ¬ ((o : Int) < 0 ∨ (o : Int) % FDT_TAGSIZE ≠ 0) := by
    obtain ⟨k, rfl⟩ := haligned.aligned
    unfold FDT_TAGSIZE
    omega
  refine ⟨o', ?_, .step o tag o' ho hat htag, ?_⟩
  · unfold checkOffset
    rw [if_neg hvalid, hrun rounds hrounds]
    exact if_neg (not_not_intro rfl)
  · intro hfree
    rcases hlater with ⟨hlt, -⟩ | ⟨-, hstuck⟩
    · exact hlt
    · exact absurd hstuck (hfree o ho)

/-- `fdt_get_name` finds a name at each node: the driver never gets to its message for none. -/
theorem fdtGetName_reached (hd : Declared mem fdt) (hheader : fdtCheckHeader mem fdt = 0)
    (hr : Rounds mem fdt q rounds) (ho : Reached mem fdt o) {next : Int}
    (hat : TagAt mem fdt o FDT_BEGIN_NODE next) :
    ∃ (p : Nat) (len : Int), fdtGetName mem fdt rounds o = some (some p, len) ∧ p < 2 ^ 64 := by
  obtain ⟨o', hcheck, -, -⟩ := checkOffset_reached hd ho hat (by decide) hr.block
  have hp := ptrAdd_lt (structPtr mem fdt o) 4
  obtain ⟨len, hlen⟩ := hr.strlen hp
  refine ⟨_, len, ?_, hp⟩
  unfold fdtGetName
  rw [if_neg (not_not_intro hheader)]
  refine (bind_checked hcheck _ _).trans ?_
  simp only [hlen]
  rfl

theorem fdtGetPropertyByOffset_reached (hd : Declared mem fdt)
    (hrounds : fdtSizeDtStruct mem fdt + 4 < rounds) (ho : Reached mem fdt o) {next : Int}
    (hat : TagAt mem fdt o FDT_PROP next) :
    fdtGetPropertyByOffset mem fdt rounds o =
      some (some (structPtr mem fdt o), (fdt32 mem (structPtr mem fdt o + 4)).toInt) := by
  obtain ⟨o', hcheck, -, -⟩ := checkOffset_reached hd ho hat (by decide) hrounds
  exact bind_checked hcheck _ _

/-- What a loop behind a check of the offset ends with. -/
theorem bind_ends {tag o' : Nat} {check : Option Int} {loop : Nat → Int → Option Int}
    (hloop : TagLoop mem fdt rounds tag loop) (hd : Declared mem fdt) (hfree : Free mem fdt)
    (hrounds : fdtSizeDtStruct mem fdt + 4 < rounds) (hcheck : check = some (o' : Int))
    (ho : Reached mem fdt o') :
    ∃ r, (check >>= fun next => if next < 0 then some next else loop rounds next) = some r ∧
      Ended mem fdt tag o' r := by
  obtain ⟨r, hr, hended⟩ := hloop.ends hd hfree hrounds ho
    (show fdtSizeDtStruct mem fdt + 3 < rounds + o' by omega)
  exact ⟨r, (bind_checked hcheck _ _).trans hr, hended⟩

theorem Ended.later {tag o' : Nat} {r : Int} (h : Ended mem fdt tag o' r) (hle : o ≤ o') :
    Ended mem fdt tag o r := by
  rcases h with hneg | ⟨o'', next, rfl, hle', hreached, hat⟩
  · exact .inl hneg
  · exact .inr ⟨o'', next, rfl, Nat.le_trans hle hle', hreached, hat⟩

theorem fdtNextNode_ends (hd : Declared mem fdt) (hfree : Free mem fdt)
    (hrounds : fdtSizeDtStruct mem fdt + 4 < rounds) (ho : Reached mem fdt o) {next : Int}
    (hat : TagAt mem fdt o FDT_BEGIN_NODE next) :
    ∃ r, fdtNextNode mem fdt rounds o = some r ∧ Ended mem fdt FDT_BEGIN_NODE (o + 1) r := by
  obtain ⟨o', hcheck, hreached, hlater⟩ := checkOffset_reached hd ho hat (by decide) hrounds
  obtain ⟨r, hr, hended⟩ := bind_ends nextNodeFrom_loop hd hfree hrounds hcheck hreached
  refine ⟨r, ?_, hended.later (hlater hfree)⟩
  unfold fdtNextNode
  rw [if_pos (Int.natCast_nonneg o)]
  exact hr

/-- From the root, or from what is at offset 0 in its place. -/
theorem fdtNextNode_root (hd : Declared mem fdt) (hfree : Free mem fdt)
    (hrounds : fdtSizeDtStruct mem fdt + 4 < rounds) :
    ∃ r, fdtNextNode mem fdt rounds 0 = some r ∧ Ended mem fdt FDT_BEGIN_NODE 0 r := by
  have hzero : Aligned mem fdt 0 := ⟨Nat.dvd_zero 4, Nat.zero_le _⟩
  obtain ⟨tag, next, hat, hrun, hadvances, -⟩ := tagAt_declared hd hzero
  have hcheck : fdtCheckNodeOffset mem fdt rounds 0 =
      if tag ≠ FDT_BEGIN_NODE then some (-FDT_ERR_BADOFFSET) else some next := by
    have hround : fdtNextTag mem fdt rounds 0 = some (tag, next) := hrun rounds hrounds
    unfold fdtCheckNodeOffset checkOffset
    rw [if_neg (by decide), hround]
    rfl
  by_cases hbegin : tag = FDT_BEGIN_NODE
  · rw [if_neg (not_not_intro hbegin)] at hcheck
    subst hbegin
    obtain ⟨o', rfl, -, -, -⟩ := (hadvances (by decide)).next
    obtain ⟨r, hr, hended⟩ := bind_ends nextNodeFrom_loop hd hfree hrounds hcheck (.root o' hat)
    exact ⟨r, hr, hended.later (Nat.zero_le o')⟩
  · rw [if_pos hbegin] at hcheck
    refine ⟨-FDT_ERR_BADOFFSET, ?_, .inl (by decide)⟩
    unfold fdtNextNode
    rw [if_pos (Int.le_refl 0), hcheck]
    rfl

/-! ## Its properties end -/

theorem fdtFirstPropertyOffset_ends (hd : Declared mem fdt) (hfree : Free mem fdt)
    (hrounds : fdtSizeDtStruct mem fdt + 4 < rounds) (ho : Reached mem fdt o) {next : Int}
    (hat : TagAt mem fdt o FDT_BEGIN_NODE next) :
    ∃ r, fdtFirstPropertyOffset mem fdt rounds o = some r ∧ Ended mem fdt FDT_PROP o r := by
  obtain ⟨o', hcheck, hreached, hlater⟩ := checkOffset_reached hd ho hat (by decide) hrounds
  obtain ⟨r, hr, hended⟩ := bind_ends nextprop_loop hd hfree hrounds hcheck hreached
  exact ⟨r, hr, hended.later (Nat.le_of_lt (hlater hfree))⟩

theorem fdtNextPropertyOffset_ends (hd : Declared mem fdt) (hfree : Free mem fdt)
    (hrounds : fdtSizeDtStruct mem fdt + 4 < rounds) (ho : Reached mem fdt o) {next : Int}
    (hat : TagAt mem fdt o FDT_PROP next) :
    ∃ r, fdtNextPropertyOffset mem fdt rounds o = some r ∧ Ended mem fdt FDT_PROP (o + 1) r := by
  obtain ⟨o', hcheck, hreached, hlater⟩ := checkOffset_reached hd ho hat (by decide) hrounds
  obtain ⟨r, hr, hended⟩ := bind_ends nextprop_loop hd hfree hrounds hcheck hreached
  exact ⟨r, hr, hended.later (hlater hfree)⟩

theorem fdtStringEq_ends (hr : Rounds mem fdt q rounds) (stroffset : Int) (s : List Byte) :
    ∃ same, fdtStringEq mem fdt rounds stroffset s = some same := by
  obtain ⟨len, hlen⟩ := hr.strlen (ptrAdd_lt _ _ : fdtString mem fdt stroffset < 2 ^ 64)
  exact ⟨_, congrArg (Option.bind · _) hlen⟩

/-- Data that is found has an address. -/
def Located (found : Option Nat × Int) : Prop := ∀ p ∈ found.1, p < 2 ^ 64

theorem propertyFrom_ends (hd : Declared mem fdt) (hfree : Free mem fdt)
    (hr : Rounds mem fdt q rounds) (name : List Byte) {n : Nat} {r : Int}
    (hended : Ended mem fdt FDT_PROP o r) (hn : fdtSizeDtStruct mem fdt + 3 < n + o) (hpos : 0 < n) :
    ∃ found, propertyFrom mem fdt rounds name n r = some found := by
  induction n generalizing o r with
  | zero => exact absurd hpos (Nat.lt_irrefl 0)
  | succ n ih =>
    unfold propertyFrom
    rcases hended with hneg | ⟨o', next, rfl, hle, hreached, hat⟩
    · exact ⟨_, if_pos hneg⟩
    · have hinside := (hat.advances hd (hreached.isAligned hd) (by decide)).inside
      have hfound := fdtGetPropertyByOffset_reached hd hr.block hreached hat
      obtain ⟨same, hsame⟩ := fdtStringEq_ends hr
        (fdt32 mem (structPtr mem fdt o' + 8)).toInt name
      obtain ⟨r, hnext, hended⟩ := fdtNextPropertyOffset_ends hd hfree hr.block hreached hat
      obtain ⟨found, hrest⟩ := ih hended (by omega) (by omega)
      rw [if_neg (Int.not_lt.mpr (Int.natCast_nonneg o')), hfound]
      simp only [hsame, hnext, hrest, Option.bind_eq_bind, Option.bind_some]
      cases same with
      | true => exact ⟨_, rfl⟩
      | false => exact ⟨_, rfl⟩

theorem fdtGetprop_ends (hd : Declared mem fdt) (hfree : Free mem fdt)
    (hr : Rounds mem fdt q rounds) (ho : Reached mem fdt o) {next : Int}
    (hat : TagAt mem fdt o FDT_BEGIN_NODE next) (name : List Byte) :
    ∃ found, fdtGetprop mem fdt rounds o name = some found ∧ Located found := by
  obtain ⟨r, hfirst, hended⟩ := fdtFirstPropertyOffset_ends hd hfree hr.block ho hat
  have hblock := hr.block
  obtain ⟨found, hfound⟩ := propertyFrom_ends hd hfree hr name hended
    (show fdtSizeDtStruct mem fdt + 3 < rounds + o by omega) (by omega)
  refine ⟨(found.1.map (ptrAdd · 12), found.2), ?_, ?_⟩
  · unfold fdtGetprop fdtGetProperty
    simp only [hfirst, hfound, Option.bind_eq_bind, Option.bind_some]
  · intro p hp
    obtain ⟨prop, -, rfl⟩ := Option.mem_map.mp hp
    exact ptrAdd_lt prop 12

/-! ## The bodies of the loops end -/

theorem readString_ends (hr : Rounds mem fdt q rounds) {p : Nat} (hp : p < 2 ^ 64) :
    ∃ s, readString mem p rounds = some s := by
  obtain ⟨len, hlen⟩ := hr.strlen hp
  exact ⟨_, congrArg (Option.map (cStringFrom mem p)) hlen⟩

theorem probeNode_ends (hd : Declared mem fdt) (hfree : Free mem fdt)
    (hheader : fdtCheckHeader mem fdt = 0) (hr : Rounds mem fdt q rounds)
    (ho : Reached mem fdt o) {next : Int} (hat : TagAt mem fdt o FDT_BEGIN_NODE next)
    (steps : ProbeSteps) (priv : Debugfs.Priv) :
    ∃ priv', probeNode mem fdt rounds steps o priv = some priv' := by
  obtain ⟨name, len, hname, -⟩ := fdtGetName_reached hd hheader hr ho hat
  obtain ⟨⟨compat, compatLen⟩, hcompat, -⟩ := fdtGetprop_ends hd hfree hr ho hat compatibleName
  obtain ⟨⟨reg, regLen⟩, hreg, -⟩ := fdtGetprop_ends hd hfree hr ho hat regName
  unfold probeNode
  simp only [hname, hcompat, hreg, Option.bind_eq_bind, Option.bind_some]
  cases compat with
  | none => exact ⟨_, rfl⟩
  | some compat =>
    simp only []
    cases fpgaDrvLookup mem compat with
    | none => exact ⟨_, rfl⟩
    | some drv =>
      cases reg with
      | none => exact ⟨_, rfl⟩
      | some reg =>
        simp only []
        split
        · exact ⟨_, rfl⟩
        · split
          · exact ⟨_, rfl⟩
          · exact ⟨_, rfl⟩

theorem dumpNode_ends (hd : Declared mem fdt) (hfree : Free mem fdt)
    (hheader : fdtCheckHeader mem fdt = 0) (hr : Rounds mem fdt q rounds)
    (ho : Reached mem fdt o) {next : Int} (hat : TagAt mem fdt o FDT_BEGIN_NODE next) :
    ∃ line, dumpNode mem fdt rounds o = some line := by
  obtain ⟨p, len, hname, hp⟩ := fdtGetName_reached hd hheader hr ho hat
  obtain ⟨name, hprinted⟩ := readString_ends hr hp
  obtain ⟨⟨compat, compatLen⟩, hcompat, hlocated⟩ :=
    fdtGetprop_ends hd hfree hr ho hat compatibleName
  obtain ⟨⟨reg, regLen⟩, hreg, -⟩ := fdtGetprop_ends hd hfree hr ho hat regName
  unfold dumpNode
  simp only [hname, hprinted, hcompat, hreg, Option.bind_eq_bind, Option.bind_some]
  cases compat with
  | none => exact ⟨_, rfl⟩
  | some compat =>
    cases reg with
    | none => exact ⟨_, rfl⟩
    | some reg =>
      obtain ⟨s, hs⟩ := readString_ends hr (hlocated compat rfl)
      simp only [hs, Option.bind_some]
      split
      · exact ⟨_, rfl⟩
      · exact ⟨_, rfl⟩

/-! ## The loops over the nodes -/

section
variable {σ : Type} {body : Nat → Int → σ → Option σ}

/-- The body ends at each node that is reached. -/
def BodyEnds (mem : Memory) (fdt : Nat) (body : Nat → Int → σ → Option σ) : Prop :=
  ∀ (k o : Nat) (next : Int) (s : σ), Reached mem fdt o → TagAt mem fdt o FDT_BEGIN_NODE next →
    ∃ s', body k o s = some s'

theorem nodeLoop_ends (hd : Declared mem fdt) (hfree : Free mem fdt)
    (hrounds : fdtSizeDtStruct mem fdt + 4 < rounds) (hbody : BodyEnds mem fdt body) {n : Nat}
    {r : Int} (hended : Ended mem fdt FDT_BEGIN_NODE o r)
    (hn : fdtSizeDtStruct mem fdt + 3 < n + o) (hpos : 0 < n) (k : Nat) (s : σ) :
    ∃ s', nodeLoop mem fdt rounds body n k r s = some s' := by
  induction n generalizing o r k s with
  | zero => exact absurd hpos (Nat.lt_irrefl 0)
  | succ n ih =>
    unfold nodeLoop
    rcases hended with hneg | ⟨o', next, rfl, hle, hreached, hat⟩
    · exact ⟨_, if_pos hneg⟩
    · have hinside := (hat.advances hd (hreached.isAligned hd) (by decide)).inside
      obtain ⟨s₁, hs₁⟩ := hbody k o' next s hreached hat
      obtain ⟨r, hnext, hended⟩ := fdtNextNode_ends hd hfree hrounds hreached hat
      obtain ⟨s', hs'⟩ := ih hended (by omega) (by omega) (k + 1) s₁
      rw [if_neg (Int.not_lt.mpr (Int.natCast_nonneg o')), hs₁]
      simp only [hnext, hs', Option.bind_eq_bind, Option.bind_some]
      exact ⟨s', rfl⟩

theorem forNodes_ends (hd : Declared mem fdt) (hfree : Free mem fdt)
    (hrounds : fdtSizeDtStruct mem fdt + 4 < rounds) (hbody : BodyEnds mem fdt body) (s : σ) :
    ∃ s', forNodes mem fdt rounds body s = some s' := by
  obtain ⟨r, hr, hended⟩ := fdtNextNode_root hd hfree hrounds
  obtain ⟨s', hs'⟩ := nodeLoop_ends hd hfree hrounds hbody hended
    (show fdtSizeDtStruct mem fdt + 3 < rounds + 0 by omega) (by omega) 0 s
  refine ⟨s', ?_⟩
  unfold forNodes
  rw [hr]
  exact hs'

end

/-! ## A stuck property holds the loops up -/

/-- The reader comes from the second offset to the first. -/
inductive Leads (mem : Memory) (fdt stuck : Nat) : Nat → Prop where
  | here : Leads mem fdt stuck stuck
  | step (o tag o' : Nat) : TagAt mem fdt o tag o' → tag ≠ FDT_END →
      Leads mem fdt stuck o' → Leads mem fdt stuck o

section
variable {stuck : Nat}

/-- The way from the root to a tag that is reached. -/
theorem leads_of_reached (h : Reached mem fdt o) (hleads : Leads mem fdt stuck o) :
    ∃ first : Nat, TagAt mem fdt 0 FDT_BEGIN_NODE first ∧ Leads mem fdt stuck first := by
  induction h with
  | root o hroot => exact ⟨o, hroot, hleads⟩
  | step o tag o' _ hat htag ih => exact ih (.step o tag o' hat htag hleads)

theorem tagAt_stuck (hd : Declared mem fdt) (ho : Reached mem fdt o) (hstuck : StuckAt mem fdt o) :
    TagAt mem fdt o FDT_PROP o := by
  obtain ⟨tag, next, hat, -, hadvances, htag⟩ := tagAt_declared hd (ho.isAligned hd)
  obtain rfl := htag hstuck
  obtain ⟨o', rfl, -, -, hlater⟩ := (hadvances (by decide)).next
  rcases hlater with ⟨-, hnot⟩ | ⟨rfl, -⟩
  · exact absurd hstuck hnot
  · exact hat

/-- Behind a tag that leads to the stuck one comes another that does. -/
theorem Leads.next (hself : TagAt mem fdt stuck FDT_PROP stuck) (h : Leads mem fdt stuck o)
    {tag : Nat} {next : Int} (hat : TagAt mem fdt o tag next) :
    tag ≠ FDT_END ∧ ∃ o' : Nat, next = o' ∧ Leads mem fdt stuck o' := by
  cases h with
  | here =>
    obtain ⟨rfl, rfl⟩ := hat.unique hself
    exact ⟨by decide, _, rfl, .here⟩
  | step o tag' o' hat' htag' hleads =>
    obtain ⟨rfl, rfl⟩ := hat.unique hat'
    exact ⟨htag', o', rfl, hleads⟩

/-- `fdt_next_node` does not get past the stuck property. -/
theorem nextNodeFrom_stuck (hd : Declared mem fdt) (hself : TagAt mem fdt stuck FDT_PROP stuck)
    (ho : Reached mem fdt o) (h : Leads mem fdt stuck o) (n : Nat) :
    nextNodeFrom mem fdt rounds n o = none ∨
      ∃ (o' : Nat) (next : Int), nextNodeFrom mem fdt rounds n o = some (o' : Int) ∧
        Reached mem fdt o' ∧ Leads mem fdt stuck o' ∧ TagAt mem fdt o' FDT_BEGIN_NODE next := by
  induction n generalizing o with
  | zero => exact .inl rfl
  | succ n ih =>
    obtain ⟨tag, next, hat, -, -, -⟩ := tagAt_declared hd (ho.isAligned hd)
    obtain ⟨hend, o', rfl, hleads⟩ := h.next hself hat
    rcases hat.run rounds with hnone | hrun
    · refine .inl ?_
      unfold nextNodeFrom
      rw [hnone]
      rfl
    · rw [nextNodeFrom_succ hrun, if_neg hend]
      by_cases hbegin : tag = FDT_BEGIN_NODE
      · subst hbegin
        exact .inr ⟨o, _, if_pos rfl, ho, h, hat⟩
      · rw [if_neg hbegin]
        exact ih (.step o tag o' ho hat hend) hleads

/-- Neither does it from a check of the offset it starts at. -/
theorem fdtNextNode_stuck (hd : Declared mem fdt) (hself : TagAt mem fdt stuck FDT_PROP stuck)
    (haligned : 4 ∣ o) {o' : Nat} (hat : TagAt mem fdt o FDT_BEGIN_NODE o')
    (ho : Reached mem fdt o') (h : Leads mem fdt stuck o') (rounds : Nat) :
    fdtNextNode mem fdt rounds o = none ∨
      ∃ (o' : Nat) (next : Int), fdtNextNode mem fdt rounds o = some (o' : Int) ∧
        Reached mem fdt o' ∧ Leads mem fdt stuck o' ∧ TagAt mem fdt o' FDT_BEGIN_NODE next := by
  have hvalid : ¬ ((o : Int) < 0 ∨ (o : Int) % FDT_TAGSIZE ≠ 0) := by
    obtain ⟨k, rfl⟩ := haligned
    unfold FDT_TAGSIZE
    omega
  unfold fdtNextNode fdtCheckNodeOffset checkOffset
  rw [if_pos (Int.natCast_nonneg o), if_neg hvalid]
  rcases hat.run rounds with hnone | hrun
  · rw [hnone]
    exact .inl rfl
  · rw [hrun]
    exact nextNodeFrom_stuck hd hself ho h rounds

variable {σ : Type} {body : Nat → Int → σ → Option σ}

theorem nodeLoop_stuck (hd : Declared mem fdt) (hself : TagAt mem fdt stuck FDT_PROP stuck)
    (ho : Reached mem fdt o) (h : Leads mem fdt stuck o) {next : Int}
    (hat : TagAt mem fdt o FDT_BEGIN_NODE next) (n k : Nat) (s : σ) :
    nodeLoop mem fdt rounds body n k o s = none := by
  induction n generalizing o next k s with
  | zero => rfl
  | succ n ih =>
    obtain ⟨hend, o', rfl, hleads⟩ := h.next hself hat
    unfold nodeLoop
    rw [if_neg (Int.not_lt.mpr (Int.natCast_nonneg o))]
    cases body k o s with
    | none => rfl
    | some s =>
      rw [Option.bind_eq_bind, Option.bind_some]
      rcases fdtNextNode_stuck hd hself (ho.isAligned hd).aligned hat
        (.step o _ o' ho hat hend) hleads rounds with hnone | ⟨o'', next, hr, ho', h', hat'⟩
      · rw [hnone]
        rfl
      · rw [hr]
        exact ih ho' h' hat' (k + 1) s

/-- A loop over the nodes of a blob where a stuck property is reached does not end. -/
theorem forNodes_stuck (hd : Declared mem fdt) (ho : Reached mem fdt o)
    (hstuck : StuckAt mem fdt o) (s : σ) : forNodes mem fdt rounds body s = none := by
  have hself := tagAt_stuck hd ho hstuck
  obtain ⟨first, hroot, hleads⟩ := leads_of_reached ho .here
  unfold forNodes
  rcases fdtNextNode_stuck (o := 0) hd hself (Nat.dvd_zero 4) hroot
    (.root first hroot) hleads rounds with hnone | ⟨o', next, hr, ho', h', hat'⟩
  · change (fdtNextNode mem fdt rounds ((0 : Nat) : Int) >>= _) = _
    rw [hnone]
    rfl
  · change (fdtNextNode mem fdt rounds ((0 : Nat) : Int) >>= _) = _
    rw [hr]
    exact nodeLoop_stuck hd hself ho' h' hat' rounds 0 s

end

/-! ## The driver -/

/-- It returns, given enough rounds. -/
def Returns {β : Type} (run : Nat → Option β) : Prop :=
  ∃ n, ∀ rounds, n ≤ rounds → ∃ b, run rounds = some b

theorem returns_iff_free {β : Type} {run : Nat → Option β} (hnul : mem q = 0)
    (hspace : 2 ^ 64 ≤ q)
    (hends : Free mem fdt → ∀ rounds, Rounds mem fdt q rounds → ∃ b, run rounds = some b)
    (hholds : ∀ o, Reached mem fdt o → StuckAt mem fdt o → ∀ rounds, run rounds = none) :
    Returns run ↔ Free mem fdt := by
  constructor
  · rintro ⟨n, hn⟩ o ho hstuck
    obtain ⟨b, hb⟩ := hn n (Nat.le_refl n)
    rw [hholds o ho hstuck n] at hb
    cases hb
  · intro hfree
    refine ⟨fdtSizeDtStruct mem fdt + 5 + (q + 1), ?_⟩
    intro rounds hrounds
    exact hends hfree rounds ⟨by omega, hnul, hspace, by omega⟩

/-- Both functions of the driver return if and only if no stuck property is reached. -/
theorem driver_returns_iff (hd : Declared mem fdt) (hnul : mem q = 0) (hspace : 2 ^ 64 ≤ q)
    (hheader : fdtCheckHeader mem fdt = 0) (steps : Nat → ProbeSteps) (priv : Debugfs.Priv) :
    (Returns (fun rounds => fpgaPcieProbeAllSubdrivers mem fdt rounds steps priv) ↔
      ∀ o, Reached mem fdt o → ¬ StuckAt mem fdt o) ∧
    (Returns (fun rounds => dumpDtb mem fdt rounds) ↔
      ∀ o, Reached mem fdt o → ¬ StuckAt mem fdt o) := by
  constructor
  · apply returns_iff_free hnul hspace
    · intro hfree rounds hr
      obtain ⟨priv', hpriv⟩ := forNodes_ends hd hfree hr.block (fun k o next priv ho hat =>
        probeNode_ends hd hfree hheader hr ho hat (steps k) priv) priv
      unfold fpgaPcieProbeAllSubdrivers
      rw [if_neg (not_not_intro hheader), hpriv]
      exact ⟨_, rfl⟩
    · intro o ho hstuck rounds
      unfold fpgaPcieProbeAllSubdrivers
      rw [if_neg (not_not_intro hheader), forNodes_stuck hd ho hstuck]
      rfl
  · apply returns_iff_free hnul hspace
    · intro hfree rounds hr
      refine forNodes_ends hd hfree hr.block ?_ []
      intro k o next lines ho hat
      obtain ⟨line, hline⟩ := dumpNode_ends hd hfree hheader hr ho hat
      exact ⟨lines ++ [line], congrArg (Option.map _) hline⟩
    · intro o ho hstuck rounds
      exact forNodes_stuck hd ho hstuck []

/-- A root with a property of 0xfffffff4 bytes. -/
def stuckBytes : List Byte :=
  be32 0xd00dfeed ++ be32 64 ++ be32 40 ++ be32 64 ++ be32 40 ++ be32 17 ++ be32 16 ++ be32 0 ++
    be32 0 ++ be32 24 ++
  be32 1 ++ be32 0 ++ be32 3 ++ be32 0xfffffff4 ++ be32 0 ++ be32 9

def stuckMem : Memory := fun p => stuckBytes.getD p 0

theorem driver_never_returns :
    ¬ Returns (fun rounds => fpgaPcieProbeAllSubdrivers stuckMem 0 rounds allSucceed exampleCard) ∧
      ¬ Returns (fun rounds => dumpDtb stuckMem 0 rounds) := by
  have hd : Declared stuckMem 0 := ⟨by decide +kernel, by decide +kernel, by decide +kernel⟩
  have hroot : TagAt stuckMem 0 0 FDT_BEGIN_NODE 8 := ⟨64, by decide +kernel⟩
  have hstuck : StuckAt stuckMem 0 8 := by
    unfold StuckAt
    decide +kernel
  have hreturns := driver_returns_iff (q := 2 ^ 64) hd (by decide +kernel) (Nat.le_refl _)
    (by decide +kernel) allSucceed exampleCard
  exact ⟨fun h => hreturns.1.mp h 8 (.root 8 hroot) hstuck,
    fun h => hreturns.2.mp h 8 (.root 8 hroot) hstuck⟩

end FpgaPartialReconfig.Driver.Blob
