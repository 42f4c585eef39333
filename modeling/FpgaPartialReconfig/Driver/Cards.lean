/-
  The fpga_pcie driver with several cards.

  The kernel probes every card that matches the ids of the driver, in any order, takes the
  driver off cards and binds it anew. A card has its own PCI resources: the device is
  enabled, the regions of its BARs are requested and mapped. The device numbers, the class
  "char" and the device nodes are the kernel's, and the two static variables `devt` and `cl`
  through which `fpga_pcie_remove` finds its own are shared by all the cards.

  The class has the same name for every card, and a name is registered once. So a second
  probe fails in `init_chrdev`, which leaves the statics pointing elsewhere, and
  `fpga_pcie_probe` returns that error without `fpga_pcie_shutdown_pci`.
  `one_card`: at most one card is ever bound, and a card whose probe failed that way never
  is. `remove_clean_iff`: a removal gives back what its probe took exactly if no other probe
  came as far as a device number since. `given_back_iff`: all is given back in the end
  exactly if no card is bound any more and `init_chrdev` never failed.

  A kernel call is the answer it gets, and the answers are free but for three rules of the
  kernel (`Rules`), which the results take as hypotheses on the run: requested regions are
  not granted again, a number in use is not given out, and a class name is registered once.

  `init_chrdev` is `__init` and `fpga_pcie_probe` is not: the kernel may discard its text
  once the module is loaded, and a probe after that runs what is there then. Here it stays.
  `debugfs_root` is never set in this driver. Left out: messages, and files that are still
  open when the driver goes.
-/
import FpgaPartialReconfig.Driver.PrCore
import FpgaPartialReconfig.Lib.Runs
import Mathlib.Data.List.Nodup

namespace FpgaPartialReconfig.Driver.Cards

def ENOMEM : Int := 12
def EEXIST : Int := 17

/-- `PCI_STD_RESOURCE_END + 1`. -/
def altrPciCvpNumBars : Nat := 6

def altrPciCvpConfigBar : Nat := 2

/-- A card where it is plugged in: whether a bridge is above it, and which of its BARs have an
    address. The registers of the driver are in one of them. -/
structure Card where
  upstream : Bool
  used : Nat → Bool
  configBar : used altrPciCvpConfigBar = true

def Card.bars (card : Card) : List Nat := (List.range altrPciCvpNumBars).filter card.used

/-- An error number as the kernel returns it. -/
abbrev Err := {e : Int // e < 0}

/-- How the calls of a probe are answered. -/
structure Steps where
  devctlRead : Bool
  privAllocated : Bool
  enabled : Bool
  requested : Bool
  remapped : Nat → Bool
  allocChrdevRegion : Except Err Nat
  cdevAdd : Except Err Unit
  classCreate : Except Err Unit
  deviceCreate : Except Err Unit

/-! ## The PCI resources of a card -/

/-- How often the device is enabled, and which BARs are requested and mapped. -/
structure Pci where
  enables : Nat
  regions : List Nat
  mapped : List Nat
  deriving DecidableEq, Repr

/-- `priv` and the resources after `fpga_pcie_setup_pci`. -/
structure Setup where
  ret : Int
  barAddrs : List Nat
  pci : Pci

def fpgaPcieShutdownPci (barAddrs : List Nat) (pci : Pci) : Pci where
  enables := pci.enables - 1
  regions := []
  mapped := pci.mapped.diff barAddrs

/-- The loop over the BARs: whether it went through, and what is in `bar_addrs` then. -/
def mapBars (card : Card) (remapped : Nat → Bool) : List Nat → Bool × List Nat
  | [] => (true, [])
  | i :: is =>
    if card.used i = false then
      mapBars card remapped is
    else if remapped i = false then
      (false, [])
    else
      ((mapBars card remapped is).1, i :: (mapBars card remapped is).2)

def fpgaPcieSetupPci (card : Card) (steps : Steps) (pci : Pci) : Setup :=
  if card.upstream = false then
    ⟨-EINVAL, [], pci⟩
  else if steps.enabled = false then
    ⟨- EIO, [], pci⟩
  else if steps.requested = false then
    ⟨- EIO, [], pci⟩
  else
    let loop := mapBars card steps.remapped (List.range altrPciCvpNumBars)
    let taken : Pci := ⟨pci.enables + 1, card.bars ++ pci.regions, loop.2 ++ pci.mapped⟩
    if loop.1 = false then
      ⟨- EIO, loop.2, fpgaPcieShutdownPci loop.2 taken⟩
    else
      ⟨0, loop.2, taken⟩

/-! ## The character device -/

/-- What the kernel has registered for the driver, and the driver's statics. The number of a
    class stands for its address; `cl` is `none` for an error pointer. -/
structure Chrdev where
  numbers : List Nat
  cdevs : List Nat
  classes : Nat
  charClass : Option Nat
  nodes : List (Nat × Nat)
  devt : Nat
  cl : Option Nat
  deriving DecidableEq, Repr

namespace Chrdev

/-- `alloc_chrdev_region` writes the number to `devt`. -/
def reserve (chr : Chrdev) (n : Nat) : Chrdev :=
  { chr with numbers := n :: chr.numbers, devt := n }

def addCdev (chr : Chrdev) : Chrdev := { chr with cdevs := chr.devt :: chr.cdevs }

def createClass (chr : Chrdev) : Chrdev :=
  { chr with
    classes := chr.classes + 1, charClass := some chr.classes, cl := some chr.classes }

/-- `cdev_del` and `unregister_chrdev_region`. -/
def unwind (chr : Chrdev) : Chrdev :=
  { chr with cdevs := chr.cdevs.erase chr.devt, numbers := chr.numbers.erase chr.devt }

end Chrdev

/-- `init_chrdev` from `class_create` on. -/
def createDevice (steps : Steps) (chr : Chrdev) : Int × Chrdev :=
  match steps.classCreate with
  | .error e => (e, Chrdev.unwind { chr with cl := none })
  | .ok () =>
    match steps.deviceCreate with
    | .error e => (e, Chrdev.unwind { chr.createClass with charClass := none })
    | .ok () => (0, { chr.createClass with nodes := (chr.classes, chr.devt) :: chr.nodes })

def initChrdev (steps : Steps) (chr : Chrdev) : Int × Chrdev :=
  match steps.allocChrdevRegion with
  | .error e => (e, chr)
  | .ok n =>
    match steps.cdevAdd with
    | .error e => (e, chr.reserve n)
    | .ok () => createDevice steps (chr.reserve n).addCdev

/-! ## Probe and remove -/

/-- What the driver keeps of a bound card: its mapped BARs, and the number its `cdev` is at. -/
structure Priv where
  barAddrs : List Nat
  cdev : Nat
  deriving DecidableEq, Repr

/-- The return value of a probe, with all it may have changed. -/
structure Probed where
  ret : Int
  priv : Priv
  pci : Pci
  chr : Chrdev

/-- `cdev_add` is for `devt` as `init_chrdev` leaves it. -/
def fpgaPcieProbe (card : Card) (steps : Steps) (pci : Pci) (chr : Chrdev) : Probed :=
  if steps.devctlRead = false then
    ⟨-EINVAL, ⟨[], 0⟩, pci, chr⟩
  else if steps.privAllocated = false then
    ⟨-ENOMEM, ⟨[], 0⟩, pci, chr⟩
  else
    let setup := fpgaPcieSetupPci card steps pci
    if setup.ret ≠ 0 then
      ⟨setup.ret, ⟨setup.barAddrs, 0⟩, setup.pci, chr⟩
    else
      let r := initChrdev steps chr
      ⟨r.1, ⟨setup.barAddrs, r.2.devt⟩, setup.pci, r.2⟩

/-- `oops` is set by a removal through a pointer that is no class. -/
structure State (ι : Type) where
  pci : ι → Pci
  chr : Chrdev
  bound : ι → Option Priv
  oops : Bool

inductive Event (ι : Type) where
  | probe (i : ι) (steps : Steps)
  | remove (i : ι)

section
variable {ι : Type} [DecidableEq ι]

def fpgaPcieRemove (i : ι) (priv : Priv) (s : State ι) : State ι :=
  match s.chr.cl with
  | none => { s with oops := true }
  | some cl =>
    if s.chr.charClass = some cl then
      { s with
        pci := Function.update s.pci i (fpgaPcieShutdownPci priv.barAddrs (s.pci i))
        chr := { s.chr with
          nodes := s.chr.nodes.erase (cl, s.chr.devt)
          charClass := none
          cdevs := s.chr.cdevs.erase priv.cdev
          numbers := s.chr.numbers.erase s.chr.devt }
        bound := Function.update s.bound i none }
    else
      { s with oops := true }

variable (cards : ι → Card)

/-- The kernel probes only an unbound card and removes only a bound one. After an oops in the
    driver nothing more comes of it. -/
def step (s : State ι) : Event ι → State ι
  | .probe i steps =>
    if s.oops = true ∨ (s.bound i).isSome = true then
      s
    else
      let r := fpgaPcieProbe (cards i) steps (s.pci i) s.chr
      { s with
        pci := Function.update s.pci i r.pci
        chr := r.chr
        bound := Function.update s.bound i (if r.ret = 0 then some r.priv else none) }
  | .remove i =>
    match s.bound i with
    | none => s
    | some priv => if s.oops = true then s else fpgaPcieRemove i priv s

/-- The module is loaded. -/
def loaded : State ι where
  pci := fun _ => ⟨0, [], []⟩
  chr := ⟨[], [], 0, none, [], 0, none⟩
  bound := fun _ => none
  oops := false

/-- The probe comes as far as `pci_request_regions`. -/
def Requests (s : State ι) (i : ι) (steps : Steps) : Prop :=
  s.oops = false ∧ s.bound i = none ∧ steps.devctlRead = true ∧ steps.privAllocated = true ∧
    (cards i).upstream = true ∧ steps.enabled = true

/-- The probe comes as far as `init_chrdev`. -/
def SetsUp (s : State ι) (i : ι) (steps : Steps) : Prop :=
  s.oops = false ∧ s.bound i = none ∧ steps.devctlRead = true ∧ steps.privAllocated = true ∧
    (fpgaPcieSetupPci (cards i) steps (s.pci i)).ret = 0

/-- What the kernel has given out, `init_chrdev` does not get again: a device number that is in
    use, or a class of a name that is registered. -/
structure Registry (steps : Steps) (chr : Chrdev) : Prop where
  number : ∀ n, steps.allocChrdevRegion = .ok n → n ∉ chr.numbers
  className : ∀ n, steps.allocChrdevRegion = .ok n → steps.cdevAdd = .ok () →
    steps.classCreate = .ok () → chr.charClass = none

/-- The rules of the kernel for the answers to a probe, each as far as the call is made. -/
structure Rules (s : State ι) (i : ι) (steps : Steps) : Prop where
  regions : Requests cards s i steps → steps.requested = true →
    ∀ bar ∈ (cards i).bars, bar ∉ (s.pci i).regions
  registry : SetsUp cards s i steps → Registry steps s.chr

/-- The kernel answers the event by its rules. -/
def Abides (s : State ι) (e : Event ι) : Prop :=
  ∀ i steps, e = .probe i steps → Rules cards s i steps

end

/-! ## What each function can do -/

def Pci.free : Pci := ⟨0, [], []⟩

/-- All that `fpga_pcie_setup_pci` takes of a card. -/
def Card.taken (card : Card) : Pci := ⟨1, card.bars, card.bars⟩

theorem configBar_mem (card : Card) : altrPciCvpConfigBar ∈ card.bars :=
  List.mem_filter.mpr ⟨by decide, card.configBar⟩

theorem taken_ne_free (card : Card) : card.taken ≠ .free := by
  intro h
  have hbars : card.bars = [] := congrArg Pci.regions h
  have hmem := configBar_mem card
  rw [hbars] at hmem
  cases hmem

theorem diff_same (l : List Nat) : l.diff l = [] := by
  induction l with
  | nil => rfl
  | cons x l ih => rw [List.diff_cons, List.erase_cons_head, ih]

/-- Shutting down what was set up from a free card leaves it free. -/
theorem shutdown_set_up (regions mapped : List Nat) :
    fpgaPcieShutdownPci mapped ⟨1, regions, mapped⟩ = .free := by
  rw [fpgaPcieShutdownPci, diff_same]
  rfl

theorem mapBars_of_true {card : Card} {remapped : Nat → Bool} {is : List Nat}
    (h : (mapBars card remapped is).1 = true) :
    (mapBars card remapped is).2 = is.filter card.used := by
  induction is with
  | nil => rfl
  | cons i is ih =>
    unfold mapBars at h ⊢
    by_cases hused : card.used i = false
    · rw [if_pos hused] at h ⊢
      rw [ih h, List.filter_cons_of_neg (by rw [hused]; decide)]
    · rw [if_neg hused] at h ⊢
      by_cases hmap : remapped i = false
      · rw [if_pos hmap] at h
        cases h
      · rw [if_neg hmap] at h ⊢
        rw [ih h, List.filter_cons_of_pos (Bool.of_not_eq_false hused)]

theorem neg_EIO_ne : - EIO ≠ 0 := by decide

theorem neg_EINVAL_ne : -EINVAL ≠ 0 := by decide

theorem neg_ENOMEM_ne : -ENOMEM ≠ 0 := by decide

/-- Setting up takes all of a free card, or nothing. -/
theorem setupPci_free (card : Card) (steps : Steps) :
    ((fpgaPcieSetupPci card steps .free).ret ≠ 0 ∧
      (fpgaPcieSetupPci card steps .free).pci = .free) ∨
    fpgaPcieSetupPci card steps .free = ⟨0, card.bars, card.taken⟩ := by
  unfold fpgaPcieSetupPci
  by_cases hup : card.upstream = false
  · rw [if_pos hup]
    exact .inl ⟨neg_EINVAL_ne, rfl⟩
  rw [if_neg hup]
  by_cases henabled : steps.enabled = false
  · rw [if_pos henabled]
    exact .inl ⟨neg_EIO_ne, rfl⟩
  rw [if_neg henabled]
  by_cases hrequested : steps.requested = false
  · rw [if_pos hrequested]
    exact .inl ⟨neg_EIO_ne, rfl⟩
  rw [if_neg hrequested]
  simp only [Pci.free, List.append_nil, Nat.zero_add]
  by_cases hloop : (mapBars card steps.remapped (List.range altrPciCvpNumBars)).1 = false
  · rw [if_pos hloop]
    exact .inl ⟨neg_EIO_ne, shutdown_set_up _ _⟩
  · rw [if_neg hloop, mapBars_of_true (Bool.of_not_eq_false hloop)]
    exact .inr rfl

/-- Without a bridge, or with the device not enabled or its regions not granted, nothing is
    taken. -/
theorem setupPci_refused {card : Card} {steps : Steps} (pci : Pci)
    (h : card.upstream = true → steps.enabled = true → steps.requested = false) :
    (fpgaPcieSetupPci card steps pci).ret ≠ 0 ∧
      (fpgaPcieSetupPci card steps pci).pci = pci := by
  unfold fpgaPcieSetupPci
  by_cases hup : card.upstream = false
  · rw [if_pos hup]
    exact ⟨neg_EINVAL_ne, rfl⟩
  rw [if_neg hup]
  by_cases henabled : steps.enabled = false
  · rw [if_pos henabled]
    exact ⟨neg_EIO_ne, rfl⟩
  · rw [if_neg henabled,
      if_pos (h (Bool.of_not_eq_false hup) (Bool.of_not_eq_false henabled))]
    exact ⟨neg_EIO_ne, rfl⟩

/-- How `init_chrdev` ends: without a number, with one it does not give back, without the
    class, without the device node, or with everything. -/
inductive Inits (chr : Chrdev) : Int × Chrdev → Prop where
  | noNumber (ret : Int) (h : ret < 0) : Inits chr (ret, chr)
  | noCdev (ret : Int) (h : ret < 0) (n : Nat) (hn : n ∉ chr.numbers) :
    Inits chr (ret, { chr with numbers := n :: chr.numbers, devt := n })
  | noClass (ret : Int) (h : ret < 0) (n : Nat) (hn : n ∉ chr.numbers) :
    Inits chr (ret, { chr with devt := n, cl := none })
  | noNode (ret : Int) (h : ret < 0) (n : Nat) (hn : n ∉ chr.numbers)
    (hclass : chr.charClass = none) :
    Inits chr (ret, { chr with
      classes := chr.classes + 1, devt := n, cl := some chr.classes })
  | made (n : Nat) (hn : n ∉ chr.numbers) (hclass : chr.charClass = none) :
    Inits chr (0, ⟨n :: chr.numbers, n :: chr.cdevs, chr.classes + 1, some chr.classes,
      (chr.classes, n) :: chr.nodes, n, some chr.classes⟩)

/-- What is unwound is what the same call has reserved and added. -/
theorem unwind_reserved (numbers cdevs : List Nat) (classes : Nat) (charClass : Option Nat)
    (nodes : List (Nat × Nat)) (n : Nat) (cl : Option Nat) :
    Chrdev.unwind ⟨n :: numbers, n :: cdevs, classes, charClass, nodes, n, cl⟩ =
      ⟨numbers, cdevs, classes, charClass, nodes, n, cl⟩ := by
  simp only [Chrdev.unwind, List.erase_cons_head]

theorem inits_createDevice {steps : Steps} {chr : Chrdev} {n : Nat} (hn : n ∉ chr.numbers)
    (hname : steps.classCreate = .ok () → chr.charClass = none) :
    Inits chr (createDevice steps (chr.reserve n).addCdev) := by
  unfold createDevice
  cases hcreate : steps.classCreate with
  | error e =>
    simp only [Chrdev.reserve, Chrdev.addCdev, unwind_reserved]
    exact .noClass e.val e.property n hn
  | ok =>
    have hclass := hname hcreate
    simp only [Chrdev.reserve, Chrdev.addCdev, Chrdev.createClass, unwind_reserved]
    cases steps.deviceCreate with
    | error e =>
      have h := Inits.noNode e.val e.property n hn hclass
      rw [hclass] at h
      exact h
    | ok => exact .made n hn hclass

theorem inits_initChrdev {steps : Steps} {chr : Chrdev} (h : Registry steps chr) :
    Inits chr (initChrdev steps chr) := by
  unfold initChrdev
  cases halloc : steps.allocChrdevRegion with
  | error e => exact .noNumber e.val e.property
  | ok n =>
    have hn := h.number n halloc
    cases hadd : steps.cdevAdd with
    | error e => exact .noCdev e.val e.property n hn
    | ok => exact inits_createDevice hn (h.className n halloc hadd)

/-! ## The states of the driver -/

/-- Where the statics point while a card is bound at number `n` with class `c`: to what is its
    own, to no class at all, or to the number of a probe that failed. -/
inductive Statics (chr : Chrdev) (n c : Nat) : Prop where
  | own (hdevt : chr.devt = n) (hcl : chr.cl = some c)
  | noClass (hcl : chr.cl = none)
  | other (hcl : chr.cl = some c) (hdevt : chr.devt ≠ n) (hnumber : chr.devt ∈ chr.numbers)
    (hnode : ∀ node ∈ chr.nodes, node.2 ≠ chr.devt)

/-- The character device of the card that is bound at number `n`. -/
structure Serves (chr : Chrdev) (n : Nat) : Prop where
  number : n ∈ chr.numbers
  cdevs : chr.cdevs = [n]
  node : ∃ c, chr.charClass = some c ∧ (c, n) ∈ chr.nodes ∧ Statics chr n c

/-- A number is reserved once, and has at most one device node. -/
structure Chrdev.Wf (chr : Chrdev) : Prop where
  numbers : chr.numbers.Nodup
  nodes : ∀ node ∈ chr.nodes, node.2 ∈ chr.numbers
  onePerNumber : (chr.nodes.map Prod.snd).Nodup

section
variable {ι : Type} [DecidableEq ι] (cards : ι → Card)

/-- At most one card is bound. Another one is free, or was left as `init_chrdev` failed. -/
structure Inv (s : State ι) : Prop where
  wf : s.chr.Wf
  pci : ∀ i, s.pci i = .free ∨ s.pci i = (cards i).taken
  bound : ∀ i priv, s.bound i = some priv →
    s.pci i = (cards i).taken ∧ priv.barAddrs = (cards i).bars ∧ Serves s.chr priv.cdev
  one : ∀ i j, s.bound i ≠ none → s.bound j ≠ none → i = j
  idle : (∀ i, s.bound i = none) → s.chr.cdevs = [] ∧ s.chr.charClass = none

/-- The event is a probe whose `init_chrdev` gets a device number. -/
def TakesNumber (s : State ι) (e : Event ι) : Prop :=
  ∃ i steps n, e = .probe i steps ∧ SetsUp cards s i steps ∧ steps.allocChrdevRegion = .ok n

/-- The event is a probe whose `init_chrdev` fails. -/
def FailsInInit (s : State ι) (e : Event ι) : Prop :=
  ∃ i steps, e = .probe i steps ∧ SetsUp cards s i steps ∧ (initChrdev steps s.chr).1 ≠ 0

variable {cards}

omit [DecidableEq ι] in
/-- The regions of a card that was never shut down are not granted again. -/
theorem setupPci_taken {s : State ι} {i : ι} {steps : Steps} (hrules : Rules cards s i steps)
    (hoops : s.oops = false) (hbound : s.bound i = none) (hread : steps.devctlRead = true)
    (halloc : steps.privAllocated = true) (htaken : s.pci i = (cards i).taken) :
    (fpgaPcieSetupPci (cards i) steps (s.pci i)).ret ≠ 0 ∧
      (fpgaPcieSetupPci (cards i) steps (s.pci i)).pci = s.pci i := by
  refine setupPci_refused _ fun hup henabled => ?_
  by_contra hrequested
  have hbar := configBar_mem (cards i)
  have hfree := hrules.regions ⟨hoops, hbound, hread, halloc, hup, henabled⟩
    (Bool.of_not_eq_false hrequested) _ hbar
  rw [htaken] at hfree
  exact hfree hbar

theorem step_probe {s : State ι} (h : Inv cards s) {i : ι} {steps : Steps}
    (hrules : Rules cards s i steps) (hset : SetsUp cards s i steps) :
    s.pci i = .free ∧ step cards s (.probe i steps) =
      { s with
        pci := Function.update s.pci i (cards i).taken
        chr := (initChrdev steps s.chr).2
        bound := Function.update s.bound i (if (initChrdev steps s.chr).1 = 0 then
          some ⟨(cards i).bars, (initChrdev steps s.chr).2.devt⟩ else none) } := by
  obtain ⟨hoops, hbound, hread, halloc, hret⟩ := hset
  have hfree : s.pci i = .free := by
    rcases h.pci i with hfree | htaken
    · exact hfree
    · exact absurd hret (setupPci_taken hrules hoops hbound hread halloc htaken).1
  have hsetup : fpgaPcieSetupPci (cards i) steps (s.pci i) =
      ⟨0, (cards i).bars, (cards i).taken⟩ := by
    rw [hfree] at hret ⊢
    exact (setupPci_free _ _).resolve_left fun hfails => hfails.1 hret
  refine ⟨hfree, ?_⟩
  simp [step, fpgaPcieProbe, hoops, hbound, hread, halloc, hsetup]

/-- A probe that does not come as far leaves everything as it was. -/
theorem step_probe_of_not {s : State ι} (h : Inv cards s) {i : ι} {steps : Steps}
    (hrules : Rules cards s i steps) (hset : ¬ SetsUp cards s i steps) :
    step cards s (.probe i steps) = s := by
  by_cases hskip : s.oops = true ∨ (s.bound i).isSome = true
  · simp only [step, if_pos hskip]
  have hbound : s.bound i = none := by
    cases hi : s.bound i with
    | none => rfl
    | some priv => exact absurd (.inr (by rw [hi]; rfl)) hskip
  have hoops : s.oops = false := Bool.of_not_eq_true fun hoops => hskip (.inl hoops)
  have hkeeps : (fpgaPcieProbe (cards i) steps (s.pci i) s.chr).ret ≠ 0 ∧
      (fpgaPcieProbe (cards i) steps (s.pci i) s.chr).pci = s.pci i ∧
      (fpgaPcieProbe (cards i) steps (s.pci i) s.chr).chr = s.chr := by
    unfold fpgaPcieProbe
    by_cases hread : steps.devctlRead = false
    · rw [if_pos hread]
      exact ⟨neg_EINVAL_ne, rfl, rfl⟩
    rw [if_neg hread]
    by_cases halloc : steps.privAllocated = false
    · rw [if_pos halloc]
      exact ⟨neg_ENOMEM_ne, rfl, rfl⟩
    rw [if_neg halloc]
    have hret : (fpgaPcieSetupPci (cards i) steps (s.pci i)).ret ≠ 0 := fun hret =>
      hset ⟨hoops, hbound, Bool.of_not_eq_false hread, Bool.of_not_eq_false halloc, hret⟩
    rw [if_pos hret]
    refine ⟨hret, ?_, rfl⟩
    rcases h.pci i with hpci | hpci
    · rw [hpci] at hret ⊢
      rcases setupPci_free (cards i) steps with hfails | hall
      · exact hfails.2
      · exact absurd (congrArg Setup.ret hall) hret
    · exact (setupPci_taken hrules hoops hbound (Bool.of_not_eq_false hread)
        (Bool.of_not_eq_false halloc) hpci).2
  obtain ⟨hret, hpci, hchr⟩ := hkeeps
  simp only [step, if_neg hskip, if_neg hret, hpci, hchr, Function.update_eq_self]
  rw [← hbound, Function.update_eq_self]

/-! ## What a step can do -/

omit [DecidableEq ι] in
/-- A removal asks the kernel for nothing. -/
theorem abides_remove (s : State ι) (i : ι) : Abides cards s (.remove i) :=
  fun _ _ hprobe => by cases hprobe

variable (cards) in
/-- What comes of an event: nothing; a card that is neither bound nor shut down; a bound card;
    a removal through `cl` and `devt`; or an oops. -/
inductive Stepped (s : State ι) : Event ι → State ι → Prop where
  | same (e : Event ι) (hprobe : ∀ i steps, e = .probe i steps → ¬ SetsUp cards s i steps)
    (hremove : ∀ i, e = .remove i → s.bound i = none ∨ s.oops = true) : Stepped s e s
  | lost (i : ι) (steps : Steps) (hset : SetsUp cards s i steps)
    (hregistry : Registry steps s.chr) (hpci : s.pci i = .free)
    (hret : (initChrdev steps s.chr).1 ≠ 0) :
    Stepped s (.probe i steps) { s with
      pci := Function.update s.pci i (cards i).taken
      chr := (initChrdev steps s.chr).2 }
  | binds (i : ι) (steps : Steps) (hset : SetsUp cards s i steps)
    (hregistry : Registry steps s.chr) (hpci : s.pci i = .free)
    (hret : (initChrdev steps s.chr).1 = 0) :
    Stepped s (.probe i steps) { s with
      pci := Function.update s.pci i (cards i).taken
      chr := (initChrdev steps s.chr).2
      bound := Function.update s.bound i
        (some ⟨(cards i).bars, (initChrdev steps s.chr).2.devt⟩) }
  | removes (i : ι) (priv : Priv) (cl : Nat) (hbound : s.bound i = some priv)
    (hoops : s.oops = false) (hcl : s.chr.cl = some cl) (hclass : s.chr.charClass = some cl) :
    Stepped s (.remove i) { s with
      pci := Function.update s.pci i .free
      chr := { s.chr with
        nodes := s.chr.nodes.erase (cl, s.chr.devt)
        charClass := none
        cdevs := []
        numbers := s.chr.numbers.erase s.chr.devt }
      bound := Function.update s.bound i none }
  | oops (i : ι) (priv : Priv) (hbound : s.bound i = some priv) (hoops : s.oops = false)
    (hcl : s.chr.cl = none) : Stepped s (.remove i) { s with oops := true }

theorem fpgaPcieRemove_of_class {s : State ι} {i : ι} {priv : Priv} {cl : Nat}
    (hcl : s.chr.cl = some cl) (hclass : s.chr.charClass = some cl) :
    fpgaPcieRemove i priv s = { s with
      pci := Function.update s.pci i (fpgaPcieShutdownPci priv.barAddrs (s.pci i))
      chr := { s.chr with
        nodes := s.chr.nodes.erase (cl, s.chr.devt)
        charClass := none
        cdevs := s.chr.cdevs.erase priv.cdev
        numbers := s.chr.numbers.erase s.chr.devt }
      bound := Function.update s.bound i none } := by
  unfold fpgaPcieRemove
  split
  · next hnone =>
    rw [hcl] at hnone
    cases hnone
  · next cl' hcl' =>
    obtain rfl : cl = cl' := Option.some.inj (hcl.symm.trans hcl')
    rw [if_pos hclass]

theorem step_cases {s : State ι} (h : Inv cards s) {e : Event ι} (he : Abides cards s e) :
    Stepped cards s e (step cards s e) := by
  cases e with
  | probe i steps =>
    have hrules := he i steps rfl
    by_cases hset : SetsUp cards s i steps
    · have hregistry := hrules.registry hset
      obtain ⟨hpci, hstep⟩ := step_probe h hrules hset
      rw [hstep]
      by_cases hret : (initChrdev steps s.chr).1 = 0
      · rw [if_pos hret]
        exact .binds i steps hset hregistry hpci hret
      · have hbound : Function.update s.bound i none = s.bound := by
          rw [← hset.2.1, Function.update_eq_self]
        rw [if_neg hret, hbound]
        exact .lost i steps hset hregistry hpci hret
    · rw [step_probe_of_not h hrules hset]
      refine .same _ ?_ fun _ hremove => by cases hremove
      rintro _ _ ⟨⟩
      exact hset
  | remove i =>
    cases hbound : s.bound i with
    | none =>
      have hstep : step cards s (.remove i) = s := by simp only [step, hbound]
      rw [hstep]
      refine .same _ (fun _ _ hprobe => by cases hprobe) ?_
      rintro _ ⟨⟩
      exact .inl hbound
    | some priv =>
      by_cases hoops : s.oops = true
      · have hstep : step cards s (.remove i) = s := by simp only [step, hbound, if_pos hoops]
        rw [hstep]
        refine .same _ (fun _ _ hprobe => by cases hprobe) ?_
        rintro _ ⟨⟩
        exact .inr hoops
      have hoops' : s.oops = false := Bool.of_not_eq_true hoops
      have hstep : step cards s (.remove i) = fpgaPcieRemove i priv s := by
        simp only [step, hbound, if_neg hoops]
      obtain ⟨hpci, hbars, hserves⟩ := h.bound i priv hbound
      obtain ⟨c, hclass, -, hstatics⟩ := hserves.node
      have hremoves : s.chr.cl = some c →
          Stepped cards s (.remove i) (step cards s (.remove i)) := by
        intro hcl
        have hdown : fpgaPcieShutdownPci priv.barAddrs (s.pci i) = .free := by
          rw [hbars, hpci]
          exact shutdown_set_up _ _
        have hcdevs : s.chr.cdevs.erase priv.cdev = [] := by
          rw [hserves.cdevs, List.erase_cons_head]
        rw [hstep, fpgaPcieRemove_of_class hcl hclass, hdown, hcdevs]
        exact .removes i priv c hbound hoops' hcl hclass
      cases hstatics with
      | own _ hcl => exact hremoves hcl
      | other hcl _ _ _ => exact hremoves hcl
      | noClass hcl =>
        rw [hstep, fpgaPcieRemove, hcl]
        exact .oops i priv hbound hoops' hcl

/-! ## The invariant -/

theorem Inits.wf {chr : Chrdev} {r : Int × Chrdev} (hr : Inits chr r) (h : chr.Wf) : r.2.Wf := by
  cases hr with
  | noNumber => exact h
  | noCdev _ _ n hn =>
    exact ⟨List.nodup_cons.mpr ⟨hn, h.numbers⟩,
      fun node hnode => List.mem_cons_of_mem _ (h.nodes node hnode), h.onePerNumber⟩
  | noClass => exact ⟨h.numbers, h.nodes, h.onePerNumber⟩
  | noNode => exact ⟨h.numbers, h.nodes, h.onePerNumber⟩
  | made n hn _ =>
    refine ⟨List.nodup_cons.mpr ⟨hn, h.numbers⟩, ?_, ?_⟩
    · intro node hnode
      rcases List.mem_cons.mp hnode with rfl | hnode
      · exact List.mem_cons_self
      · exact List.mem_cons_of_mem _ (h.nodes node hnode)
    · refine List.nodup_cons.mpr ⟨?_, h.onePerNumber⟩
      intro hmem
      obtain ⟨node, hnode, rfl⟩ := List.mem_map.mp hmem
      exact hn (h.nodes node hnode)

/-- With a card bound, the name of the class is taken: `init_chrdev` fails, and leaves the
    statics of the bound card only if it gets no number. -/
theorem Inits.serves {chr : Chrdev} {r : Int × Chrdev} (hr : Inits chr r) (hwf : chr.Wf) {n : Nat}
    (h : Serves chr n) : r.1 < 0 ∧ Serves r.2 n := by
  obtain ⟨c, hclass, hnode, hstatics⟩ := h.node
  cases hr with
  | noNumber ret hret => exact ⟨hret, h⟩
  | noCdev ret hret m hm =>
    refine ⟨hret, List.mem_cons_of_mem _ h.number, h.cdevs, c, hclass, hnode, ?_⟩
    have hother : chr.cl = some c →
        Statics { chr with numbers := m :: chr.numbers, devt := m } n c := by
      intro hcl
      refine .other hcl ?_ List.mem_cons_self ?_
      · rintro rfl
        exact hm h.number
      · rintro node hmem rfl
        exact hm (hwf.nodes node hmem)
    cases hstatics with
    | own _ hcl => exact hother hcl
    | noClass hcl => exact .noClass hcl
    | other hcl _ _ _ => exact hother hcl
  | noClass ret hret => exact ⟨hret, h.number, h.cdevs, c, hclass, hnode, .noClass rfl⟩
  | noNode _ _ _ _ hnone =>
    rw [hclass] at hnone
    cases hnone
  | made _ _ hnone =>
    rw [hclass] at hnone
    cases hnone

theorem Inits.idle {chr : Chrdev} {r : Int × Chrdev} (hr : Inits chr r) (hret : r.1 ≠ 0)
    (h : chr.cdevs = [] ∧ chr.charClass = none) : r.2.cdevs = [] ∧ r.2.charClass = none := by
  cases hr with
  | noNumber => exact h
  | noCdev => exact h
  | noClass => exact h
  | noNode => exact h
  | made => exact absurd rfl hret

/-- Where `init_chrdev` returns 0, it has made everything. -/
theorem Inits.made_of_ret {chr : Chrdev} {r : Int × Chrdev} (hr : Inits chr r) (h : r.1 = 0) :
    ∃ n, r.2 = ⟨n :: chr.numbers, n :: chr.cdevs, chr.classes + 1, some chr.classes,
      (chr.classes, n) :: chr.nodes, n, some chr.classes⟩ := by
  cases hr with
  | noNumber ret hret => exact absurd h hret.ne
  | noCdev ret hret => exact absurd h hret.ne
  | noClass ret hret => exact absurd h hret.ne
  | noNode ret hret => exact absurd h hret.ne
  | made n => exact ⟨n, rfl⟩

theorem Inits.serves_of_ret {chr : Chrdev} {r : Int × Chrdev} (hr : Inits chr r) (h : r.1 = 0)
    (hidle : chr.cdevs = []) : Serves r.2 r.2.devt := by
  obtain ⟨n, hmade⟩ := hr.made_of_ret h
  rw [hmade]
  exact ⟨List.mem_cons_self, by rw [hidle], _, rfl, List.mem_cons_self, .own rfl rfl⟩

/-- What `device_destroy` takes away, whether `devt` is the number of the card or not. -/
theorem erase_nodes {chr : Chrdev} (hwf : chr.Wf) {n c : Nat} (hnode : (c, n) ∈ chr.nodes)
    (hcl : chr.cl = some c) (hstatics : Statics chr n c) :
    chr.nodes.erase (c, chr.devt) = chr.nodes.filter fun node => node.2 ≠ chr.devt := by
  have honly : ∀ node ∈ chr.nodes, node.2 = chr.devt → node = (c, chr.devt) := by
    intro node hmem heq
    cases hstatics with
    | own hdevt _ =>
      refine List.inj_on_of_nodup_map hwf.onePerNumber hmem ?_ heq
      rw [hdevt]
      exact hnode
    | noClass hnone =>
      rw [hcl] at hnone
      cases hnone
    | other _ _ _ hnone => exact absurd heq (hnone node hmem)
  rw [(List.Nodup.of_map _ hwf.onePerNumber).erase_eq_filter]
  refine List.filter_congr fun node hmem => ?_
  by_cases heq : node.2 = chr.devt
  · simp [honly node hmem heq]
  · have hne : node ≠ (c, chr.devt) := fun hnode => heq (congrArg Prod.snd hnode)
    simp [hne, heq]

theorem Chrdev.Wf.remove {chr : Chrdev} (h : chr.Wf) {n c : Nat} (hnode : (c, n) ∈ chr.nodes)
    (hcl : chr.cl = some c) (hstatics : Statics chr n c) :
    Chrdev.Wf { chr with
      nodes := chr.nodes.erase (c, chr.devt)
      charClass := none
      cdevs := []
      numbers := chr.numbers.erase chr.devt } := by
  rw [erase_nodes h hnode hcl hstatics]
  refine ⟨h.numbers.erase _, ?_, h.onePerNumber.sublist (List.filter_sublist.map _)⟩
  intro node hmem
  obtain ⟨hmem, hne⟩ := List.mem_filter.mp hmem
  exact (List.mem_erase_of_ne (of_decide_eq_true hne)).mpr (h.nodes node hmem)

omit [DecidableEq ι] in
theorem inv_loaded : Inv cards loaded where
  wf := ⟨List.nodup_nil, nofun, List.nodup_nil⟩
  pci _ := .inl rfl
  bound := nofun
  one _ _ h := absurd rfl h
  idle _ := ⟨rfl, rfl⟩

omit [DecidableEq ι] in
/-- `init_chrdev` succeeds only while no card is bound. -/
theorem Inv.unbound_of_ret {s : State ι} (h : Inv cards s) {steps : Steps}
    (hregistry : Registry steps s.chr) (hret : (initChrdev steps s.chr).1 = 0) (j : ι) :
    s.bound j = none := by
  cases hj : s.bound j with
  | none => rfl
  | some priv =>
    have hserves := (h.bound j priv hj).2.2
    exact absurd hret ((inits_initChrdev hregistry).serves h.wf hserves).1.ne

theorem Inv.step {s : State ι} (h : Inv cards s) {e : Event ι} (he : Abides cards s e) :
    Inv cards (step cards s e) := by
  have hpci : ∀ i (pci : Pci), pci = .free ∨ pci = (cards i).taken → ∀ j,
      Function.update s.pci i pci j = .free ∨
        Function.update s.pci i pci j = (cards j).taken := by
    intro i pci hi j
    by_cases hj : j = i
    · rw [hj, Function.update_self]
      exact hi
    · rw [Function.update_of_ne hj]
      exact h.pci j
  have hstep := step_cases h he
  generalize Cards.step cards s e = s' at hstep ⊢
  cases hstep with
  | same => exact h
  | lost i steps hset hregistry hfree hret =>
    have hinit := inits_initChrdev hregistry
    refine ⟨hinit.wf h.wf, hpci i _ (.inr rfl), ?_, h.one, fun hnone => ?_⟩
    · intro j priv hj
      obtain ⟨htaken, hbars, hserves⟩ := h.bound j priv hj
      refine ⟨?_, hbars, (hinit.serves h.wf hserves).2⟩
      by_cases hji : j = i
      · rw [hji]
        exact Function.update_self ..
      · exact (Function.update_of_ne hji ..).trans htaken
    · exact hinit.idle hret (h.idle hnone)
  | binds i steps hset hregistry hfree hret =>
    have hinit := inits_initChrdev hregistry
    have hnone := h.unbound_of_ret hregistry hret
    have hothers : ∀ (priv : Priv) (j : ι), j ≠ i →
        Function.update s.bound i (some priv) j = none :=
      fun priv j hj => (Function.update_of_ne hj ..).trans (hnone j)
    refine ⟨hinit.wf h.wf, hpci i _ (.inr rfl), ?_, ?_, ?_⟩
    · intro j priv hj
      by_cases hji : j = i
      · subst hji
        have hpriv := (Function.update_self j _ s.bound).symm.trans hj
        obtain rfl := Option.some.inj hpriv
        exact ⟨Function.update_self .., rfl, hinit.serves_of_ret hret (h.idle hnone).1⟩
      · have hnot := (hothers _ j hji).symm.trans hj
        cases hnot
    · intro j k hj hk
      have hji : j = i := by_contra fun hne => hj (hothers _ j hne)
      have hki : k = i := by_contra fun hne => hk (hothers _ k hne)
      rw [hji, hki]
    · intro hall
      have hi := (Function.update_self i _ s.bound).symm.trans (hall i)
      cases hi
  | removes i priv cl hbound hoops hcl hclass =>
    obtain ⟨-, -, hserves⟩ := h.bound i priv hbound
    obtain ⟨c, hclass', hnode, hstatics⟩ := hserves.node
    obtain rfl : cl = c := Option.some.inj (hclass.symm.trans hclass')
    have hnone : ∀ j, Function.update s.bound i none j = none := by
      intro j
      by_cases hj : j = i
      · rw [hj, Function.update_self]
      · rw [Function.update_of_ne hj]
        by_contra hne
        exact hj (h.one j i hne (by rw [hbound]; nofun))
    refine ⟨h.wf.remove hnode hcl hstatics, hpci i _ (.inl rfl), ?_, ?_, fun _ => ⟨rfl, rfl⟩⟩
    · intro j priv hj
      have hnot := (hnone j).symm.trans hj
      cases hnot
    · intro j _ hj
      exact absurd (hnone j) hj
  | oops => exact ⟨h.wf, h.pci, h.bound, h.one, h.idle⟩

/-! ## Runs -/

variable (cards) in
/-- The state after these events since the module was loaded. -/
def reached (es : List (Event ι)) : State ι := run (step cards) loaded es

theorem reached_append (es fs : List (Event ι)) :
    reached cards (es ++ fs) = run (step cards) (reached cards es) fs := by
  unfold reached run
  rw [List.foldl_append]

variable (cards) in
/-- Every event of the run is answered by the rules of the kernel. -/
def Answered (es : List (Event ι)) : Prop :=
  ∀ before e later, es = before ++ e :: later → Abides cards (reached cards before) e

theorem Answered.before {es fs : List (Event ι)} (h : Answered cards (es ++ fs)) :
    Answered cards es := by
  intro before e later hes
  exact h before e (later ++ fs) (by rw [hes, List.append_assoc]; rfl)

theorem Answered.event {es fs : List (Event ι)} {e : Event ι}
    (h : Answered cards (es ++ e :: fs)) : Abides cards (reached cards es) e := h es e fs rfl

/-- What comes after an event is answered from the state the event leads to. -/
theorem Answered.after {es fs : List (Event ι)} {e : Event ι}
    (h : Answered cards (es ++ e :: fs)) (before : List (Event ι)) (e' : Event ι)
    (later : List (Event ι)) (hfs : fs = before ++ e' :: later) :
    Abides cards (run (step cards) (step cards (reached cards es) e) before) e' := by
  have hrun : run (step cards) (step cards (reached cards es) e) before =
      reached cards (es ++ e :: before) := by
    rw [reached_append, run_cons]
  rw [hrun]
  exact h (es ++ e :: before) e' later (by rw [hfs, List.append_assoc]; rfl)

theorem answered_nil : Answered cards [] := by
  intro before e later h
  exact absurd h.symm (by simp)

theorem Answered.snoc {es : List (Event ι)} (h : Answered cards es) {e : Event ι}
    (he : Abides cards (reached cards es) e) : Answered cards (es ++ [e]) :=
  forall_steps_snoc.mpr ⟨h, he⟩

theorem inv_reached {es : List (Event ι)} (hes : Answered cards es) :
    Inv cards (reached cards es) :=
  run_inv_of_allowed (fun _ _ h he => h.step he) inv_loaded es hes

variable (cards) in
/-- Neither bound nor shut down. -/
def Lost (s : State ι) (i : ι) : Prop := s.bound i = none ∧ s.pci i = (cards i).taken

/-- The regions of a lost card stay requested, and no probe of it gets them. -/
theorem Lost.step {s : State ι} {i : ι} (hlost : Lost cards s i) (h : Inv cards s)
    {e : Event ι} (he : Abides cards s e) : Lost cards (step cards s e) i := by
  obtain ⟨hbound, htaken⟩ := hlost
  have hother : ∀ j, s.pci j = .free → i ≠ j := by
    rintro j hfree rfl
    exact taken_ne_free _ (htaken.symm.trans hfree)
  have hstep := step_cases h he
  generalize Cards.step cards s e = s' at hstep ⊢
  cases hstep with
  | same => exact ⟨hbound, htaken⟩
  | lost j _ _ _ hfree _ =>
    exact ⟨hbound, (Function.update_of_ne (hother j hfree) ..).trans htaken⟩
  | binds j _ _ _ hfree _ =>
    exact ⟨(Function.update_of_ne (hother j hfree) ..).trans hbound,
      (Function.update_of_ne (hother j hfree) ..).trans htaken⟩
  | removes j priv _ hpriv _ _ _ =>
    have hne : i ≠ j := by
      rintro rfl
      rw [hpriv] at hbound
      cases hbound
    exact ⟨(Function.update_of_ne hne ..).trans hbound,
      (Function.update_of_ne hne ..).trans htaken⟩
  | oops => exact ⟨hbound, htaken⟩

theorem lost_of_fails {s : State ι} (h : Inv cards s) {i : ι} {steps : Steps}
    (hrules : Rules cards s i steps) (hset : SetsUp cards s i steps)
    (hret : (initChrdev steps s.chr).1 ≠ 0) :
    Lost cards (step cards s (.probe i steps)) i := by
  rw [(step_probe h hrules hset).2, if_neg hret]
  exact ⟨Function.update_self .., Function.update_self ..⟩

/-- In every run that the kernel answers by its rules: at most one card is bound; while one is,
    each probe of another card that comes as far as `init_chrdev` fails there; and a card with
    which `init_chrdev` failed is not bound at any later time. -/
theorem one_card (es : List (Event ι)) (hes : Answered cards es) :
    (∀ i j, (reached cards es).bound i ≠ none → (reached cards es).bound j ≠ none → i = j) ∧
    (∀ i j steps, (reached cards es).bound i ≠ none → SetsUp cards (reached cards es) j steps →
      Rules cards (reached cards es) j steps →
      (initChrdev steps (reached cards es).chr).1 < 0) ∧
    ∀ before i steps later, es = before ++ .probe i steps :: later →
      SetsUp cards (reached cards before) i steps →
      (initChrdev steps (reached cards before).chr).1 ≠ 0 → (reached cards es).bound i = none := by
  have hinv := inv_reached hes
  refine ⟨hinv.one, ?_, ?_⟩
  · intro i j steps hi hset hrules
    obtain ⟨priv, hpriv⟩ := Option.ne_none_iff_exists'.mp hi
    have hserves := (hinv.bound i priv hpriv).2.2
    exact ((inits_initChrdev (hrules.registry hset)).serves hinv.wf hserves).1
  · rintro before i steps later rfl hset hret
    have hbefore := inv_reached hes.before
    have hprobe := hes.event
    have hkeeps : ∀ s e, Inv cards s ∧ Lost cards s i → Abides cards s e →
        Inv cards (step cards s e) ∧ Lost cards (step cards s e) i :=
      fun _ _ hs he => ⟨hs.1.step he, hs.2.step hs.1 he⟩
    have hlost := lost_of_fails hbefore (hprobe i steps rfl) hset hret
    rw [reached_append, run_cons]
    exact (run_inv_of_allowed hkeeps ⟨hbefore.step hprobe, hlost⟩ later hes.after).2.1

/-- Two cards with one BAR each, behind bridges. -/
def twoCards (_ : Bool) : Card := ⟨true, fun i => decide (i = 2), rfl⟩

/-- A probe with nothing refused, and `n` as the number. -/
def granted (n : Nat) : Steps :=
  ⟨true, true, true, true, fun _ => true, .ok n, .ok (), .ok (), .ok ()⟩

/-- A probe that gets `n` as the number, and finds the name of the class registered. -/
def nameTaken (n : Nat) : Steps := { granted n with classCreate := .error ⟨-EEXIST, by decide⟩ }

/-- A probe whose regions are taken. -/
def regionsTaken : Steps := { granted 9 with requested := false }

theorem abides_granted : Abides twoCards loaded (.probe false (granted 7)) := by
  rintro _ _ ⟨⟩
  refine ⟨fun _ _ => by decide, fun _ => ⟨?_, fun _ _ _ _ => rfl⟩⟩
  rintro n ⟨⟩
  decide

theorem abides_nameTaken :
    Abides twoCards (reached twoCards [.probe false (granted 7)]) (.probe true (nameTaken 8)) := by
  rintro _ _ ⟨⟩
  refine ⟨fun _ _ => by decide, fun _ => ⟨?_, nofun⟩⟩
  rintro n ⟨⟩
  decide

/-- The second card is probed while the first one is bound. -/
theorem answered_second :
    Answered twoCards [.probe false (granted 7), .probe true (nameTaken 8)] :=
  (answered_nil.snoc abides_granted).snoc abides_nameTaken

theorem answered_third :
    Answered twoCards [.probe false (granted 7), .probe true (nameTaken 8),
      .probe true regionsTaken] := by
  have hthird : Abides twoCards (reached twoCards [.probe false (granted 7),
      .probe true (nameTaken 8)]) (.probe true regionsTaken) := by
    rintro _ _ ⟨⟩
    refine ⟨nofun, ?_⟩
    rintro ⟨-, -, -, -, hret⟩
    exact absurd hret (by decide)
  exact answered_second.snoc hthird

/-- The second card's probe fails for the name of the class, and it is not bound afterwards. -/
theorem one_card_second_probe :
    (initChrdev (nameTaken 8) (reached twoCards [.probe false (granted 7)]).chr).1 < 0 ∧
    (reached twoCards [.probe false (granted 7), .probe true (nameTaken 8),
      .probe true regionsTaken]).bound true = none := by
  have hbound : (reached twoCards [.probe false (granted 7)]).bound false ≠ none := by decide
  have hset : SetsUp twoCards (reached twoCards [.probe false (granted 7)]) true (nameTaken 8) :=
    ⟨rfl, rfl, rfl, rfl, rfl⟩
  refine ⟨(one_card [.probe false (granted 7)] answered_second.before).2.1 false true _ hbound
    hset (abides_nameTaken true _ rfl), ?_⟩
  refine (one_card [.probe false (granted 7), .probe true (nameTaken 8), .probe true regionsTaken]
    answered_third).2.2 [.probe false (granted 7)] true (nameTaken 8) [.probe true regionsTaken]
    rfl hset ?_
  decide

/-! ## Removals -/

/-- The statics are those of the card bound at number `n`. -/
def Chrdev.Own (chr : Chrdev) (n : Nat) : Prop := chr.devt = n ∧ chr.cl = chr.charClass

theorem createDevice_devt (steps : Steps) (chr : Chrdev) :
    (createDevice steps chr).2.devt = chr.devt := by
  unfold createDevice
  cases steps.classCreate with
  | error e => rfl
  | ok => cases steps.deviceCreate <;> rfl

theorem devt_of_number {steps : Steps} {chr : Chrdev} {n : Nat}
    (halloc : steps.allocChrdevRegion = .ok n) : (initChrdev steps chr).2.devt = n := by
  simp only [initChrdev, halloc]
  cases steps.cdevAdd with
  | error e => rfl
  | ok => exact createDevice_devt ..

theorem initChrdev_of_no_number {steps : Steps} {chr : Chrdev}
    (h : ∀ n, steps.allocChrdevRegion ≠ .ok n) : (initChrdev steps chr).2 = chr := by
  unfold initChrdev
  cases halloc : steps.allocChrdevRegion with
  | error e => rfl
  | ok n => exact absurd halloc (h n)

/-- While card `i` is bound and not removed, nothing of it changes, and the statics are its own
    exactly until a probe gets a number. -/
theorem step_bound {s : State ι} (h : Inv cards s) (hoops : s.oops = false) {i : ι} {priv : Priv}
    (hbound : s.bound i = some priv) {e : Event ι} (he : Abides cards s e)
    (hstays : e ≠ .remove i) :
    (step cards s e).oops = false ∧ (step cards s e).bound i = some priv ∧
      ((step cards s e).chr.Own priv.cdev ↔ s.chr.Own priv.cdev ∧ ¬ TakesNumber cards s e) := by
  have hserves := (h.bound i priv hbound).2.2
  have honly : ∀ j, s.bound j ≠ none → j = i := fun j hj => h.one j i hj (by rw [hbound]; nofun)
  have hstep := step_cases h he
  generalize Cards.step cards s e = s' at hstep ⊢
  cases hstep with
  | same _ hprobe _ =>
    have hnot : ¬ TakesNumber cards s e := by
      rintro ⟨j, steps, n, heq, hset, -⟩
      exact hprobe j steps heq hset
    exact ⟨hoops, hbound, fun h => ⟨h, hnot⟩, And.left⟩
  | lost j steps hset hregistry _ _ =>
    refine ⟨hoops, hbound, ?_⟩
    by_cases htakes : ∃ n, steps.allocChrdevRegion = .ok n
    · obtain ⟨n, halloc⟩ := htakes
      have hnot : ¬ (initChrdev steps s.chr).2.Own priv.cdev := by
        rintro ⟨hdevt, -⟩
        have hn := hregistry.number n halloc
        rw [devt_of_number halloc] at hdevt
        rw [hdevt] at hn
        exact hn hserves.number
      exact ⟨fun h => absurd h hnot, fun h => absurd ⟨j, steps, n, rfl, hset, halloc⟩ h.2⟩
    · have hsame : (initChrdev steps s.chr).2 = s.chr :=
        initChrdev_of_no_number fun n halloc => htakes ⟨n, halloc⟩
      have hnot : ¬ TakesNumber cards s (.probe j steps) := by
        rintro ⟨_, _, n, ⟨⟩, -, halloc⟩
        exact htakes ⟨n, halloc⟩
      show (initChrdev steps s.chr).2.Own priv.cdev ↔ _
      rw [hsame]
      exact ⟨fun h => ⟨h, hnot⟩, And.left⟩
  | binds j steps hset hregistry _ hret =>
    exact absurd hret ((inits_initChrdev hregistry).serves h.wf hserves).1.ne
  | removes j priv' _ hpriv _ _ _ =>
    exact absurd (by rw [honly j (by rw [hpriv]; nofun)]) hstays
  | oops j priv' hpriv _ _ => exact absurd (by rw [honly j (by rw [hpriv]; nofun)]) hstays

/-- `s'` is `s` with all given back that card `i` took, bound at number `n`, and nothing else. -/
structure RemovedClean (s : State ι) (i : ι) (n : Nat) (s' : State ι) : Prop where
  oops : s'.oops = false
  bound : s'.bound = Function.update s.bound i none
  pci : s'.pci = Function.update s.pci i .free
  numbers : s'.chr.numbers = s.chr.numbers.erase n
  cdevs : s'.chr.cdevs = s.chr.cdevs.erase n
  nodes : s'.chr.nodes = s.chr.nodes.filter fun node => node.2 ≠ n
  charClass : s'.chr.charClass = none

theorem removedClean_iff {s : State ι} (h : Inv cards s) (hoops : s.oops = false) {i : ι}
    {priv : Priv} (hbound : s.bound i = some priv) :
    RemovedClean s i priv.cdev (step cards s (.remove i)) ↔ s.chr.Own priv.cdev := by
  obtain ⟨-, -, hserves⟩ := h.bound i priv hbound
  obtain ⟨c, hclass, hnode, hstatics⟩ := hserves.node
  have hstep := step_cases h (abides_remove s i)
  generalize Cards.step cards s (.remove i) = s' at hstep ⊢
  cases hstep with
  | same _ _ hremove =>
    rcases hremove i rfl with hnone | htrue
    · rw [hbound] at hnone
      cases hnone
    · rw [hoops] at htrue
      cases htrue
  | removes _ _ cl _ _ hcl hclass' =>
    obtain rfl : cl = c := Option.some.inj (hclass'.symm.trans hclass)
    constructor
    · intro hclean
      have hnumbers : s.chr.numbers.erase s.chr.devt = s.chr.numbers.erase priv.cdev :=
        hclean.numbers
      refine ⟨?_, hcl.trans hclass.symm⟩
      by_contra hne
      have hkept : priv.cdev ∈ s.chr.numbers.erase s.chr.devt :=
        (List.mem_erase_of_ne (Ne.symm hne)).mpr hserves.number
      rw [hnumbers] at hkept
      exact h.wf.numbers.not_mem_erase hkept
    · rintro ⟨hdevt, -⟩
      have hnodes := erase_nodes h.wf hnode hcl hstatics
      rw [hdevt] at hnodes
      refine ⟨hoops, rfl, rfl, ?_, ?_, ?_, rfl⟩
      · show s.chr.numbers.erase s.chr.devt = _
        rw [hdevt]
      · rw [hserves.cdevs, List.erase_cons_head]
      · show s.chr.nodes.erase (cl, s.chr.devt) = _
        rw [hdevt, hnodes]
  | oops _ _ _ _ hcl =>
    constructor
    · intro hclean
      have hfalse : true = false := hclean.oops
      cases hfalse
    · rintro ⟨-, hown⟩
      rw [hcl, hclass] at hown
      cases hown

theorem Inits.own {chr : Chrdev} {r : Int × Chrdev} (hr : Inits chr r) (h : r.1 = 0) :
    r.2.Own r.2.devt := by
  obtain ⟨n, hmade⟩ := hr.made_of_ret h
  rw [hmade]
  exact ⟨rfl, rfl⟩

/-- A probe that binds the card leaves the statics to it. -/
theorem own_of_binds {s : State ι} (h : Inv cards s) {i : ι} {steps : Steps} {priv : Priv}
    (he : Abides cards s (.probe i steps)) (hstart : s.bound i = none)
    (hbinds : (step cards s (.probe i steps)).bound i = some priv) :
    (step cards s (.probe i steps)).oops = false ∧
      (step cards s (.probe i steps)).chr.Own priv.cdev := by
  have hstep := step_cases h he
  generalize Cards.step cards s (.probe i steps) = s' at hstep hbinds ⊢
  cases hstep with
  | same =>
    rw [hstart] at hbinds
    cases hbinds
  | lost =>
    have hnot := hstart.symm.trans hbinds
    cases hnot
  | binds _ _ hset hregistry _ hret =>
    have hpriv := (Function.update_self i _ s.bound).symm.trans hbinds
    obtain rfl := Option.some.inj hpriv
    exact ⟨hset.1, (inits_initChrdev hregistry).own hret⟩

/-- Any run from the probe that binds card `i` on, as long as `i` is not removed and the kernel
    keeps to its rules: it stays bound, and removing it then gives back what that probe took,
    and nothing else, exactly if no other probe got a device number meanwhile. -/
theorem remove_clean_iff (before later : List (Event ι)) (i : ι) (steps : Steps) (priv : Priv)
    (hes : Answered cards (before ++ .probe i steps :: later))
    (hstart : (reached cards before).bound i = none)
    (hbinds : (reached cards (before ++ [.probe i steps])).bound i = some priv)
    (hstays : .remove i ∉ later) :
    let s := reached cards (before ++ .probe i steps :: later)
    s.bound i = some priv ∧ (RemovedClean s i priv.cdev (step cards s (.remove i)) ↔
      ∀ mid e rest, later = mid ++ e :: rest →
        ¬ TakesNumber cards (reached cards (before ++ .probe i steps :: mid)) e) := by
  intro s
  have hrun : ∀ es, reached cards (before ++ .probe i steps :: es) =
      run (step cards) (step cards (reached cards before) (.probe i steps)) es := by
    intro es
    rw [reached_append, run_cons]
  rw [reached_append, run_cons, run_nil] at hbinds
  have hbefore := inv_reached hes.before
  have hprobe := hes.event
  obtain ⟨hoops, hown⟩ := own_of_binds hbefore hprobe hstart hbinds
  have hJ : ∀ s e, Abides cards s e ∧ e ≠ .remove i →
      Inv cards s ∧ s.oops = false ∧ s.bound i = some priv →
      Inv cards (step cards s e) ∧ (step cards s e).oops = false ∧
        (step cards s e).bound i = some priv := by
    rintro s e ⟨he, hne⟩ ⟨hinv, hstill, hbound⟩
    obtain ⟨hoops, hstays, -⟩ := step_bound hinv hstill hbound he hne
    exact ⟨hinv.step he, hoops, hstays⟩
  have hiff : ∀ s e, Abides cards s e ∧ e ≠ .remove i →
      Inv cards s ∧ s.oops = false ∧ s.bound i = some priv →
      ((step cards s e).chr.Own priv.cdev ↔ s.chr.Own priv.cdev ∧ ¬ TakesNumber cards s e) :=
    fun s e he hs => (step_bound hs.1 hs.2.1 hs.2.2 he.1 he.2).2.2
  have hinput : ∀ mid e rest, later = mid ++ e :: rest →
      Abides cards (run (step cards) (step cards (reached cards before) (.probe i steps)) mid) e ∧
        e ≠ .remove i := by
    refine fun mid e rest hlater => ⟨hes.after mid e rest hlater, ?_⟩
    rintro rfl
    exact hstays (by rw [hlater]; exact List.mem_append_right _ List.mem_cons_self)
  have hsince := holds_after_iff hJ
    (fun s e he hs hallowed hp => (hiff s e he hs).mpr ⟨hp, hallowed⟩)
    (fun s e he hs hnot hp => hnot ((hiff s e he hs).mp hp).2)
    (fun s e he hs hnot hp => hnot ((hiff s e he hs).mp hp).1)
    ⟨hbefore.step hprobe, hoops, hbinds⟩ hown later hinput
  obtain ⟨⟨hinv, hstill, hbound⟩, hown⟩ := hsince
  simp only [s, hrun]
  exact ⟨hbound, (removedClean_iff hinv hstill hbound).trans hown⟩

/-- With the second card probed meanwhile, removing the first one is not clean. -/
theorem remove_clean_iff_second_probe :
    ¬ RemovedClean (reached twoCards [.probe false (granted 7), .probe true (nameTaken 8)])
      false 7
      (step twoCards (reached twoCards [.probe false (granted 7), .probe true (nameTaken 8)])
        (.remove false)) := by
  intro hclean
  have hstart : (reached twoCards []).bound false = none := rfl
  have hbinds : (reached twoCards ([] ++ [.probe false (granted 7)])).bound false =
      some ⟨[2], 7⟩ := by decide
  have hset : SetsUp twoCards (reached twoCards [.probe false (granted 7)]) true (nameTaken 8) :=
    ⟨rfl, rfl, rfl, rfl, rfl⟩
  have hiff := (remove_clean_iff [] [.probe true (nameTaken 8)] false (granted 7) ⟨[2], 7⟩
    answered_second hstart hbinds (by simp)).2
  exact hiff.mp hclean [] _ [] rfl ⟨true, nameTaken 8, 8, rfl, hset, rfl⟩

/-! ## All given back -/

/-- No card is lost. -/
def NoneLost (s : State ι) : Prop := ∀ i, s.bound i = none → s.pci i = .free

/-- The driver holds the character device of the bound card, and no more. -/
structure Exact (s : State ι) : Prop where
  oops : s.oops = false
  idle : (∀ i, s.bound i = none) → s.chr.numbers = [] ∧ s.chr.nodes = []
  bound : ∀ i priv, s.bound i = some priv → s.chr.Own priv.cdev ∧
    s.chr.numbers = [priv.cdev] ∧ ∃ c, s.chr.nodes = [(c, priv.cdev)]

theorem noneLost_step_iff {s : State ι} (h : Inv cards s) {e : Event ι}
    (he : Abides cards s e) :
    NoneLost (step cards s e) ↔ NoneLost s ∧ ¬ FailsInInit cards s e := by
  constructor
  · intro hnone
    have hnot : ∀ i, ¬ Lost cards (step cards s e) i := by
      rintro i ⟨hbound, htaken⟩
      exact taken_ne_free _ (htaken.symm.trans (hnone i hbound))
    refine ⟨?_, ?_⟩
    · intro i hbound
      refine (h.pci i).resolve_right fun htaken => ?_
      exact hnot i (Lost.step ⟨hbound, htaken⟩ h he)
    · rintro ⟨i, steps, rfl, hset, hret⟩
      exact hnot i (lost_of_fails h (he i steps rfl) hset hret)
  · rintro ⟨hnone, hnot⟩
    have hstep := step_cases h he
    generalize Cards.step cards s e = s' at hstep ⊢
    intro j hj
    cases hstep with
    | same => exact hnone j hj
    | lost i steps hset _ _ hret => exact absurd ⟨i, steps, rfl, hset, hret⟩ hnot
    | binds i =>
      have hne : j ≠ i := by
        rintro rfl
        have hsome := (Function.update_self j _ s.bound).symm.trans hj
        cases hsome
      exact (Function.update_of_ne hne ..).trans
        (hnone j ((Function.update_of_ne hne ..).symm.trans hj))
    | removes i =>
      by_cases hji : j = i
      · rw [hji]
        exact Function.update_self ..
      · exact (Function.update_of_ne hji ..).trans
          (hnone j ((Function.update_of_ne hji ..).symm.trans hj))
    | oops => exact hnone j hj

theorem Inits.adds {chr : Chrdev} {r : Int × Chrdev} (hr : Inits chr r) (h : r.1 = 0) :
    r.2.numbers = r.2.devt :: chr.numbers ∧ ∃ c, r.2.nodes = (c, r.2.devt) :: chr.nodes := by
  obtain ⟨n, hmade⟩ := hr.made_of_ret h
  rw [hmade]
  exact ⟨rfl, _, rfl⟩

theorem Exact.step {s : State ι} (h : Exact s) (hinv : Inv cards s) {e : Event ι}
    (he : Abides cards s e) (hnot : ¬ FailsInInit cards s e) : Exact (step cards s e) := by
  have hstep := step_cases hinv he
  generalize Cards.step cards s e = s' at hstep ⊢
  cases hstep with
  | same => exact h
  | lost i steps hset _ _ hret => exact absurd ⟨i, steps, rfl, hset, hret⟩ hnot
  | binds i steps _ hregistry _ hret =>
    have hinit := inits_initChrdev hregistry
    have hnone := hinv.unbound_of_ret hregistry hret
    obtain ⟨hnumbers, hnodes⟩ := h.idle hnone
    obtain ⟨hadds, c, hadded⟩ := hinit.adds hret
    rw [hnumbers] at hadds
    rw [hnodes] at hadded
    refine ⟨h.oops, ?_, ?_⟩
    · intro hall
      have hi := (Function.update_self i _ s.bound).symm.trans (hall i)
      cases hi
    · intro j priv hj
      have hji : j = i := by
        by_contra hne
        have hnever := ((Function.update_of_ne hne ..).trans (hnone j)).symm.trans hj
        cases hnever
      subst hji
      have hpriv := (Function.update_self j _ s.bound).symm.trans hj
      obtain rfl := Option.some.inj hpriv
      exact ⟨hinit.own hret, hadds, c, hadded⟩
  | removes i priv cl hbound _ _ hclass =>
    obtain ⟨hown, hnumbers, c, hnodes⟩ := h.bound i priv hbound
    obtain ⟨c', hclass', hnode, -⟩ := (hinv.bound i priv hbound).2.2.node
    obtain rfl : cl = c' := Option.some.inj (hclass.symm.trans hclass')
    have hc : cl = c := by
      rw [hnodes] at hnode
      exact congrArg Prod.fst (List.mem_singleton.mp hnode)
    refine ⟨h.oops, fun _ => ⟨?_, ?_⟩, ?_⟩
    · show s.chr.numbers.erase s.chr.devt = []
      rw [hnumbers, hown.1, List.erase_cons_head]
    · show s.chr.nodes.erase (cl, s.chr.devt) = []
      rw [hnodes, hown.1, hc, List.erase_cons_head]
    · intro j privj hj
      have hji : j ≠ i := by
        rintro rfl
        have hnever := (Function.update_self j _ s.bound).symm.trans hj
        cases hnever
      have hsome : s.bound j = some privj := (Function.update_of_ne hji ..).symm.trans hj
      exact absurd (hinv.one j i (by rw [hsome]; nofun) (by rw [hbound]; nofun)) hji
  | oops i priv hbound _ hcl =>
    obtain ⟨⟨-, hown⟩, -⟩ := h.bound i priv hbound
    obtain ⟨c, hclass, -⟩ := (hinv.bound i priv hbound).2.2.node
    rw [hcl, hclass] at hown
    cases hown

/-- The driver holds nothing. -/
structure AllGivenBack (s : State ι) : Prop where
  oops : s.oops = false
  pci : ∀ i, s.pci i = .free
  numbers : s.chr.numbers = []
  cdevs : s.chr.cdevs = []
  nodes : s.chr.nodes = []
  charClass : s.chr.charClass = none

/-- After any run that the kernel answers by its rules, everything is given back exactly if no
    card is bound and no `init_chrdev` of the run failed. -/
theorem given_back_iff (es : List (Event ι)) (hes : Answered cards es) :
    AllGivenBack (reached cards es) ↔ (∀ i, (reached cards es).bound i = none) ∧
      ∀ before e later, es = before ++ e :: later →
        ¬ FailsInInit cards (reached cards before) e := by
  have hJ : ∀ s e, Abides cards s e → Inv cards s ∧ (NoneLost s → Exact s) →
      Inv cards (step cards s e) ∧ (NoneLost (step cards s e) → Exact (step cards s e)) := by
    rintro s e he ⟨hinv, hexact⟩
    refine ⟨hinv.step he, fun hnone => ?_⟩
    obtain ⟨hbefore, hnot⟩ := (noneLost_step_iff hinv he).mp hnone
    exact (hexact hbefore).step hinv he hnot
  have hloaded : Exact (loaded : State ι) := ⟨rfl, fun _ => ⟨rfl, rfl⟩, nofun⟩
  obtain ⟨⟨hinv, hexact⟩, hiff⟩ := holds_after_iff hJ
    (fun s e he hs hallowed hp => (noneLost_step_iff hs.1 he).mpr ⟨hp, hallowed⟩)
    (fun s e he hs hnot hp => hnot ((noneLost_step_iff hs.1 he).mp hp).2)
    (fun s e he hs hnot hp => hnot ((noneLost_step_iff hs.1 he).mp hp).1)
    ⟨inv_loaded, fun _ => hloaded⟩ (fun _ _ => rfl) es hes
  constructor
  · intro hback
    refine ⟨fun i => ?_, hiff.mp fun i _ => hback.pci i⟩
    cases hi : (reached cards es).bound i with
    | none => rfl
    | some priv =>
      exact absurd ((hinv.bound i priv hi).1.symm.trans (hback.pci i)) (taken_ne_free _)
  · rintro ⟨hbound, hnot⟩
    have hnone : NoneLost (reached cards es) := hiff.mpr hnot
    obtain ⟨hcdevs, hclass⟩ := hinv.idle hbound
    obtain ⟨hnumbers, hnodes⟩ := (hexact hnone).idle hbound
    exact ⟨(hexact hnone).oops, fun i => hnone i (hbound i), hnumbers, hcdevs, hnodes, hclass⟩

/-- After the second card's probe and the removal of the first card, not all is given back. -/
theorem given_back_iff_second_probe :
    ¬ AllGivenBack (reached twoCards [.probe false (granted 7), .probe true (nameTaken 8),
      .remove false]) := by
  intro hback
  have hset : SetsUp twoCards (reached twoCards [.probe false (granted 7)]) true (nameTaken 8) :=
    ⟨rfl, rfl, rfl, rfl, rfl⟩
  have hnot := ((given_back_iff _ (answered_second.snoc (abides_remove _ false))).mp hback).2
    [.probe false (granted 7)] _ [.remove false] rfl
  exact hnot ⟨true, nameTaken 8, rfl, hset, by decide⟩

end

end FpgaPartialReconfig.Driver.Cards
