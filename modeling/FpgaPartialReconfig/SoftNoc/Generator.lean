/-
  `soft_noc_maker`: from the lines of its input to the ingress islands of the top level.

  A line gives the type of an island (C for the control, I for an ingress FIFO, E for an
  egress FIFO), its location, the two places on a bus and the pipe stage. Where a line has no
  first place, the script's `regexp` leaves the indices as they were after the line before
  (`scan`): so it is for the controls in the corners. The strobes of a control come from the
  one or the other of its two places, by the side of the chip.

  A control drives the wires of its alias, and an ingress FIFO is connected by name to the
  control whose alias is its location (`islands`).

  Left out: the names of the instances, and the constraints of the placement. What the script
  makes of the egress lines is in `Egress`.
-/
import Mathlib.Data.Nat.Bitwise

namespace FpgaPartialReconfig.SoftNoc

inductive Kind
  | C | I | E
  deriving DecidableEq, Repr

/-- The bus by the letter of the input: north, south, east or west. -/
inductive Side
  | N | S | E | W
  deriving DecidableEq, Repr

structure Line where
  type : Kind
  location : Nat × Nat
  busName : Side
  bus0 : Option (Nat × Nat)
  bus1 : Nat × Nat
  stage : Nat

/-- A line with all its fields, -/
def line (type : Kind) (x y : Nat) (busName : Side) (bus0 bus1 : Nat × Nat) (stage : Nat) : Line :=
  ⟨type, (x, y), busName, some bus0, bus1, stage⟩

/-- and one without the first place. -/
def cornerLine (type : Kind) (x y : Nat) (busName : Side) (bus1 : Nat × Nat) (stage : Nat) :
    Line :=
  ⟨type, (x, y), busName, none, bus1, stage⟩

/-- What the script has in its variables when it generates an island. -/
structure Record where
  type : Kind
  location : Nat × Nat
  busName : Side
  bus0 : Nat × Nat
  bus1 : Nat × Nat
  stage : Nat
  deriving DecidableEq, Repr

/-- The loop over the lines; `bus0` are the indices of the line before. -/
def scan (bus0 : Nat × Nat) : List Line → List Record
  | [] => []
  | l :: lines =>
    ⟨l.type, l.location, l.busName, l.bus0.getD bus0, l.bus1, l.stage⟩ ::
      scan (l.bus0.getD bus0) lines

namespace Record

def pipeDepth (r : Record) : Nat := r.stage + 1

def mirrorPoint : Nat := 172

def controlBus (c : Record) : Nat × Nat :=
  if c.location.1 < mirrorPoint then c.bus1 else c.bus0

/-- The location whose `incr_waddr` and `waddr` the control drives. -/
def positionalAlias (c : Record) : Nat × Nat :=
  match c.busName with
  | .N | .S =>
    (if c.location.1 < mirrorPoint then c.location.1 + 1 else c.location.1 - 1, c.location.2)
  | .E => (c.location.1 - 1, c.location.2)
  | .W => (c.location.1 + 1, c.location.2)

end Record

def controls (records : List Record) : List Record := records.filter fun r => r.type = .C

def ingress (records : List Record) : List Record := records.filter fun r => r.type = .I

/-- The pairs of a control and the ingress FIFO that its wires lead to. -/
def islands (records : List Record) : List (Record × Record) :=
  (ingress records).filterMap fun i =>
    ((controls records).find? fun c => c.positionalAlias = i.location).map fun c => (c, i)

/-! ## Controls in the order of their FIFOs -/

section
variable {A B K : Type} [DecidableEq K] {f : A → K} {g : B → K}

theorem find?_of_nodup {before after : List A} {a : A}
    (hnodup : ((before ++ a :: after).map f).Nodup) :
    (before ++ a :: after).find? (fun a' => f a' = f a) = some a := by
  rw [List.map_append, List.nodup_append] at hnodup
  obtain ⟨-, -, hdisjoint⟩ := hnodup
  have hbefore : before.find? (fun a' => f a' = f a) = none := by
    rw [List.find?_eq_none]
    intro a' ha'
    rw [decide_eq_true_iff]
    exact hdisjoint (f a') (List.mem_map_of_mem ha') (f a) (by simp)
  rw [List.find?_append, hbefore, List.find?_cons_of_pos (by simp)]
  rfl

/-- A lookup by key of one list in another that has the same keys in the same order. -/
theorem filterMap_find?_eq_zip {before as : List A} {bs : List B} (hkeys : as.map f = bs.map g)
    (hnodup : ((before ++ as).map f).Nodup) :
    bs.filterMap (fun b => ((before ++ as).find? fun a => f a = g b).map fun a => (a, b)) =
      as.zip bs := by
  induction as generalizing before bs with
  | nil =>
    have hbs : bs = [] := List.map_eq_nil_iff.mp hkeys.symm
    rw [hbs]
    rfl
  | cons a as ih =>
    cases bs with
    | nil => exact absurd hkeys (List.cons_ne_nil _ _)
    | cons b bs =>
      obtain ⟨hkey, hkeys⟩ := List.cons.inj hkeys
      have hfound := find?_of_nodup hnodup
      have hshift : before ++ a :: as = (before ++ [a]) ++ as := by simp
      rw [hkey] at hfound
      rw [List.filterMap_cons, hfound]
      rw [hshift] at hnodup ⊢
      exact congrArg (List.cons (a, b)) (ih hkeys hnodup)

end

theorem islands_eq_zip {records : List Record}
    (hkeys : (controls records).map Record.positionalAlias = (ingress records).map Record.location)
    (hnodup : ((ingress records).map Record.location).Nodup) :
    islands records = (controls records).zip (ingress records) := by
  have hnodup' : (([] ++ controls records).map Record.positionalAlias).Nodup := by
    rw [List.nil_append, hkeys]
    exact hnodup
  exact filterMap_find?_eq_zip hkeys hnodup'

end FpgaPartialReconfig.SoftNoc
