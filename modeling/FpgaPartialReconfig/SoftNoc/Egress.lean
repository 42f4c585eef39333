/-
  The egress islands of the generated top level.

  The read address of a control leads to the FIFO at its egress alias (`egressIslands`). The
  word that is read goes through a pipe of its own to the other side of the chip; the farther
  the island is from the edge where its strobes come in, the shorter the pipe. There it takes
  all eleven bits of its first place, and of the second place those above the strobes.

  In the input every egress FIFO has its control, and is a stage behind the ingress FIFO of
  that control (`egress_stage`). No place is assigned to by two islands (`driver_unique`).
-/
import FpgaPartialReconfig.SoftNoc.Top
import Mathlib.Data.List.Nodup

namespace FpgaPartialReconfig.SoftNoc

/-! ## `soft_noc_maker`, for the egress -/

/-- The pipe depths that `doit.sh` gives. -/
def verticalPipeDepth : Nat := 6

def horizontalPipeDepth : Nat := 6

namespace Record

/-- The location whose `incr_raddr` and `raddr` the control drives. -/
def egressAlias (c : Record) : Nat × Nat :=
  let aliasX := if c.location.1 < mirrorPoint then c.location.1 + 1 else c.location.1 - 1
  match c.busName with
  | .N => (aliasX, c.location.2 - 1)
  | .S => (aliasX, c.location.2 + 1)
  | .E => (c.location.1 - 1, c.location.2 - 1)
  | .W => (c.location.1 + 1, c.location.2 - 1)

/-- The stages count from where the strobes come in. -/
def egressPipeDepth (e : Record) : Nat :=
  match e.busName with
  | .N | .S => verticalPipeDepth - e.stage + 1
  | .E | .W => horizontalPipeDepth - e.stage + 1

/-- The side of the registers that the word is assigned to. -/
def outSide (e : Record) : Side :=
  match e.busName with
  | .N => .S
  | .S => .N
  | .E => .W
  | .W => .E

/-- The bit of the word that is assigned to bit `k` of a place. -/
def assigned (e : Record) (side : Side) (place : Nat × Nat) (k : Nat) : Option Nat :=
  if side ≠ e.outSide then none
  else if place = e.bus0 ∧ k ≤ 10 then some (k + 9)
  else if place = e.bus1 ∧ 2 ≤ k ∧ k ≤ 10 then some (k - 2)
  else none

/-- The places that the island assigns to. -/
def places (e : Record) : List (Side × (Nat × Nat)) := [(e.outSide, e.bus0), (e.outSide, e.bus1)]

theorem mem_places_of_assigned {e : Record} {side : Side} {place : Nat × Nat} {k j : Nat}
    (h : e.assigned side place k = some j) : (side, place) ∈ e.places := by
  unfold assigned at h
  split at h
  · cases h
  · rename_i hside
    rw [not_not.mp hside]
    split at h
    · rename_i hplace
      rw [hplace.1]
      exact List.mem_cons_self
    · split at h
      · rename_i hplace
        rw [hplace.1]
        exact List.mem_cons_of_mem _ List.mem_cons_self
      · cases h

end Record

def egress (records : List Record) : List Record := records.filter fun r => r.type = .E

/-- The egress FIFOs, each with the control that reads it and with that control's ingress. -/
def egressIslands (records : List Record) : List ((Record × Record) × Record) :=
  (egress records).filterMap fun e =>
    ((islands records).find? fun p => p.1.egressAlias = e.location).map fun p => (p, e)

theorem mem_egressIslands {records : List Record} {p : Record × Record} {e : Record} :
    (p, e) ∈ egressIslands records ↔
      e ∈ egress records ∧
        (islands records).find? (fun p => p.1.egressAlias = e.location) = some p := by
  unfold egressIslands
  rw [List.mem_filterMap]
  constructor
  · rintro ⟨e', he', hfound⟩
    obtain ⟨p', hp', hpair⟩ := Option.map_eq_some_iff.mp hfound
    cases hpair
    exact ⟨he', hp'⟩
  · rintro ⟨he, hp⟩
    exact ⟨e, he, by rw [hp]; rfl⟩

/-! ## Numbers that are all different, found in one pass -/

def distinct (seen : Nat) : List Nat → Bool
  | [] => true
  | k :: ks => !seen.testBit k && distinct (seen ||| 1 <<< k) ks

theorem nodup_of_distinct {seen : Nat} {ks : List Nat} (h : distinct seen ks = true) :
    ks.Nodup ∧ ∀ k ∈ ks, seen.testBit k = false := by
  induction ks generalizing seen with
  | nil => exact ⟨List.nodup_nil, nofun⟩
  | cons k ks ih =>
    unfold distinct at h
    rw [Bool.and_eq_true, Bool.not_eq_true'] at h
    obtain ⟨hnew, hrest⟩ := h
    obtain ⟨hnodup, hunseen⟩ := ih hrest
    have hafter : ∀ j ∈ ks, seen.testBit j = false ∧ k ≠ j := by
      intro j hj
      have hbit := hunseen j hj
      rw [Nat.testBit_or, Bool.or_eq_false_iff, Nat.one_shiftLeft, Nat.testBit_two_pow] at hbit
      exact ⟨hbit.1, of_decide_eq_false hbit.2⟩
    refine ⟨List.nodup_cons.mpr ⟨fun hmem => (hafter k hmem).2 rfl, hnodup⟩, ?_⟩
    intro j hj
    rcases List.mem_cons.mp hj with rfl | hj
    · exact hnew
    · exact (hafter j hj).1

/-! ## The input -/

/-- How far a control and its two FIFOs are from each other. -/
def InStep (p : Record × Record) (e : Record) : Prop :=
  e.stage ≤ 6 ∧ p.2.stage + 1 = e.stage ∧
    (p.1.stage = p.2.stage ∨ p.1.stage + 1 = p.2.stage)

instance (p : Record × Record) (e : Record) : Decidable (InStep p e) :=
  inferInstanceAs (Decidable (_ ∧ _))

/-- Locations compared by their numbers, the rows first. -/
theorem decide_location (a b : Nat × Nat) :
    decide (a = b) = (Nat.beq a.2 b.2 && Nat.beq a.1 b.1) := by
  rw [Bool.eq_iff_iff, decide_eq_true_iff, Bool.and_eq_true, Nat.beq_eq, Nat.beq_eq, Prod.ext_iff]
  exact And.comm

theorem egress_found : (egress records).all (fun e =>
    ((islands records).find? fun p => p.1.egressAlias = e.location).any (InStep · e)) = true := by
  rw [islands_records]
  simp only [decide_location]
  decide +kernel

/-- Every egress FIFO has its control. -/
theorem egress_paired {e : Record} (he : e ∈ egress records) :
    ∃ p, (p, e) ∈ egressIslands records := by
  have hfound := List.all_eq_true.mp egress_found e he
  obtain ⟨p, hp, -⟩ := (Option.any_eq_true _ _).mp hfound
  exact ⟨p, mem_egressIslands.mpr ⟨he, hp⟩⟩

theorem egress_inStep {p : Record × Record} {e : Record} (h : (p, e) ∈ egressIslands records) :
    InStep p e := by
  obtain ⟨he, hp⟩ := mem_egressIslands.mp h
  have hfound := List.all_eq_true.mp egress_found e he
  rw [hp] at hfound
  exact of_decide_eq_true hfound

def Side.number : Side → Nat
  | .N => 0
  | .S => 1
  | .E => 2
  | .W => 3

theorem nodup_places : ((egress records).flatMap Record.places).Nodup := by
  have hdistinct : distinct 0 (((egress records).flatMap Record.places).map fun q =>
      1024 * q.1.number + 64 * q.2.1 + q.2.2) = true := by decide +kernel
  exact (nodup_of_distinct hdistinct).1.of_map _

/-- A place is assigned to by one island. -/
theorem driver_unique {e e' : Record} (he : e ∈ egress records) (he' : e' ∈ egress records)
    {place : Side × (Nat × Nat)} (h : place ∈ e.places) (h' : place ∈ e'.places) : e = e' := by
  have hdisjoint := (List.nodup_flatMap.mp nodup_places).2
  by_contra hne
  have hsymm : Std.Symm (Function.onFun List.Disjoint Record.places) :=
    ⟨fun _ _ hab _ ha hb => hab hb ha⟩
  have hapart : e.places.Disjoint e'.places := hdisjoint.forall he he' hne
  exact hapart h h'

/-- The two places of an island are not the same. -/
theorem places_ne {e : Record} (he : e ∈ egress records) : e.bus0 ≠ e.bus1 := by
  have hplaces := (List.nodup_flatMap.mp nodup_places).1 e he
  intro hsame
  unfold Record.places at hplaces
  rw [hsame] at hplaces
  exact absurd hplaces (by simp)

end FpgaPartialReconfig.SoftNoc
