/-
  Control bits and data bits of an island.

  The handler of a C record takes the strobes from bits 0 and 1 of one of its two places, by
  its X position; the handler of an I record takes the data from all bits of its first place
  and from bits 10 to 2 of the second. So the two bits of the second place are free, and those
  of the first are not. `keeps_apart_iff` says when the C record's place is not the I record's
  first one: on the east and west buses left of the mirror point, and on the north and south
  buses right of it.
-/
import FpgaPartialReconfig.SoftNoc.Top

namespace FpgaPartialReconfig.SoftNoc

/-- A bit of a lane, such as `north_in_reg[i][j][k]`. -/
structure LaneBit where
  busName : Side
  place : Nat × Nat
  bit : Nat
  deriving DecidableEq, Repr

def LaneBit.value (b : Buses) (l : LaneBit) : Bool := (b.lane l.busName l.place).getLsbD l.bit

namespace Record

/-- The inputs of the two strobe pipes. -/
def controlBits (c : Record) : List LaneBit :=
  [⟨c.busName, c.controlBus, 0⟩, ⟨c.busName, c.controlBus, 1⟩]

/-- The input of the data pipe, from bit 0 on: `bus1[10:2]` and above it `bus0[10:0]`. -/
def dataBits (i : Record) : List LaneBit :=
  (List.range 9).map (fun k => ⟨i.busName, i.bus1, k + 2⟩) ++
    (List.range 11).map (fun k => ⟨i.busName, i.bus0, k⟩)

theorem mem_dataBits {i : Record} {l : LaneBit} :
    l ∈ i.dataBits ↔ l.busName = i.busName ∧
      (l.place = i.bus1 ∧ 2 ≤ l.bit ∧ l.bit < 11 ∨ l.place = i.bus0 ∧ l.bit < 11) := by
  obtain ⟨busName, place, bit⟩ := l
  unfold dataBits
  rw [List.mem_append, List.mem_map, List.mem_map]
  simp only [List.mem_range, LaneBit.mk.injEq]
  constructor
  · intro h
    rcases h with ⟨k, hk, rfl, rfl, rfl⟩ | ⟨k, hk, rfl, rfl, rfl⟩
    · exact ⟨rfl, .inl ⟨rfl, by omega, by omega⟩⟩
    · exact ⟨rfl, .inr ⟨rfl, hk⟩⟩
  · intro h
    obtain ⟨rfl, ⟨rfl, hlow, hhigh⟩ | ⟨rfl, hhigh⟩⟩ := h
    · exact .inl ⟨bit - 2, by omega, rfl, rfl, by omega⟩
    · exact .inr ⟨bit, hhigh, rfl, rfl, rfl⟩

end Record

/-! ## They are what goes into the pipes -/

theorem strobes_eq_controlBits (p : Island) (b : Buses) :
    [p.strobe b, p.readStrobe b] = p.control.controlBits.map (LaneBit.value b) := rfl

theorem word_eq_dataBits (p : Island) (b : Buses) {k : Nat} (hk : k < 20) :
    some ((p.word b).getLsbD k) = (p.ingress.dataBits[k]?).map (LaneBit.value b) := by
  unfold Island.word Record.dataBits
  rw [BitVec.getLsbD_append, BitVec.getLsbD_extractLsb']
  by_cases hlow : k < 9
  · have hsecond : k < ((List.range 9).map (fun k => (⟨p.ingress.busName, p.ingress.bus1, k + 2⟩ :
        LaneBit))).length := by
      rw [List.length_map, List.length_range]
      exact hlow
    rw [List.getElem?_append_left hsecond]
    simp [hlow, LaneBit.value, Nat.add_comm]
  · have hhigh : k - 9 < 11 := by omega
    simp [hlow, hhigh, LaneBit.value, List.getElem?_append]

/-! ## Where they meet -/

/-- No lane bit is both a strobe and a data bit of the island. -/
def KeepsApart (c i : Record) : Prop := ∀ l ∈ c.controlBits, l ∉ i.dataBits

theorem keepsApart_iff_bus0 {c i : Record} (hname : c.busName = i.busName) :
    KeepsApart c i ↔ (c.controlBus ≠ i.bus0) := by
  constructor
  · intro hapart hmeet
    refine hapart ⟨c.busName, c.controlBus, 0⟩ List.mem_cons_self ?_
    rw [Record.mem_dataBits]
    exact ⟨hname, .inr ⟨hmeet, Nat.zero_lt_succ 10⟩⟩
  · intro hmeet l hl hdata
    obtain ⟨-, hplace⟩ := Record.mem_dataBits.mp hdata
    have hcontrol : l.place = c.controlBus ∧ l.bit < 2 := by
      rcases List.mem_cons.mp hl with rfl | hl
      · exact ⟨rfl, Nat.zero_lt_two⟩
      · rw [List.mem_singleton.mp hl]
        exact ⟨rfl, Nat.one_lt_two⟩
    rcases hplace with ⟨-, hbit, -⟩ | ⟨hbus, -⟩
    · omega
    · exact hmeet (hcontrol.1.symm.trans hbus)

/-! ## The forms of the input -/

/-- The place beside a place; the 40 places of a sector are followed by the next sector. -/
def beside (place : Nat × Nat) : Nat × Nat :=
  if place.2 + 1 < 40 then (place.1, place.2 + 1) else (place.1 + 1, 0)

theorem beside_ne (place : Nat × Nat) : beside place ≠ place := by
  obtain ⟨i, j⟩ := place
  unfold beside
  split <;> simp

/-- A control and its FIFO on the same two places, or on two and the next two. -/
inductive RecordForm (c i : Record) : Prop
  | eastWest (hside : c.busName = .E ∨ c.busName = .W) (hname : c.busName = i.busName)
      (hbus0 : c.bus0 = i.bus0) (hbus1 : c.bus1 = i.bus1) (hplaces : i.bus0 ≠ i.bus1)
  | northSouth (hside : c.busName = .N ∨ c.busName = .S) (hname : c.busName = i.busName)
      (hcontrol : c.bus1 = beside c.bus0) (hbus0 : i.bus0 = c.bus1)
      (hbus1 : i.bus1 = beside i.bus0)
  | mirrored (hside : c.busName = .N ∨ c.busName = .S) (hname : c.busName = i.busName)
      (hcontrol : c.bus0 = beside c.bus1) (hbus0 : i.bus0 = c.bus1)
      (hbus1 : i.bus0 = beside i.bus1)

namespace RecordForm

variable {c i : Record}

theorem controlBus_left (hcolumn : c.location.1 < Record.mirrorPoint) : c.controlBus = c.bus1 := by
  unfold Record.controlBus
  rw [if_pos hcolumn]

theorem controlBus_right (hcolumn : ¬ c.location.1 < Record.mirrorPoint) :
    c.controlBus = c.bus0 := by
  unfold Record.controlBus
  rw [if_neg hcolumn]

/-- Of the two places of the control, one is the FIFO's first place: the first one on the east
    and west buses, the second one on the others. -/
theorem bus0_or_bus1 (h : RecordForm c i) :
    c.busName = i.busName ∧
      ((c.busName = .E ∨ c.busName = .W) ∧ c.bus0 = i.bus0 ∧ c.bus1 ≠ i.bus0 ∨
        ¬ (c.busName = .E ∨ c.busName = .W) ∧ c.bus1 = i.bus0 ∧ c.bus0 ≠ i.bus0) := by
  have hother : c.busName = .N ∨ c.busName = .S → ¬ (c.busName = .E ∨ c.busName = .W) := by
    intro hside hvertical
    rcases hside with hside | hside <;> simp [hside] at hvertical
  cases h with
  | eastWest hside hname hbus0 hbus1 hplaces =>
    rw [hbus1]
    exact ⟨hname, .inl ⟨hside, hbus0, hplaces.symm⟩⟩
  | northSouth hside hname hcontrol hbus0 hbus1 =>
    rw [hbus0, hcontrol]
    exact ⟨hname, .inr ⟨hother hside, rfl, (beside_ne c.bus0).symm⟩⟩
  | mirrored hside hname hcontrol hbus0 hbus1 =>
    rw [hbus0, hcontrol]
    exact ⟨hname, .inr ⟨hother hside, rfl, beside_ne c.bus1⟩⟩

end RecordForm

/-! ## Both sides of the mirror point -/

/-- The control and the FIFO of an island of the input on the north buses at column 152, -/
def islandX153Y151 : Record × Record :=
  (⟨.C, (152, 151), .N, (1, 23), (1, 24), 0⟩, ⟨.I, (153, 151), .N, (1, 24), (1, 25), 0⟩)

/-- and those of another on the west buses at column 205. -/
def islandX206Y149 : Record × Record :=
  (⟨.C, (205, 149), .W, (2, 24), (2, 23), 3⟩, ⟨.I, (206, 149), .W, (2, 24), (2, 23), 4⟩)

theorem strobe_is_data :
    (islandX153Y151 ∈ islands records ∧ RecordForm islandX153Y151.1 islandX153Y151.2 ∧
        ¬ KeepsApart islandX153Y151.1 islandX153Y151.2) ∧
      (islandX206Y149 ∈ islands records ∧ RecordForm islandX206Y149.1 islandX206Y149.2 ∧
        ¬ KeepsApart islandX206Y149.1 islandX206Y149.2) := by
  refine ⟨⟨by decide +kernel, .northSouth (.inl rfl) rfl rfl rfl rfl, ?_⟩,
    ⟨by decide +kernel, .eastWest (.inr rfl) rfl rfl rfl (by decide), ?_⟩⟩
  · have hname : islandX153Y151.1.busName = islandX153Y151.2.busName := rfl
    rw [keepsApart_iff_bus0 hname]
    exact fun hapart => hapart rfl
  · have hname : islandX206Y149.1.busName = islandX206Y149.2.busName := rfl
    rw [keepsApart_iff_bus0 hname]
    exact fun hapart => hapart rfl

theorem keeps_apart_iff (c i : Record) (h : RecordForm c i) :
    KeepsApart c i ↔
      ((c.busName = .E ∨ c.busName = .W) ↔ c.location.1 < Record.mirrorPoint) := by
  obtain ⟨hname, hplaces⟩ := h.bus0_or_bus1
  rw [keepsApart_iff_bus0 hname]
  by_cases hcolumn : c.location.1 < Record.mirrorPoint
  · rw [RecordForm.controlBus_left hcolumn]
    rcases hplaces with ⟨hside, -, hapart⟩ | ⟨hside, hmeet, -⟩
    · exact iff_of_true hapart (iff_of_true hside hcolumn)
    · exact iff_of_false (fun hapart => hapart hmeet) (fun hiff => hside (hiff.mpr hcolumn))
  · rw [RecordForm.controlBus_right hcolumn]
    rcases hplaces with ⟨hside, hmeet, -⟩ | ⟨hside, -, hapart⟩
    · exact iff_of_false (fun hapart => hapart hmeet) (fun hiff => hcolumn (hiff.mp hside))
    · exact iff_of_true hapart (iff_of_false hside hcolumn)

/-- An island on the east buses left of the mirror point. -/
theorem keeps_apart_islandX104Y165 :
    KeepsApart ⟨.C, (105, 165), .E, (2, 40), (2, 39), 4⟩
      ⟨.I, (104, 165), .E, (2, 40), (2, 39), 4⟩ :=
  (keeps_apart_iff _ _ (.eastWest (.inl rfl) rfl rfl rfl (by decide))).mpr
    ⟨fun _ => by decide, fun _ => .inl rfl⟩

/-- The four controls in the corners have no first place of their own; all other islands of
    the input have one of the forms. -/
theorem recordForm_of_island (p : Island)
    (hcorner : p.control.location ∉ [(66, 147), (277, 117), (66, 97), (277, 69)]) :
    RecordForm p.control p.ingress := by
  have hall : ∀ q ∈ (controls records).zip (ingress records),
      q.1.location ∉ [(66, 147), (277, 117), (66, 97), (277, 69)] →
        q.1.busName = q.2.busName ∧
          ((q.1.busName = .E ∨ q.1.busName = .W) ∧ q.1.bus0 = q.2.bus0 ∧ q.1.bus1 = q.2.bus1 ∧
              q.2.bus0 ≠ q.2.bus1 ∨
            (q.1.busName = .N ∨ q.1.busName = .S) ∧ q.2.bus0 = q.1.bus1 ∧
              (q.1.bus1 = beside q.1.bus0 ∧ q.2.bus1 = beside q.2.bus0 ∨
                q.1.bus0 = beside q.1.bus1 ∧ q.2.bus0 = beside q.2.bus1)) := by
    decide +kernel
  have hmem : p.val ∈ (controls records).zip (ingress records) := by
    rw [← islands_records]
    exact p.property
  obtain ⟨hname, hform⟩ := hall p.val hmem hcorner
  rcases hform with ⟨hside, hbus0, hbus1, hplaces⟩ | ⟨hside, hbus0, hform⟩
  · exact .eastWest hside hname hbus0 hbus1 hplaces
  · rcases hform with ⟨hcontrol, hbus1⟩ | ⟨hcontrol, hbus1⟩
    · exact .northSouth hside hname hcontrol hbus0 hbus1
    · exact .mirrored hside hname hcontrol hbus0 hbus1

/-- Where they meet, the strobes are stored with the word. -/
theorem strobes_stored (p : Island)
    (hcorner : p.control.location ∉ [(66, 147), (277, 117), (66, 97), (277, 69)])
    (hmeet : ¬ KeepsApart p.control p.ingress) (b : Buses) :
    p.strobe b = (p.word b).getLsbD 9 ∧ p.readStrobe b = (p.word b).getLsbD 10 := by
  obtain ⟨hname, -⟩ := (recordForm_of_island p hcorner).bus0_or_bus1
  rw [keepsApart_iff_bus0 hname, not_not] at hmeet
  exact p.strobes_eq_bits hname hmeet b

end FpgaPartialReconfig.SoftNoc
