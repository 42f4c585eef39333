/-
  The rectangles of the PR region.

  The script scans the box column by column, from the bottom row to the top one. At an
  excluded tile it draws the rectangle from the lower left corner `llX llY` to the row below
  and closes it, at the next free tile it opens a new one; at the end of a column it draws a
  rectangle up to the top row. The closed rectangle of a column stays closed in the next one.

  The first column begins with an open rectangle, and the end of a column draws whether one is
  open or not. So the rectangles are exact only where the first tile of the box and its top row
  are free (`rectangles_exact_iff`).
-/
import FpgaPartialReconfig.Lib.ForLoop
import FpgaPartialReconfig.SoftNoc.Input

namespace FpgaPartialReconfig.SoftNoc

abbrev Tile := Int × Int

structure Rect where
  llX : Int
  llY : Int
  urX : Int
  urY : Int
  deriving DecidableEq, Repr

/-! ## The scan -/

/-- The variables of the scan, with the rectangles drawn so far. -/
structure Scan where
  newRectangle : Bool
  llX : Int
  llY : Int
  rects : List Rect
  deriving DecidableEq, Repr

section
variable (exclusionList : List Tile) (xStart yStart xEnd yEnd : Int)

def scanTile (x y : Int) (s : Scan) : Scan :=
  if (x, y) ∈ exclusionList ∧ s.newRectangle = true then
    -- blockage found, draw the rectangle
    { s with rects := s.rects ++ [⟨s.llX, s.llY, x, y - 1⟩], newRectangle := false }
  else if (x, y) ∉ exclusionList ∧ s.newRectangle = false then
    { s with newRectangle := true, llX := x, llY := y }
  else s

def scanRows (x : Int) (s : Scan) : Scan :=
  forLoop (scanTile exclusionList x) yStart yEnd { s with llX := x, llY := yStart }

def endColumn (x : Int) (s : Scan) : Scan :=
  { s with rects := s.rects ++ [⟨s.llX, s.llY, x, yEnd⟩], newRectangle := false }

def scanColumn (x : Int) (s : Scan) : Scan :=
  endColumn yEnd x (scanRows exclusionList yStart yEnd x s)

/-- A rectangle is open from the beginning; its corner is set with the first column. -/
def placeRegion : List Rect :=
  (forLoop (scanColumn exclusionList yStart yEnd) xStart xEnd ⟨true, 0, 0, []⟩).rects

end

/-- The locations of all islands are excluded from the region. -/
def exclusionList (records : List Record) : List Tile :=
  records.map fun r => (Int.ofNat r.location.1, Int.ofNat r.location.2)

/-! ## Exact rectangles -/

namespace Rect

def NonDegenerate (r : Rect) : Prop := r.llX ≤ r.urX ∧ r.llY ≤ r.urY

instance (r : Rect) : Decidable r.NonDegenerate :=
  inferInstanceAs (Decidable (_ ∧ _))

def Covers (r : Rect) (t : Tile) : Prop :=
  (r.llX ≤ t.1 ∧ t.1 ≤ r.urX) ∧ r.llY ≤ t.2 ∧ t.2 ≤ r.urY

end Rect

/-- The rectangles are all non-degenerate, and together they are the tiles with `P`. -/
structure Exact (P : Tile → Prop) (rects : List Rect) : Prop where
  nonDegenerate : ∀ r ∈ rects, r.NonDegenerate
  covers : ∀ t, (∃ r ∈ rects, r.Covers t) ↔ P t

theorem Exact.draw {P P' : Tile → Prop} {rects : List Rect} {r : Rect} (h : Exact P rects)
    (hr : r.NonDegenerate) (hcovers : ∀ t, P' t ↔ P t ∨ r.Covers t) :
    Exact P' (rects ++ [r]) := by
  constructor
  · intro r' hr'
    rcases List.mem_append.mp hr' with hr' | hr'
    · exact h.nonDegenerate r' hr'
    · rw [List.mem_singleton.mp hr']
      exact hr
  · intro t
    rw [hcovers, ← h.covers]
    constructor
    · intro hex
      obtain ⟨r', hr', hin⟩ := hex
      rcases List.mem_append.mp hr' with hr' | hr'
      · exact .inl ⟨r', hr', hin⟩
      · rw [List.mem_singleton.mp hr'] at hin
        exact .inr hin
    · intro hor
      rcases hor with ⟨r', hr', hin⟩ | hin
      · exact ⟨r', List.mem_append_left _ hr', hin⟩
      · exact ⟨r, List.mem_append_right _ List.mem_cons_self, hin⟩

theorem Exact.congr {P P' : Tile → Prop} {rects : List Rect} (h : Exact P rects)
    (heq : ∀ t, P' t ↔ P t) : Exact P' rects := by
  refine ⟨h.nonDegenerate, ?_⟩
  intro t
  rw [heq]
  exact h.covers t

/-- The tiles of the box that are not excluded. -/
def Region (exclusionList : List Tile) (xStart yStart xEnd yEnd : Int) (t : Tile) : Prop :=
  ((xStart ≤ t.1 ∧ t.1 ≤ xEnd) ∧ yStart ≤ t.2 ∧ t.2 ≤ yEnd) ∧ t ∉ exclusionList

/-! ## What is scanned is drawn -/

section
variable {exclusionList : List Tile} {xStart yStart xEnd yEnd : Int} {x y : Int} {s : Scan}

/-- The free tiles of the columns before `x` and of the rows below `y` in it. -/
def Scanned (exclusionList : List Tile) (xStart yStart yEnd x y : Int) (t : Tile) : Prop :=
  ((xStart ≤ t.1 ∧ (t.1 < x ∨ t.1 = x ∧ t.2 < y)) ∧ yStart ≤ t.2 ∧ t.2 ≤ yEnd) ∧
    t ∉ exclusionList

theorem scanned_excluded (hexcluded : (x, y) ∈ exclusionList) (t : Tile) :
    Scanned exclusionList xStart yStart yEnd x (y + 1) t ↔
      Scanned exclusionList xStart yStart yEnd x y t := by
  obtain ⟨tx, ty⟩ := t
  unfold Scanned
  constructor
  · intro h
    obtain ⟨⟨⟨hleft, hbefore⟩, hrows⟩, hfree⟩ := h
    have hother : ¬ (tx = x ∧ ty = y) := by
      intro hsame
      rw [hsame.1, hsame.2] at hfree
      exact hfree hexcluded
    refine ⟨⟨⟨hleft, ?_⟩, hrows⟩, hfree⟩
    simp only at hbefore ⊢
    omega
  · intro h
    obtain ⟨⟨⟨hleft, hbefore⟩, hrows⟩, hfree⟩ := h
    refine ⟨⟨⟨hleft, ?_⟩, hrows⟩, hfree⟩
    simp only at hbefore ⊢
    omega

/-- A rectangle over free rows of the column. -/
theorem scanned_draw {llY urY : Int} (hx : xStart ≤ x) (hlow : yStart ≤ llY) (hle : llY ≤ urY)
    (hhigh : urY ≤ yEnd) (hfree : ∀ y', llY ≤ y' → y' ≤ urY → (x, y') ∉ exclusionList) (t : Tile) :
    Scanned exclusionList xStart yStart yEnd x (urY + 1) t ↔
      Scanned exclusionList xStart yStart yEnd x llY t ∨ Rect.Covers ⟨x, llY, x, urY⟩ t := by
  obtain ⟨tx, ty⟩ := t
  unfold Scanned Rect.Covers
  simp only
  constructor
  · intro h
    obtain ⟨⟨⟨hleft, hbefore⟩, hrows⟩, htile⟩ := h
    by_cases hbelow : tx < x ∨ tx = x ∧ ty < llY
    · exact .inl ⟨⟨⟨hleft, hbelow⟩, hrows⟩, htile⟩
    · exact .inr (by omega)
  · intro h
    rcases h with ⟨⟨⟨hleft, hbefore⟩, hrows⟩, htile⟩ | hcovers
    · exact ⟨⟨⟨hleft, by omega⟩, hrows⟩, htile⟩
    · obtain ⟨hcolumn, hllY, hurY⟩ := hcovers
      have hx' : tx = x := by omega
      rw [hx']
      exact ⟨⟨⟨hx, .inr ⟨rfl, by omega⟩⟩, by omega, by omega⟩, hfree ty hllY hurY⟩

theorem scanned_column (t : Tile) :
    Scanned exclusionList xStart yStart yEnd (x + 1) yStart t ↔
      Scanned exclusionList xStart yStart yEnd x (yEnd + 1) t := by
  unfold Scanned
  constructor
  · intro h
    obtain ⟨⟨⟨hleft, hbefore⟩, hrows⟩, hfree⟩ := h
    exact ⟨⟨⟨hleft, by omega⟩, hrows⟩, hfree⟩
  · intro h
    obtain ⟨⟨⟨hleft, hbefore⟩, hrows⟩, hfree⟩ := h
    exact ⟨⟨⟨hleft, by omega⟩, hrows⟩, hfree⟩

/-- In column `x`, before row `y`: a rectangle is open, over free rows from its corner on, or
    none is and the row below is excluded. -/
inductive RowsDone (exclusionList : List Tile) (xStart yStart yEnd x y : Int) (s : Scan) : Prop
  | opened (hnew : s.newRectangle = true) (hllX : s.llX = x) (hllY : yStart ≤ s.llY)
      (hbelow : s.llY < y ∨ y = yStart ∧ s.llY = yStart ∧ (x, yStart) ∉ exclusionList)
      (hfree : ∀ y', s.llY ≤ y' → y' < y → (x, y') ∉ exclusionList)
      (hrects : Exact (Scanned exclusionList xStart yStart yEnd x s.llY) s.rects)
  | closed (hnew : s.newRectangle = false) (hbelow : y = yStart ∨ (x, y - 1) ∈ exclusionList)
      (hrects : Exact (Scanned exclusionList xStart yStart yEnd x y) s.rects)

theorem scanTile_draw (hexcluded : (x, y) ∈ exclusionList) (hnew : s.newRectangle = true) :
    scanTile exclusionList x y s =
      { s with rects := s.rects ++ [⟨s.llX, s.llY, x, y - 1⟩], newRectangle := false } := by
  unfold scanTile
  rw [if_pos ⟨hexcluded, hnew⟩]

theorem scanTile_open (hfree : (x, y) ∉ exclusionList) (hnew : s.newRectangle = false) :
    scanTile exclusionList x y s = { s with newRectangle := true, llX := x, llY := y } := by
  unfold scanTile
  rw [if_neg (fun h => hfree h.1), if_pos ⟨hfree, hnew⟩]

theorem scanTile_keep (h : (x, y) ∈ exclusionList ↔ s.newRectangle = false) :
    scanTile exclusionList x y s = s := by
  unfold scanTile
  rw [if_neg, if_neg]
  · intro hopen
    exact hopen.1 (h.mpr hopen.2)
  · intro hdraw
    have hnew := h.mp hdraw.1
    rw [hdraw.2] at hnew
    exact Bool.noConfusion hnew

theorem scanTile_rowsDone (hx : xStart ≤ x) (hlow : yStart ≤ y) (hhigh : y ≤ yEnd)
    (h : RowsDone exclusionList xStart yStart yEnd x y s) :
    RowsDone exclusionList xStart yStart yEnd x (y + 1) (scanTile exclusionList x y s) := by
  by_cases hexcluded : (x, y) ∈ exclusionList
  · cases h with
    | opened hnew hllX hllY hbelow hfree hrects =>
      have hbelow' : s.llY ≤ y - 1 := by
        rcases hbelow with hbelow | ⟨hfirst, -, hfirstFree⟩
        · omega
        · rw [hfirst] at hexcluded
          exact absurd hexcluded hfirstFree
      have hdrawn := scanned_draw hx hllY hbelow' (by omega : y - 1 ≤ yEnd)
        (fun y' hlow hhigh => hfree y' hlow (by omega))
      rw [Int.sub_add_cancel] at hdrawn
      rw [scanTile_draw hexcluded hnew, hllX]
      refine .closed rfl (.inr ?_) ?_
      · rw [Int.add_sub_cancel]
        exact hexcluded
      · exact (hrects.draw ⟨Int.le_refl x, hbelow'⟩ hdrawn).congr (scanned_excluded hexcluded)
    | closed hnew hbelow hrects =>
      rw [scanTile_keep (iff_of_true hexcluded hnew)]
      refine .closed hnew (.inr ?_) (hrects.congr (scanned_excluded hexcluded))
      rw [Int.add_sub_cancel]
      exact hexcluded
  · cases h with
    | opened hnew hllX hllY hbelow hfree hrects =>
      have hopen : ¬ s.newRectangle = false := by
        rw [hnew]
        exact Bool.noConfusion
      rw [scanTile_keep (iff_of_false hexcluded hopen)]
      refine .opened hnew hllX hllY (.inl (by omega)) ?_ hrects
      intro y' hlow hhigh
      by_cases hlast : y' = y
      · rw [hlast]
        exact hexcluded
      · exact hfree y' hlow (by omega)
    | closed hnew hbelow hrects =>
      rw [scanTile_open hexcluded hnew]
      refine .opened rfl rfl hlow (.inl ?_) ?_ hrects
      · exact Int.lt_succ y
      · intro y' hlow hhigh
        have hlast : y' = y := Int.le_antisymm (Int.lt_add_one_iff.mp hhigh) hlow
        rw [hlast]
        exact hexcluded

/-- Before column `x`; only in the first one a rectangle is open. -/
structure ColumnsDone (exclusionList : List Tile) (xStart yStart yEnd x : Int) (s : Scan) :
    Prop where
  first : s.newRectangle = true → x = xStart
  rects : Exact (Scanned exclusionList xStart yStart yEnd x yStart) s.rects

theorem scanColumn_columnsDone (hrows : yStart ≤ yEnd) (hx : xStart ≤ x)
    (hfirst : (xStart, yStart) ∉ exclusionList) (htop : (x, yEnd) ∉ exclusionList)
    (h : ColumnsDone exclusionList xStart yStart yEnd x s) :
    ColumnsDone exclusionList xStart yStart yEnd (x + 1)
      (scanColumn exclusionList yStart yEnd x s) := by
  have hstart : RowsDone exclusionList xStart yStart yEnd x yStart
      { s with llX := x, llY := yStart } := by
    cases hnew : s.newRectangle with
    | true =>
      have hcolumn := h.first hnew
      subst hcolumn
      refine .opened rfl rfl (Int.le_refl yStart) (.inr ⟨rfl, rfl, hfirst⟩) ?_ h.rects
      intro y' hlow hhigh
      exact absurd hhigh (Int.not_lt.mpr hlow)
    | false => exact .closed rfl (.inl rfl) h.rects
  have hend : RowsDone exclusionList xStart yStart yEnd x (yEnd + 1)
      (scanRows exclusionList yStart yEnd x s) := by
    refine forLoop_inv (by omega) ?_ hstart
    intro y s hlow hhigh
    exact scanTile_rowsDone hx hlow hhigh
  unfold scanColumn endColumn
  refine ⟨fun hnew => Bool.noConfusion hnew, ?_⟩
  cases hend with
  | opened hnew hllX hllY hbelow hfree hrects =>
    have hbelow' := hbelow.resolve_right (by omega)
    have hdrawn := scanned_draw hx hllY (Int.lt_add_one_iff.mp hbelow') (Int.le_refl yEnd)
      (fun y' hlow hhigh => hfree y' hlow (by omega))
    rw [hllX]
    exact (hrects.draw ⟨Int.le_refl x, Int.lt_add_one_iff.mp hbelow'⟩ hdrawn).congr scanned_column
  | closed hnew hbelow hrects =>
    rw [Int.add_sub_cancel] at hbelow
    exact absurd (hbelow.resolve_left (by omega)) htop

theorem placeRegion_exact (hcolumns : xStart ≤ xEnd) (hrows : yStart ≤ yEnd)
    (hfirst : (xStart, yStart) ∉ exclusionList)
    (htop : ∀ x, xStart ≤ x → x ≤ xEnd → (x, yEnd) ∉ exclusionList) :
    Exact (Region exclusionList xStart yStart xEnd yEnd)
      (placeRegion exclusionList xStart yStart xEnd yEnd) := by
  have hstart : ColumnsDone exclusionList xStart yStart yEnd xStart ⟨true, 0, 0, []⟩ := by
    refine ⟨fun _ => rfl, fun r hr => absurd hr List.not_mem_nil, fun t => ?_⟩
    unfold Scanned
    constructor
    · intro h
      obtain ⟨r, hr, -⟩ := h
      exact absurd hr List.not_mem_nil
    · intro h
      omega
  have hend : ColumnsDone exclusionList xStart yStart yEnd (xEnd + 1)
      (forLoop (scanColumn exclusionList yStart yEnd) xStart xEnd ⟨true, 0, 0, []⟩) := by
    refine forLoop_inv (by omega) ?_ hstart
    intro x s hleft hright
    exact scanColumn_columnsDone hrows hleft hfirst (htop x hleft hright)
  refine hend.rects.congr ?_
  intro t
  unfold Region Scanned
  constructor
  · intro h
    obtain ⟨⟨⟨hleft, hright⟩, hin⟩, hfree⟩ := h
    exact ⟨⟨⟨hleft, by omega⟩, hin⟩, hfree⟩
  · intro h
    obtain ⟨⟨⟨hleft, hright⟩, hin⟩, hfree⟩ := h
    exact ⟨⟨⟨hleft, by omega⟩, hin⟩, hfree⟩

/-! ## What is drawn stays -/

theorem scanTile_mem {r : Rect} (x y : Int) (s : Scan) (hr : r ∈ s.rects) :
    r ∈ (scanTile exclusionList x y s).rects := by
  unfold scanTile
  split
  · exact List.mem_append_left _ hr
  · split
    · exact hr
    · exact hr

theorem scanColumn_mem {r : Rect} (x : Int) (s : Scan) (hr : r ∈ s.rects) :
    r ∈ (scanColumn exclusionList yStart yEnd x s).rects := by
  have hrows : r ∈ (scanRows exclusionList yStart yEnd x s).rects :=
    forLoop_keeps (scanTile_mem x) hr
  exact List.mem_append_left _ hrows

/-- An excluded first tile: the rectangle below it is drawn, which has no row. -/
theorem first_free_of_exact (hcolumns : xStart ≤ xEnd) (hrows : yStart ≤ yEnd)
    (h : Exact (Region exclusionList xStart yStart xEnd yEnd)
      (placeRegion exclusionList xStart yStart xEnd yEnd)) :
    (xStart, yStart) ∉ exclusionList := by
  intro hexcluded
  have hrow : (⟨xStart, yStart, xStart, yStart - 1⟩ : Rect) ∈
      (scanRows exclusionList yStart yEnd xStart ⟨true, 0, 0, []⟩).rects := by
    unfold scanRows
    rw [forLoop_first _ hrows, scanTile_draw hexcluded rfl]
    exact forLoop_keeps (scanTile_mem xStart) List.mem_cons_self
  have hregion : (⟨xStart, yStart, xStart, yStart - 1⟩ : Rect) ∈
      placeRegion exclusionList xStart yStart xEnd yEnd := by
    unfold placeRegion
    rw [forLoop_first _ hcolumns]
    exact forLoop_keeps scanColumn_mem (List.mem_append_left _ hrow)
  obtain ⟨-, hheight⟩ := h.nonDegenerate _ hregion
  simp only at hheight
  omega

/-- The end of a column draws up to the top row, whatever is there. -/
theorem top_free_of_exact (hrows : yStart ≤ yEnd)
    (h : Exact (Region exclusionList xStart yStart xEnd yEnd)
      (placeRegion exclusionList xStart yStart xEnd yEnd))
    (x : Int) (hleft : xStart ≤ x) (hright : x ≤ xEnd) : (x, yEnd) ∉ exclusionList := by
  have hdrawn : ∃ r ∈ placeRegion exclusionList xStart yStart xEnd yEnd,
      r.urX = x ∧ r.urY = yEnd := by
    refine @forLoop_of_turn Scan (scanColumn exclusionList yStart yEnd) xStart xEnd
      (fun s => ∃ r ∈ s.rects, r.urX = x ∧ r.urY = yEnd) ?_ x hleft hright ?_ _
    · intro x' s hex
      obtain ⟨r, hr, hur⟩ := hex
      exact ⟨r, scanColumn_mem x' s hr, hur⟩
    · intro s
      exact ⟨_, List.mem_append_right _ List.mem_cons_self, rfl, rfl⟩
  obtain ⟨r, hr, rfl, rfl⟩ := hdrawn
  obtain ⟨hwidth, hheight⟩ := h.nonDegenerate r hr
  have hregion := (h.covers (r.urX, r.urY)).mp
    ⟨r, hr, ⟨hwidth, Int.le_refl r.urX⟩, hheight, Int.le_refl r.urY⟩
  exact hregion.2

end

/-! ## The boxes with exact rectangles -/

/-- The islands of the input in a box that ends with their top row, or starts at one of them. -/
theorem rectangles_not_exact :
    ¬ Exact (Region (exclusionList records) 64 44 279 165)
        (placeRegion (exclusionList records) 64 44 279 165) ∧
      ¬ Exact (Region (exclusionList records) 153 44 279 166)
        (placeRegion (exclusionList records) 153 44 279 166) := by
  constructor
  · intro hexact
    have hfree := top_free_of_exact (by decide) hexact 104 (by decide) (by decide)
    exact hfree (by decide +kernel)
  · intro hexact
    have hfree := first_free_of_exact (by decide) (by decide) hexact
    exact hfree (by decide +kernel)

theorem rectangles_exact_iff (exclusionList : List Tile) (xStart yStart xEnd yEnd : Int)
    (hcolumns : xStart ≤ xEnd) (hrows : yStart ≤ yEnd) :
    Exact (Region exclusionList xStart yStart xEnd yEnd)
        (placeRegion exclusionList xStart yStart xEnd yEnd) ↔
      (xStart, yStart) ∉ exclusionList ∧
        ∀ x, xStart ≤ x → x ≤ xEnd → (x, yEnd) ∉ exclusionList := by
  constructor
  · intro hexact
    exact ⟨first_free_of_exact hcolumns hrows hexact, top_free_of_exact hrows hexact⟩
  · intro hfree
    exact placeRegion_exact hcolumns hrows hfree.1 hfree.2

/-- The box that the script is called with. -/
theorem rectangles_exact_input :
    (64 : Int) ≤ 279 ∧ (44 : Int) ≤ 166 ∧
      Exact (Region (exclusionList records) 64 44 279 166)
        (placeRegion (exclusionList records) 64 44 279 166) := by
  refine ⟨by decide, by decide, ?_⟩
  refine (rectangles_exact_iff _ 64 44 279 166 (by decide) (by decide)).mpr ⟨?_, ?_⟩
  · decide +kernel
  · intro x _ _ hexcluded
    have hbelow : ∀ t ∈ exclusionList records, t.2 < 166 := by decide +kernel
    exact absurd (hbelow _ hexcluded) (Int.lt_irrefl 166)

end FpgaPartialReconfig.SoftNoc
