import Velacritty.SemanticSearch
import Velacritty.SpacerRuns

/-! When every vi motion returns, and stays in the grid. -/
namespace Velacritty
open Fallible

namespace Term
variable {t : Term} {p : Point} {i : Nat}

/-- The cells from a point down to the bottommost line are all wrapped. -/
def WrapsOut (t : Term) (p : Point) : Prop :=
  ∀ line, p.line ≤ line → line ≤ t.bottommostLine → t.isWrap ⟨line, p.column⟩ = some true

def BlankAfter (t : Term) (p : Point) : Prop :=
  ∀ column, p.column < column → column < t.columns → t.isSpace ⟨p.line, column⟩ = some true

/-- No motion leaves the grid: no cell in the first column is a spacer, no cell of the bottommost
line is a leading one, wrapped cells do not lead below that line from where a character ends, and
the viewport and its middle line are in the grid. -/
structure MotionSafe (t : Term) : Prop where
  spacer : t.grid.FirstColumnClear
  leading : ∀ column cell, t.grid.cellAt ⟨t.bottommostLine, column⟩ = some cell →
    cell.flags.leadingWideCharSpacer = false
  wrap : ∀ p q, t.InGrid p → t.expandWide p .right = some q →
    q.line = t.bottommostLine ∨ t.BlankAfter q → ¬ t.WrapsOut q
  viewport : t.grid.displayOffset ≤ t.grid.historySize
  middle : 2 ≤ t.screenLines ∨ t.grid.displayOffset < t.grid.historySize

/-! ### Cells -/

theorem isSpace_returns (ht : t.WF) (hp : t.InGrid p) : Returns (t.isSpace p) fun _ => True := by
  obtain ⟨cell, hcell⟩ := cellAt_inGrid ht hp
  unfold isSpace
  rw [hcell]
  exact .pure trivial

theorem isNotSpace_returns (ht : t.WF) (hp : t.InGrid p) :
    Returns (t.isNotSpace p) fun _ => True :=
  (isSpace_returns ht hp).bind fun _ _ => .pure trivial

theorem expandWide_left_returns (ht : t.WF) (h : t.grid.FirstColumnClear) (hp : t.InGrid p) :
    Returns (t.expandWide p .left) t.InGrid := by
  obtain ⟨cell, hcell⟩ := cellAt_inGrid ht hp
  have hallows := expandWide_left ht.grid hp
  unfold expandWide at hallows ⊢
  rw [hcell] at hallows ⊢
  simp only [Option.bind_eq_bind, Option.bind_some] at hallows ⊢
  split
  · next hwide =>
      rw [if_pos hwide] at hallows
      have hcolumn : ∃ column, (if cell.flags.wideCharSpacer then usub p.column 1
          else some p.column) = some column := by
        split
        · next hspacer =>
            have hne : p.column ≠ 0 := by
              intro hzero
              have hfirst : p = ⟨p.line, 0⟩ := by rw [← hzero]
              rw [hfirst] at hcell
              rw [h p.line cell hcell] at hspacer
              exact nomatch hspacer
            exact ⟨_, usub_of_le (by omega)⟩
        · exact ⟨_, rfl⟩
      obtain ⟨column, hcolumn⟩ := hcolumn
      obtain ⟨prevCell, hprev⟩ := cellAt_inGrid ht (advance_inGrid ht.grid { p with column } .left)
      have hprev : t.grid.cellAt (Point.sub { p with column } t.dims .grid 1) = some prevCell := hprev
      rw [hcolumn] at hallows ⊢
      simp only [Option.bind_some, hprev] at hallows ⊢
      exact .pure (hallows _ rfl)
  · exact .pure hp

theorem expandWide_right_returns (ht : t.WF)
    (h : ∀ column cell, t.grid.cellAt ⟨t.bottommostLine, column⟩ = some cell →
      cell.flags.leadingWideCharSpacer = false) (hp : t.InGrid p) :
    Returns (t.expandWide p .right) t.InGrid := by
  obtain ⟨cell, hcell⟩ := cellAt_inGrid ht hp
  have hlast := lastColumn_lt ht.grid
  obtain ⟨hlo, hhi, hcolumn⟩ := hp
  unfold expandWide
  rw [hcell]
  simp only [Option.bind_eq_bind, Option.bind_some]
  split
  · next hleading =>
      have hne : p.line ≠ t.bottommostLine := by
        intro heq
        have hbottom : p = ⟨t.bottommostLine, p.column⟩ := by rw [← heq]
        rw [hbottom] at hcell
        rw [h p.column cell hcell] at hleading
        exact nomatch hleading
      exact .pure ⟨by simp only; omega, by simp only; omega, ht.two_le⟩
  · split
    · exact .pure ⟨hlo, hhi, Nat.lt_of_le_of_lt (Nat.min_le_right ..) hlast⟩
    · exact .pure ⟨hlo, hhi, hcolumn⟩

/-! ### Lines -/

/-- The first column of a cell that is no blank. -/
theorem findOccupied_returns (ht : t.WF) {line : Int} (hlo : t.topmostLine ≤ line)
    (hhi : line ≤ t.bottommostLine) (columns : List Nat)
    (hcolumns : ∀ column ∈ columns, column < t.columns) :
    Returns (t.findOccupied line columns) fun r =>
      (r = none ∧ ∀ column ∈ columns, t.isSpace ⟨line, column⟩ = some true) ∨
        ∃ before column after, columns = before ++ column :: after ∧ r = some ⟨line, column⟩ ∧
          t.isSpace ⟨line, column⟩ = some false ∧
          ∀ column ∈ before, t.isSpace ⟨line, column⟩ = some true := by
  induction columns with
  | nil => exact .pure (.inl ⟨rfl, fun column hmem => nomatch hmem⟩)
  | cons first rest ih =>
      obtain ⟨space, hspace, -⟩ := isSpace_returns ht
        (show t.InGrid ⟨line, first⟩ from ⟨hlo, hhi, hcolumns first List.mem_cons_self⟩)
      unfold findOccupied
      rw [hspace]
      simp only [Option.bind_eq_bind, Option.bind_some]
      cases space with
      | false => exact .pure (.inr ⟨[], first, rest, rfl, rfl, hspace, fun c hmem => nomatch hmem⟩)
      | true =>
          refine (ih fun c hc => hcolumns c (List.mem_cons_of_mem _ hc)).mono fun r hr => ?_
          rcases hr with ⟨hnone, hblank⟩ | ⟨before, column, after, heq, hr, hfound, hblank⟩
          · refine .inl ⟨hnone, fun c hmem => ?_⟩
            rcases List.mem_cons.mp hmem with rfl | hmem
            · exact hspace
            · exact hblank c hmem
          · refine .inr ⟨first :: before, column, after, by rw [heq, List.cons_append], hr, hfound,
              fun c hmem => ?_⟩
            rcases List.mem_cons.mp hmem with rfl | hmem
            · exact hspace
            · exact hblank c hmem

theorem lastOccupiedInLine_le (ht : t.WF) {line : Int} (hlo : t.topmostLine ≤ line)
    (hhi : line ≤ t.bottommostLine) (column : Nat) :
    Returns (t.lastOccupiedInLine line) fun r =>
      (r.getD default).column ≤ column ↔ t.BlankAfter ⟨line, column⟩ := by
  refine (findOccupied_returns ht hlo hhi (List.range t.columns).reverse fun c hc =>
    List.mem_range.mp (List.mem_reverse.mp hc)).mono fun r hr => ?_
  rcases hr with ⟨rfl, hblank⟩ | ⟨before, last, after, heq, rfl, hfound, hblank⟩
  · constructor
    · intro _ c _ hc
      exact hblank c (List.mem_reverse.mpr (List.mem_range.mpr hc))
    · exact fun _ => Nat.zero_le _
  · have hsorted : (before ++ last :: after).Pairwise (· > ·) := by
      rw [← heq, List.pairwise_reverse]
      exact List.pairwise_lt_range
    obtain ⟨-, hafter, -⟩ := List.pairwise_append.mp hsorted
    have hmem (c : Nat) : c < t.columns ↔ c ∈ before ∨ c = last ∨ c ∈ after := by
      rw [← List.mem_range, ← List.mem_reverse, heq, List.mem_append, List.mem_cons]
    constructor
    · intro hle c hlt hc
      have hle : last ≤ column := hle
      rcases (hmem c).mp hc with hbefore | rfl | hin
      · exact hblank c hbefore
      · exact absurd hle (Nat.not_le.mpr hlt)
      · have hgt := (List.pairwise_cons.mp hafter).1 c hin
        have hlt : column < c := hlt
        omega
    · intro hall
      refine Nat.le_of_not_lt fun hlt => ?_
      have hspace := hall last hlt ((hmem last).mpr (.inr (.inl rfl)))
      exact nomatch hfound.symm.trans hspace

theorem findOccupied_inGrid_returns (ht : t.WF) {line : Int} (hlo : t.topmostLine ≤ line)
    (hhi : line ≤ t.bottommostLine) (columns : List Nat)
    (hcolumns : ∀ column ∈ columns, column < t.columns) :
    Returns (t.findOccupied line columns) fun r => ∀ q, r = some q → t.InGrid q ∧ q.line = line := by
  obtain ⟨r, hr, -⟩ := findOccupied_returns ht hlo hhi columns hcolumns
  exact ⟨r, hr, (findOccupied_inGrid ht.grid line columns r hr).1⟩

theorem firstOccupiedInLine_returns (ht : t.WF) {line : Int} (hlo : t.topmostLine ≤ line)
    (hhi : line ≤ t.bottommostLine) :
    Returns (t.firstOccupiedInLine line) fun r => ∀ q, r = some q → t.InGrid q ∧ q.line = line :=
  findOccupied_inGrid_returns ht hlo hhi _ fun _ hc => List.mem_range.mp hc

theorem lastOccupiedInLine_returns (ht : t.WF) {line : Int} (hlo : t.topmostLine ≤ line)
    (hhi : line ≤ t.bottommostLine) :
    Returns (t.lastOccupiedInLine line) fun r => ∀ q, r = some q → t.InGrid q ∧ q.line = line :=
  findOccupied_inGrid_returns ht hlo hhi _ fun _ hc => List.mem_range.mp (List.mem_reverse.mp hc)

theorem firstOccupiedInLine_inGrid_line (ht : t.WF) {line : Int} {r : Option Point}
    (h : t.firstOccupiedInLine line = some r) : t.topmostLine ≤ line ∧ line ≤ t.bottommostLine :=
  have hline := (firstOccupiedInLine_inGrid ht.grid line r h).2
  ⟨hline.1, hline.2.1⟩

theorem dropUntilClear_returns (ht : t.WF) (clear : Bool) (lines : List Int)
    (hlines : ∀ line ∈ lines, t.topmostLine ≤ line ∧ line ≤ t.bottommostLine) :
    Returns (t.dropUntilClear clear lines) fun r => ∀ line ∈ r, line ∈ lines := by
  induction lines with
  | nil => exact .pure fun _ => id
  | cons line lines ih =>
      obtain ⟨hlo, hhi⟩ := hlines line List.mem_cons_self
      have hbottom : t.bottommostLine = (t.grid.lines : Int) - 1 := rfl
      obtain ⟨row, hrow, -⟩ := Storage.get_returns ht.grid.raw (ht.grid.hasLine hlo (by omega))
      unfold dropUntilClear
      rw [hrow]
      simp only [Option.bind_eq_bind, Option.bind_some]
      split
      · exact .pure fun _ => id
      · exact (ih fun l hl => hlines l (List.mem_cons_of_mem _ hl)).mono
          fun r hr l hl => List.mem_cons_of_mem _ (hr l hl)

/-! ### Searches -/

theorem isBoundary_right_iff (ht : t.WF) (hi : i < t.dims.cells) :
    t.isBoundary (t.dims.point i) .right = true ↔ i + 1 = t.dims.cells := by
  have hvalid : t.dims.Valid := ht.grid.valid
  have hpos := hvalid.cells_pos
  have hlast := Dimensions.point_last hvalid
  have hcolumn : (t.dims.point i).column < t.columns := (Dimensions.point_has hvalid hi).2.2
  simp only [isBoundary, decide_eq_true_eq]
  constructor
  · rintro ⟨hline, hcolumn'⟩
    have heq : t.dims.point i = t.dims.point (t.dims.cells - 1) := by
      rw [hlast, Point.eq_iff]
      exact ⟨hline, Nat.le_antisymm (Nat.le_sub_one_of_lt hcolumn) (Nat.sub_le_of_le_add hcolumn')⟩
    have hindex := t.dims.point_injective heq
    omega
  · intro heq
    obtain rfl : i = t.dims.cells - 1 := by omega
    rw [hlast] at hcolumn ⊢
    have hlt : t.dims.lastColumn < t.columns := hcolumn
    exact ⟨rfl, Nat.le_add_of_sub_le (Nat.le_refl _)⟩

theorem isBoundary_left_iff (ht : t.WF) (hi : i < t.dims.cells) :
    t.isBoundary (t.dims.point i) .left = true ↔ i = 0 := by
  have hvalid : t.dims.Valid := ht.grid.valid
  have htop : t.topmostLine ≤ (t.dims.point i).line := (Dimensions.point_has hvalid hi).1
  simp only [isBoundary, decide_eq_true_eq]
  constructor
  · rintro ⟨hline, hcolumn⟩
    have heq : t.dims.point i = t.dims.point 0 := by
      rw [Dimensions.point_zero, Point.eq_iff]
      exact ⟨Int.le_antisymm hline htop, hcolumn⟩
    exact t.dims.point_injective heq
  · rintro rfl
    rw [Dimensions.point_zero]
    exact ⟨Int.le_refl _, rfl⟩

/-- The number of cells up to the boundary. -/
def cellsTo (t : Term) (direction : Side) (p : Point) : Nat :=
  match direction with
  | .right => t.dims.cells - t.dims.index p
  | .left => t.dims.index p

/-- Away from the boundary, an advance comes nearer to it. -/
theorem cellsTo_advance (ht : t.WF) (direction : Side) (hp : t.InGrid p)
    (hboundary : ¬ t.isBoundary p direction = true) :
    t.cellsTo direction (t.advance p direction) < t.cellsTo direction p := by
  have hvalid : t.dims.Valid := ht.grid.valid
  obtain ⟨i, hi, rfl⟩ := InGrid.exists_index ht.grid hp
  unfold advance cellsTo
  cases direction with
  | right =>
      rw [isBoundary_right_iff ht hi] at hboundary
      simp only [Dimensions.add_grid hvalid, Dimensions.index_point]
      omega
  | left =>
      rw [isBoundary_left_iff ht hi] at hboundary
      simp only [Dimensions.sub_grid hvalid hi, Dimensions.index_point]
      omega

theorem cellsTo_lt (ht : t.WF) (direction : Side) (hp : t.InGrid p) :
    t.cellsTo direction p < t.searchFuel := by
  have hvalid : t.dims.Valid := ht.grid.valid
  have hlt := Dimensions.index_lt hvalid hp
  rw [searchFuel_eq]
  unfold cellsTo
  cases direction with
  | right =>
      simp only
      omega
  | left =>
      simp only
      omega

theorem advanceWhile_returns (ht : t.WF) (direction : Side) {f : Point → Option Bool}
    (hf : ∀ q, t.InGrid q → Returns (f q) fun _ => True) (hp : t.InGrid p) :
    Returns (t.advanceWhile direction f p) t.InGrid := by
  refine loop_returns (t.cellsTo direction) hp (cellsTo_lt ht direction hp) fun q hq => ?_
  split
  · exact .pure hq
  · next hboundary =>
      refine (hf _ (advance_inGrid ht.grid q direction)).bind fun go _ => .pure ?_
      split
      · exact ⟨advance_inGrid ht.grid q direction, cellsTo_advance ht direction hq hboundary⟩
      · exact hq

theorem advancePast_returns (ht : t.WF) (direction : Side) {f : Point → Option Bool}
    (hf : ∀ q, t.InGrid q → Returns (f q) fun _ => True) (hp : t.InGrid p) :
    Returns (t.advancePast direction f p) t.InGrid := by
  refine loop_returns (t.cellsTo direction) hp (cellsTo_lt ht direction hp) fun q hq => ?_
  split
  · exact .pure hq
  · next hboundary =>
      refine (hf q hq).bind fun go _ => .pure ?_
      split
      · exact ⟨advance_inGrid ht.grid q direction, cellsTo_advance ht direction hq hboundary⟩
      · exact hq

theorem expandSemantic_returns (ht : t.WF) (direction : Side) (hp : t.InGrid p) :
    Returns (t.expandSemantic direction p) t.InGrid := by
  obtain ⟨cell, hcell⟩ := cellAt_inGrid ht hp
  obtain ⟨i, hi, rfl⟩ := InGrid.exists_index ht.grid hp
  unfold expandSemantic
  rw [hcell]
  simp only [Option.bind_eq_bind, Option.bind_some]
  split
  · exact .pure hp
  · cases direction with
    | left =>
        refine (semanticSearchLeft_returns ht.grid hi).mono fun q ⟨s, hs, hq, _⟩ => ?_
        exact hq ▸ Dimensions.point_has ht.grid.valid hs
    | right =>
        refine (semanticSearchRight_returns ht.grid hi).mono fun q ⟨s, hs, hq, _⟩ => ?_
        exact hq ▸ Dimensions.point_has ht.grid.valid hs

/-! ### Motions -/

theorem MotionSafe.expandWide (h : t.MotionSafe) (ht : t.WF) (direction : Side) (hp : t.InGrid p) :
    Returns (t.expandWide p direction) t.InGrid := by
  cases direction with
  | left => exact expandWide_left_returns ht h.spacer hp
  | right => exact expandWide_right_returns ht h.leading hp

theorem MotionSafe.last (h : t.MotionSafe) (ht : t.WF) :
    t.isWrap ⟨t.bottommostLine, t.lastColumn⟩ ≠ some true := by
  intro hwrap
  have hlast := lastColumn_lt ht.grid
  have hin := inGrid_of_isWrap ht.grid hwrap
  obtain ⟨cell, hcell⟩ := cellAt_inGrid ht hin
  have hexpand : t.expandWide ⟨t.bottommostLine, t.lastColumn⟩ .right =
      some ⟨t.bottommostLine, t.lastColumn⟩ := by
    unfold Term.expandWide
    rw [hcell]
    simp only [Option.bind_eq_bind, Option.bind_some, h.leading _ cell hcell, Bool.false_eq_true,
      if_false]
    split
    · rw [Nat.min_eq_right (Nat.le_succ _)]
    · rfl
  refine h.wrap _ _ hin hexpand (.inl rfl) fun line hlo hhi => ?_
  have hlo : t.bottommostLine ≤ line := hlo
  obtain rfl : line = t.bottommostLine := by omega
  exact hwrap

theorem semanticMotion_returns (ht : t.WF) (h : t.MotionSafe) (hp : t.InGrid p)
    (direction side : Side) : Returns (t.semanticMotion p direction side) t.InGrid := by
  refine Returns.bind (P := t.InGrid) ?_ fun p₁ hp₁ => ?_
  · split
    · exact expandSemantic_returns ht direction hp
    · exact .pure hp
  refine (h.expandWide ht direction hp₁).bind fun p₂ hp₂ => ?_
  refine (advanceWhile_returns ht direction (fun q hq => isSpace_returns ht hq) hp₂).bind
    fun p₃ hp₃ => ?_
  refine Returns.bind (P := t.InGrid) ?_ fun p₄ hp₄ => ?_
  · split
    · exact .pure hp₃
    · cases direction with
      | left => exact h.expandWide ht .left (advance_inGrid ht.grid p₃ .left)
      | right => exact .pure (advance_inGrid ht.grid p₃ .right)
  split
  · exact expandSemantic_returns ht direction hp₄
  · exact .pure hp₄

theorem wordMotion_returns (ht : t.WF) (h : t.MotionSafe) (hp : t.InGrid p) (direction side : Side) :
    Returns (t.wordMotion p direction side) t.InGrid := by
  have hspace (q : Point) (hq : t.InGrid q) := isSpace_returns ht hq
  have hnot (q : Point) (hq : t.InGrid q) := isNotSpace_returns ht hq
  refine (h.expandWide ht direction hp).bind fun p₁ hp₁ => ?_
  split
  · exact (advanceWhile_returns ht direction hspace hp₁).bind fun p₂ hp₂ =>
      advanceWhile_returns ht direction hnot hp₂
  · exact (advancePast_returns ht direction hnot hp₁).bind fun p₂ hp₂ =>
      advancePast_returns ht direction hspace hp₂

/-- Down the wrapped cells of a column, to the first one that is not. -/
theorem lastMotion_returns (ht : t.WF) (h : t.MotionSafe) (hp : t.InGrid p) :
    Returns (t.lastMotion p) t.InGrid := by
  have hlast := lastColumn_lt ht.grid
  have htotal := bottommost_eq ht
  obtain ⟨q, hq, hin⟩ := h.expandWide ht .right hp
  obtain ⟨hlo, hhi, hcolumn⟩ := hin
  obtain ⟨occupied, hoccupied, hblank⟩ := lastOccupiedInLine_le ht hlo hhi q.column
  have hfound := (lastOccupiedInLine_returns ht hlo hhi).of_eq hoccupied
  obtain ⟨wrap, hwrap, -⟩ := isWrap_returns ht (p := q) ⟨hlo, hhi, hcolumn⟩
  unfold lastMotion
  rw [hq]
  simp only [Option.bind_eq_bind, Option.bind_some, hoccupied, hwrap]
  split
  · refine .pure ?_
    cases occupied with
    | none => exact ⟨topmostLine_le_zero ht.grid, bottommostLine_nonneg ht.grid, ht.grid.columns_pos⟩
    | some o => exact (hfound o rfl).1
  · next hbehind =>
      have hout := h.wrap p q hp hq (.inr (hblank.mp (Nat.not_lt.mp hbehind)))
      split
      · refine Returns.bind (P := t.InGrid) ?_ fun p₂ hp₂ => ?_
        · refine loop_returns (fun r => (t.bottommostLine - r.line).toNat)
            (P := fun r : Point => r.column = q.column ∧ q.line ≤ r.line ∧
              r.line ≤ t.bottommostLine ∧
              ∀ line, q.line ≤ line → line < r.line → t.isWrap ⟨line, q.column⟩ = some true)
            ⟨rfl, Int.le_refl _, hhi, fun line hlo hlt => absurd hlo (by omega)⟩ (by omega) ?_
          rintro ⟨line, column⟩ ⟨rfl, hle, hbottom, habove⟩
          simp only at hle hbottom habove
          have hin : t.InGrid ⟨line, q.column⟩ := ⟨Int.le_trans hlo hle, hbottom, hcolumn⟩
          obtain ⟨wrap', hwrap', -⟩ := isWrap_returns ht hin
          simp only [hwrap', Option.bind_some]
          cases wrap' with
          | false => exact .pure hin
          | true =>
              have hupto (l : Int) (hl : q.line ≤ l) (hl' : l < line + 1) :
                  t.isWrap ⟨l, q.column⟩ = some true := by
                by_cases heq : l = line
                · rw [heq]
                  exact hwrap'
                · exact habove l hl (by omega)
              have hnext : line + 1 ≤ t.bottommostLine := by
                refine Int.add_one_le_of_lt (Int.lt_iff_le_and_ne.mpr ⟨hbottom, fun heq => ?_⟩)
                exact hout fun l hl hl' => hupto l hl (by omega)
              exact .pure ⟨⟨rfl, by simp only; omega, hnext, hupto⟩, by simp only; omega⟩
        · refine (lastOccupiedInLine_returns ht hp₂.1 hp₂.2.1).bind fun occupied hfound => .pure ?_
          cases occupied with
          | none => exact hp₂
          | some o => exact (hfound o rfl).1
      · exact .pure ⟨hlo, hhi, hlast⟩

theorem wrappedOccupied_returns (ht : t.WF) (lines : List Int)
    (hlines : ∀ line ∈ lines, t.topmostLine ≤ line ∧ line ≤ t.bottommostLine)
    (occupied : Option Point) : (t.wrappedOccupied lines occupied).isSome := by
  induction lines generalizing occupied with
  | nil => rfl
  | cons line lines ih =>
      obtain ⟨hlo, hhi⟩ := hlines line List.mem_cons_self
      obtain ⟨wrap, hwrap, -⟩ := isWrap_returns ht (p := ⟨line, t.lastColumn⟩)
        ⟨hlo, hhi, lastColumn_lt ht.grid⟩
      obtain ⟨first, hfirst, -⟩ := firstOccupiedInLine_returns ht hlo hhi
      unfold wrappedOccupied
      simp only [hwrap, hfirst, Option.bind_eq_bind, Option.bind_some]
      split
      · exact ih (fun l hl => hlines l (List.mem_cons_of_mem _ hl)) _
      · rfl

/-- Down the wrapped lines, to the first one that is not blank. -/
theorem firstOccupiedMotion_returns (ht : t.WF) (h : t.MotionSafe) (hp : t.InGrid p) :
    Returns (t.firstOccupiedMotion p) t.InGrid := by
  have hlast := lastColumn_lt ht.grid
  have htotal := bottommost_eq ht
  obtain ⟨q, hq, hin⟩ := h.expandWide ht .left hp
  obtain ⟨first, hfirst, hfound⟩ := firstOccupiedInLine_returns ht hin.1 hin.2.1
  have hallows := firstOccupiedMotion_inGrid ht.grid hp
  refine ReturnsIf.returns ⟨fun _ => ?_, hallows⟩ trivial
  unfold firstOccupiedMotion
  rw [hq]
  simp only [Option.bind_eq_bind, Option.bind_some, hfirst]
  split
  · have habove (line : Int) (hline : line ∈ (lineRange t.topmostLine q.line).reverse) :
        t.topmostLine ≤ line ∧ line ≤ t.bottommostLine := by
      rw [List.mem_reverse, mem_lineRange] at hline
      exact ⟨hline.1, Int.le_trans (Int.le_of_lt hline.2) hin.2.1⟩
    obtain ⟨occupied, hoccupied⟩ := Option.isSome_iff_exists.mp
      (wrappedOccupied_returns ht _ habove none)
    rw [hoccupied]
    simp only [Option.bind_some]
    cases occupied with
    | some o => rfl
    | none =>
        refine Returns.isSome (P := fun _ => True) (loop_returns
          (fun line => (t.bottommostLine - line).toNat)
          (P := fun line : Int => t.topmostLine ≤ line ∧ line ≤ t.bottommostLine) ⟨hin.1, hin.2.1⟩
          (by have := hin.1; have := hin.2.1; omega) fun line hline => ?_)
        obtain ⟨found, hfound, -⟩ := firstOccupiedInLine_returns ht hline.1 hline.2
        obtain ⟨wrap, hwrap, -⟩ := isWrap_returns ht (p := ⟨line, t.lastColumn⟩)
          ⟨hline.1, hline.2, hlast⟩
        simp only [hfound, hwrap, Option.bind_some]
        cases found with
        | some o => exact .pure trivial
        | none =>
            cases wrap with
            | false => exact .pure trivial
            | true =>
                have hnext : line + 1 ≤ t.bottommostLine := by
                  refine Int.add_one_le_of_lt (Int.lt_iff_le_and_ne.mpr ⟨hline.2, fun heq => ?_⟩)
                  exact h.last ht (heq ▸ hwrap)
                exact .pure ⟨⟨by omega, hnext⟩, by omega⟩
  · rfl

theorem toVisibleLine_returns (ht : t.WF) {line : Int} (hlo : t.topmostLine ≤ line)
    (hhi : line ≤ t.bottommostLine) : Returns (t.toVisibleLine line) t.InGrid := by
  refine ReturnsIf.returns ⟨fun _ => ?_, toVisibleLine_inGrid ht.grid line⟩ trivial
  obtain ⟨first, hfirst, -⟩ := firstOccupiedInLine_returns ht hlo hhi
  unfold toVisibleLine
  rw [hfirst]
  rfl

theorem isWrapAbove_returns (ht : t.WF) (hp : t.InGrid p) :
    Returns (t.isWrapAbove p) fun wrap => wrap = true → t.topmostLine < p.line := by
  obtain ⟨hlo, hhi, -⟩ := hp
  unfold isWrapAbove
  split
  · next habove =>
      exact (isWrap_returns ht (p := ⟨p.line - 1, t.lastColumn⟩)
        ⟨by simp only; omega, by simp only; omega, lastColumn_lt ht.grid⟩).mono
        fun _ _ _ => habove.2
  · exact .pure fun hfalse => nomatch hfalse

theorem dropUntilClear_twice (ht : t.WF) (lines : List Int)
    (hlines : ∀ line ∈ lines, t.topmostLine ≤ line ∧ line ≤ t.bottommostLine) :
    ∃ rest rest', t.dropUntilClear false lines = some rest ∧ t.dropUntilClear true rest = some rest' := by
  obtain ⟨rest, hrest, hmem⟩ := dropUntilClear_returns ht false lines hlines
  obtain ⟨rest', hrest', -⟩ := dropUntilClear_returns ht true rest fun l hl => hlines l (hmem l hl)
  exact ⟨rest, rest', hrest, hrest'⟩

theorem motionTarget_returns (ht : t.WF) (h : t.MotionSafe) (hp : t.InGrid p) (motion : ViMotion) :
    Returns (t.motionTarget p motion) t.InGrid := by
  have hlast := lastColumn_lt ht.grid
  have htotal := bottommost_eq ht
  have hbottom : t.bottommostLine = (t.screenLines : Int) - 1 := rfl
  have htopmost : t.topmostLine = -(t.grid.historySize : Int) := rfl
  have hhistory : (t.grid.displayOffset : Int) ≤ t.grid.historySize := Int.ofNat_le.mpr h.viewport
  have hlines : 1 ≤ t.screenLines := ht.grid.lines_pos
  have hright : motion = .right → t.RightSafe p := by
    rintro -
    intro q hq hwrap heq
    refine h.wrap p q hp hq (.inl heq) fun line hlo hhi => ?_
    obtain rfl : line = q.line := by omega
    exact hwrap
  have hallows := motionTarget_inGrid ht hp hright
  refine ReturnsIf.returns ⟨fun _ => ?_, hallows⟩ trivial
  cases motion with
  | up => rfl
  | down => rfl
  | left =>
      obtain ⟨q, hq, hin⟩ := h.expandWide ht .left hp
      obtain ⟨wrap, hwrap, -⟩ := isWrapAbove_returns ht hin
      unfold motionTarget
      simp only [hq, hwrap, Option.bind_eq_bind, Option.bind_some, Option.isSome_some]
  | right =>
      obtain ⟨q, hq, hin⟩ := h.expandWide ht .right hp
      obtain ⟨wrap, hwrap, -⟩ := isWrap_returns ht hin
      unfold motionTarget
      simp only [hq, hwrap, Option.bind_eq_bind, Option.bind_some, Option.isSome_some]
  | first =>
      obtain ⟨q, hq, hin⟩ := h.expandWide ht .left hp
      unfold motionTarget
      simp only [hq, Option.bind_eq_bind, Option.bind_some]
      refine Returns.isSome (P := fun _ => True) (Returns.bind (P := fun _ => True) ?_
        fun _ _ => .pure trivial)
      refine loop_returns (fun r => (r.line - t.topmostLine).toNat) (P := t.InGrid) hin
        (by have := hin.1; have := hin.2.1; omega) fun r hr => ?_
      refine (isWrapAbove_returns ht hr).bind fun wrap hwrap => .pure ?_
      obtain ⟨hlo, hhi, hcolumn⟩ := hr
      cases wrap with
      | false => trivial
      | true =>
          have hlt := hwrap rfl
          exact ⟨⟨by simp only; omega, by simp only; omega, hcolumn⟩, by simp only; omega⟩
  | last => exact (lastMotion_returns ht h hp).isSome
  | firstOccupied => exact (firstOccupiedMotion_returns ht h hp).isSome
  | high => exact (toVisibleLine_returns ht (by omega) (by omega)).isSome
  | middle =>
      have hmiddle := h.middle
      have hhalf : (t.screenLines : Int).tdiv 2 = (t.screenLines / 2 : Nat) := rfl
      exact (toVisibleLine_returns ht (by omega) (by omega)).isSome
  | low => exact (toVisibleLine_returns ht (by omega) (by omega)).isSome
  | semanticLeft => exact (semanticMotion_returns ht h hp _ _).isSome
  | semanticRight => exact (semanticMotion_returns ht h hp _ _).isSome
  | semanticLeftEnd => exact (semanticMotion_returns ht h hp _ _).isSome
  | semanticRightEnd => exact (semanticMotion_returns ht h hp _ _).isSome
  | wordLeft => exact (wordMotion_returns ht h hp _ _).isSome
  | wordRight => exact (wordMotion_returns ht h hp _ _).isSome
  | wordLeftEnd => exact (wordMotion_returns ht h hp _ _).isSome
  | wordRightEnd => exact (wordMotion_returns ht h hp _ _).isSome
  | bracket =>
      obtain ⟨i, hi, rfl⟩ := InGrid.exists_index ht.grid hp
      obtain ⟨partner, hpartner, -⟩ := bracketSearch_returns ht.grid hi
      unfold motionTarget
      rw [hpartner]
      rfl
  | paragraphUp =>
      have hlines (line : Int) (hline : line ∈ (lineRange t.topmostLine p.line).reverse) :
          t.topmostLine ≤ line ∧ line ≤ t.bottommostLine := by
        rw [List.mem_reverse, mem_lineRange] at hline
        exact ⟨hline.1, Int.le_trans (Int.le_of_lt hline.2) hp.2.1⟩
      obtain ⟨rest, rest', hrest, hrest'⟩ := dropUntilClear_twice ht _ hlines
      unfold motionTarget
      simp only [hrest, hrest', Option.bind_eq_bind, Option.bind_some, Option.isSome_some]
  | paragraphDown =>
      have hlines (line : Int) (hline : line ∈ lineRange p.line t.bottommostLine) :
          t.topmostLine ≤ line ∧ line ≤ t.bottommostLine := by
        rw [mem_lineRange] at hline
        exact ⟨Int.le_trans hp.1 hline.1, Int.le_of_lt hline.2⟩
      obtain ⟨rest, rest', hrest, hrest'⟩ := dropUntilClear_twice ht _ hlines
      unfold motionTarget
      simp only [hrest, hrest', Option.bind_eq_bind, Option.bind_some, Option.isSome_some]

/-! ### Motions that leave the grid -/

theorem not_returns_of_none {α : Type} {o : Option α} {P : α → Prop} (h : o = none) :
    ¬ Returns o P := by
  rintro ⟨a, ha, -⟩
  exact nomatch h.symm.trans ha

/-- A line above the history or below the screen has no first cell. -/
theorem inGrid_of_toVisibleLine (ht : t.WF) {line : Int} {q : Point}
    (h : t.toVisibleLine line = some q) : t.topmostLine ≤ line ∧ line ≤ t.bottommostLine := by
  simp only [toVisibleLine, Option.bind_eq_bind, Option.bind_eq_some_iff] at h
  obtain ⟨first, hfirst, -⟩ := h
  exact firstOccupiedInLine_inGrid_line ht hfirst

/-- From a wrapped column the search for the end of the line goes below the screen. -/
theorem lastMotion_wrapsOut (ht : t.WF) {q : Point} (hin : t.InGrid q)
    (hq : t.expandWide p .right = some q) (hblank : t.BlankAfter q) (hout : t.WrapsOut q) :
    ¬ Returns (t.lastMotion p) t.InGrid := by
  rintro ⟨r, hr, -⟩
  obtain ⟨hlo, hhi, hcolumn⟩ := hin
  obtain ⟨occupied, hoccupied, hbehind⟩ := lastOccupiedInLine_le ht hlo hhi q.column
  have hwrap : t.isWrap q = some true := hout q.line (Int.le_refl _) hhi
  unfold lastMotion at hr
  rw [hq] at hr
  simp only [Option.bind_eq_bind, Option.bind_some, hoccupied, hwrap] at hr
  rw [if_neg (Nat.not_lt.mpr (hbehind.mpr hblank)), if_pos trivial] at hr
  obtain ⟨r', hr', -⟩ := Option.bind_eq_some_iff.mp hr
  have hnever : Allows (loop (fun point => (t.isWrap point).bind fun wrap =>
      some (if wrap = true then Sum.inr { point with line := point.line + 1 } else Sum.inl point))
      (t.dims.totalLines + 1) q) fun _ => False := by
    refine loop_allows (P := fun r : Point => r.column = q.column ∧ q.line ≤ r.line)
      ⟨rfl, Int.le_refl _⟩ ?_
    rintro ⟨line, column⟩ ⟨rfl, hle⟩
    intro s hs
    obtain ⟨wrap, hwrap, hs⟩ := Option.bind_eq_some_iff.mp hs
    have hin := inGrid_of_isWrap ht.grid hwrap
    obtain rfl : wrap = true := Option.some.inj (hwrap.symm.trans (hout line hle hin.2.1))
    obtain rfl := Option.some.inj hs
    exact ⟨rfl, by simp only at hle ⊢; omega⟩
  exact hnever r' hr'

theorem motionSafe_of_returns (ht : t.WF)
    (h : ∀ p, t.InGrid p → ∀ motion, Returns (t.motionTarget p motion) t.InGrid) : t.MotionSafe := by
  have hbottom : t.bottommostLine = (t.screenLines : Int) - 1 := rfl
  have htopmost : t.topmostLine = -(t.grid.historySize : Int) := rfl
  have hlines : 1 ≤ t.screenLines := ht.grid.lines_pos
  have hfirst : t.InGrid ⟨0, 0⟩ :=
    ⟨topmostLine_le_zero ht.grid, bottommostLine_nonneg ht.grid, ht.grid.columns_pos⟩
  have hleading (column : Nat) (cell : Cell)
      (hcell : t.grid.cellAt ⟨t.bottommostLine, column⟩ = some cell) :
      cell.flags.leadingWideCharSpacer = false := by
    refine Bool.eq_false_iff.mpr fun hleading => ?_
    refine not_returns_of_none ?_ (h ⟨t.bottommostLine, column⟩ (inGrid_of_cellAt ht.grid hcell) .right)
    have hbelow : t.isWrap ⟨t.bottommostLine + 1, 1⟩ = none := by
      refine Option.eq_none_iff_forall_ne_some.mpr fun wrap hwrap => ?_
      have hin := (inGrid_of_isWrap ht.grid hwrap).2.1
      simp only at hin
      omega
    unfold motionTarget expandWide
    simp only [hcell, Option.bind_eq_bind, Option.bind_some, hleading, if_true, hbelow,
      Option.bind_none]
  refine ⟨fun line cell hcell => ?_, hleading, fun p q hp hq hend hout => ?_, ?_, ?_⟩
  · refine Bool.eq_false_iff.mpr fun hspacer => ?_
    refine not_returns_of_none ?_ (h ⟨line, 0⟩ (inGrid_of_cellAt ht.grid hcell) .left)
    unfold motionTarget expandWide
    rw [hcell]
    simp only [Option.bind_eq_bind, Option.bind_some, hspacer, Bool.or_true, if_true]
    rfl
  · have hin : t.InGrid q := (expandWide_right_returns ht hleading hp).of_eq hq
    rcases hend with hend | hblank
    · obtain ⟨r, hr, hr'⟩ := h p hp .right
      have hwrap : t.isWrap q = some true := hout q.line (Int.le_refl _) hin.2.1
      unfold motionTarget at hr
      simp only [hq, hwrap, Option.bind_eq_bind, Option.bind_some, if_true, Option.some.injEq] at hr
      have hbelow := hr'.2.1
      rw [← hr] at hbelow
      simp only at hbelow
      omega
    · exact lastMotion_wrapsOut ht hin hq hblank hout (h p hp .last)
  · obtain ⟨r, hr, -⟩ := h ⟨0, 0⟩ hfirst .high
    have hline := (inGrid_of_toVisibleLine ht hr).1
    omega
  · obtain ⟨r, hr, -⟩ := h ⟨0, 0⟩ hfirst .middle
    have hline := (inGrid_of_toVisibleLine ht hr).1
    have hhalf : (t.screenLines : Int).tdiv 2 = (t.screenLines / 2 : Nat) := rfl
    rw [hhalf] at hline
    omega

/-- Every motion of the vi cursor returns and stays in the grid, if and only if it is safe. -/
theorem motionTarget_inGrid_iff (t : Term) (ht : t.WF) :
    (∀ p, t.InGrid p → ∀ motion, Returns (t.motionTarget p motion) t.InGrid) ↔ t.MotionSafe :=
  ⟨motionSafe_of_returns ht, fun h _ hp motion => motionTarget_returns ht h hp motion⟩

/-- No wrapped column goes down to below the screen if the bottommost line does not wrap. -/
theorem not_wrapsOut {q : Point} (hin : t.InGrid q)
    (hbottom : ∀ column cell, t.grid.cellAt ⟨t.bottommostLine, column⟩ = some cell →
      cell.flags.wrapline = false) : ¬ t.WrapsOut q := by
  intro hout
  have hwrap := hout t.bottommostLine hin.2.1 (Int.le_refl _)
  simp only [isWrap, Option.bind_eq_bind, Option.bind_eq_some_iff, Option.some.injEq] at hwrap
  obtain ⟨cell, hcell, hwrap⟩ := hwrap
  rw [hbottom _ cell hcell] at hwrap
  cases hwrap

/-- A fullwidth character that no longer fits into the first line is on the second: the first line
wraps behind a leading spacer. -/
theorem motionTarget_inGrid_fullwidth : ∃ t, Reachable .fullwidth .initial 2 3 t ∧
    (t.grid.cellAt ⟨0, 2⟩).any (fun cell => cell.flags.leadingWideCharSpacer && cell.flags.wrapline) ∧
    (t.grid.cellAt ⟨1, 1⟩).any (fun cell => cell.flags.wideCharSpacer) ∧
    ∀ p, t.InGrid p → ∀ motion, Returns (t.motionTarget p motion) t.InGrid := by
  obtain ⟨t, hrun, hlines, hcolumns, hhistory, hoffset, hleading, hspacer, hfirst, hbottom⟩ :
      ∃ t, Reachable .fullwidth .initial 2 3 t ∧ t.grid.lines = 2 ∧ t.grid.columns = 3 ∧
      t.grid.historySize = 0 ∧ t.grid.displayOffset = 0 ∧
      (t.grid.cellAt ⟨0, 2⟩).any (fun cell => cell.flags.leadingWideCharSpacer && cell.flags.wrapline) ∧
      (t.grid.cellAt ⟨1, 1⟩).any (fun cell => cell.flags.wideCharSpacer) ∧
      (∀ line < 2, (t.grid.cellAt ⟨(line : Nat), 0⟩).all fun cell => !cell.flags.wideCharSpacer) ∧
      ∀ column < 3, (t.grid.cellAt ⟨1, column⟩).all fun cell =>
        !cell.flags.leadingWideCharSpacer && !cell.flags.wrapline :=
    ⟨_, .step (.step (.step .refl
      (a := .handler (.input 'a')) trivial rfl)
      (a := .handler (.input 'b')) trivial rfl)
      (a := .handler (.input '漢')) trivial rfl, rfl, rfl, rfl, rfl, rfl, rfl, by decide, by decide⟩
  have ht := Reachable.wf hrun (by decide) (by decide)
  have hscreen : t.bottommostLine = 1 := congrArg (fun lines : Nat => (lines : Int) - 1) hlines
  have hbelow (column : Nat) (cell : Cell) (hcell : t.grid.cellAt ⟨t.bottommostLine, column⟩ = some cell) :
      cell.flags.leadingWideCharSpacer = false ∧ cell.flags.wrapline = false := by
    have hcolumn := (inGrid_of_cellAt ht.grid hcell).2.2
    have hcell' := hbottom column (by rw [← hcolumns]; exact hcolumn)
    rw [hscreen] at hcell
    rw [hcell] at hcell'
    simpa using hcell'
  refine ⟨t, hrun, hleading, hspacer, (motionTarget_inGrid_iff t ht).mpr ⟨fun line cell hcell => ?_,
    fun column cell hcell => (hbelow column cell hcell).1, fun p q hp hq _ => ?_, by omega, .inl ?_⟩⟩
  · obtain ⟨hlo, hhi, -⟩ := inGrid_of_cellAt ht.grid hcell
    have hlo : -(t.grid.historySize : Int) ≤ line := hlo
    have hhi : line ≤ t.bottommostLine := hhi
    obtain ⟨n, rfl⟩ := Int.eq_ofNat_of_zero_le (show 0 ≤ line by omega)
    have hcell' := hfirst n (by omega)
    rw [show t.grid.cellAt ⟨(n : Int), 0⟩ = some cell from hcell] at hcell'
    simpa using hcell'
  · exact not_wrapsOut ((expandWide_right_returns ht (fun column cell hcell => (hbelow column cell hcell).1)
      hp).of_eq hq) fun column cell hcell => (hbelow column cell hcell).2
  · rw [screenLines, hlines]

/-- On a screen of one line the middle line is above it. A line that is wrapped below the scroll
region continues below the screen. -/
theorem motionTarget_leaves_grid :
    (∃ t, Reachable .fullwidth .initial 1 2 t ∧ t.InGrid ⟨0, 0⟩ ∧
      t.motionTarget ⟨0, 0⟩ .middle = none) ∧
    ∃ t, Reachable .fullwidth .initial 3 2 t ∧ t.InGrid ⟨2, 1⟩ ∧
      t.motionTarget ⟨2, 1⟩ .right = some ⟨3, 0⟩ ∧ ¬ t.InGrid ⟨3, 0⟩ ∧
      t.motionTarget ⟨2, 1⟩ .last = none := by
  refine ⟨⟨_, .refl, ⟨by decide, by decide, by decide⟩, rfl⟩, _,
    .step (.step (.step (.step (.step .refl
      (a := .handler (.setScrollingRegion 1 (some 2))) (Nat.le_refl 1) rfl)
      (a := .handler (.goto 2 0)) trivial rfl)
      (a := .handler (.input 'a')) trivial rfl)
      (a := .handler (.input 'b')) trivial rfl)
      (a := .handler (.input 'c')) trivial rfl, ⟨by decide, by decide, by decide⟩, rfl, ?_, rfl⟩
  rintro ⟨-, hbottom, -⟩
  exact absurd hbottom (by decide)

end Term
end Velacritty
