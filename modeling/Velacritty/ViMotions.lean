import Velacritty.TermOp
import Velacritty.TermSound

/-! The vi mode's motions stay inside of the grid. -/
namespace Velacritty
open Fallible

namespace GridIterator
variable {T : Type} [GridCell T]

/-- What an iterator yields is the cell at its new position. -/
def Yields (it : GridIterator T) (r : Option (Point × T) × GridIterator T) : Prop :=
  r.2.grid = it.grid ∧ ∀ p cell, r.1 = some (p, cell) → it.grid.cellAt p = some cell

omit [GridCell T] in
theorem next_yields (it : GridIterator T) : Allows it.next it.Yields := by
  unfold next
  split
  · exact .pure ⟨rfl, fun p cell h => nomatch h⟩
  · intro r hr
    simp only [Option.bind_eq_bind, Option.bind_eq_some_iff, Option.some.injEq] at hr
    obtain ⟨cell, hcell, rfl⟩ := hr
    refine ⟨rfl, fun p cell' h => ?_⟩
    simp only [Option.some.injEq, Prod.mk.injEq] at h
    obtain ⟨rfl, rfl⟩ := h
    exact hcell

omit [GridCell T] in
theorem prev_yields (it : GridIterator T) : Allows it.prev it.Yields := by
  unfold prev
  split
  · exact .pure ⟨rfl, fun p cell h => nomatch h⟩
  · intro r hr
    simp only [Option.bind_eq_bind, Option.bind_eq_some_iff, Option.some.injEq] at hr
    obtain ⟨cell, hcell, rfl⟩ := hr
    refine ⟨rfl, fun p cell' h => ?_⟩
    simp only [Option.some.injEq, Prod.mk.injEq] at h
    obtain ⟨rfl, rfl⟩ := h
    exact hcell

end GridIterator

namespace Term
variable {t : Term} {p q : Point}

def InGrid (t : Term) (p : Point) : Prop :=
  t.topmostLine ≤ p.line ∧ p.line ≤ t.bottommostLine ∧ p.column < t.columns

theorem cellAt_inGrid (h : t.WF) (hp : t.InGrid p) : ∃ cell, t.grid.cellAt p = some cell := by
  have hhi : p.line < t.grid.lines := Int.lt_of_le_sub_one hp.2.1
  obtain ⟨cell, hcell, -⟩ := Grid.cellAt_returns h.grid hp.1 hhi hp.2.2
  exact ⟨cell, hcell⟩

theorem inGrid_of_cellAt (h : t.grid.WF) {cell : Cell} (hp : t.grid.cellAt p = some cell) :
    t.InGrid p := by
  obtain ⟨hlo, hhi, hc⟩ := Grid.inGrid_of_cellAt h hp
  exact ⟨hlo, Int.le_sub_one_of_lt hhi, hc⟩

theorem inGrid_of_isWrap (h : t.grid.WF) {b : Bool} (hp : t.isWrap p = some b) : t.InGrid p := by
  simp only [isWrap, Option.bind_eq_bind, Option.bind_eq_some_iff] at hp
  obtain ⟨cell, hcell, -⟩ := hp
  exact inGrid_of_cellAt h hcell

theorem inGrid_of_isSpace (h : t.grid.WF) {b : Bool} (hp : t.isSpace p = some b) : t.InGrid p := by
  simp only [isSpace, Option.bind_eq_bind, Option.bind_eq_some_iff] at hp
  obtain ⟨cell, hcell, -⟩ := hp
  exact inGrid_of_cellAt h hcell

theorem InGrid.atColumn (hp : t.InGrid p) {column : Nat} (hc : column < t.columns) :
    t.InGrid ⟨p.line, column⟩ := ⟨hp.1, hp.2.1, hc⟩

theorem lastColumn_lt (h : t.grid.WF) : t.lastColumn < t.columns :=
  Nat.sub_lt h.columns_pos Nat.one_pos

theorem topmostLine_le_zero (h : t.grid.WF) : t.topmostLine ≤ 0 := by
  have hle := h.lines_le
  simp only [topmostLine, dims, Dimensions.topmostLine]
  omega

theorem bottommostLine_nonneg (h : t.grid.WF) : 0 ≤ t.bottommostLine := by
  have hpos := h.lines_pos
  have heq : t.bottommostLine = (t.grid.lines : Int) - 1 := rfl
  omega

theorem inGrid_gridClamp (hpos : 0 < t.columns) (htop : t.topmostLine ≤ t.bottommostLine) (p : Point) :
    t.InGrid (p.gridClamp t.dims .grid) := by
  have hlast : t.columns - 1 < t.columns := Nat.sub_one_lt_of_lt hpos
  simp only [Point.gridClamp]
  split
  · exact ⟨Int.le_refl _, htop, hpos⟩
  · next hlo =>
      split
      · exact ⟨htop, Int.le_refl _, hlast⟩
      · next hhi =>
          exact ⟨Int.not_lt.mp hlo, Int.not_lt.mp hhi, Nat.lt_of_le_of_lt (Nat.min_le_right _ _) hlast⟩

theorem gridClamp_inGrid (h : t.grid.WF) (p : Point) : t.InGrid (p.gridClamp t.dims .grid) :=
  inGrid_gridClamp h.columns_pos (Int.le_trans (topmostLine_le_zero h) (bottommostLine_nonneg h)) p

theorem advance_inGrid (h : t.grid.WF) (p : Point) (direction : Side) :
    t.InGrid (t.advance p direction) := by
  cases direction with
  | left => exact gridClamp_inGrid h _
  | right => exact gridClamp_inGrid h _

/-- Jumping to the left end of a wide cell stays in the grid. -/
theorem expandWide_left (h : t.grid.WF) (hp : t.InGrid p) :
    Allows (t.expandWide p .left) t.InGrid := by
  intro q hq
  simp only [expandWide, Option.bind_eq_bind, Option.bind_eq_some_iff] at hq
  obtain ⟨cell, -, hq⟩ := hq
  split at hq
  · simp only [Option.bind_eq_some_iff, Option.some.injEq] at hq
    obtain ⟨column, hcolumn, prevCell, hprev, rfl⟩ := hq
    have hle : column ≤ p.column := by
      split at hcolumn
      · rw [usub_eq_some] at hcolumn
        omega
      · exact Nat.le_of_eq (Option.some.inj hcolumn).symm
    split
    · exact inGrid_of_cellAt h hprev
    · exact hp.atColumn (Nat.lt_of_le_of_lt hle hp.2.2)
  · exact Option.some.inj hq ▸ hp

/-- Jumping to the right end of a wide cell stays in the grid, or goes below it. -/
theorem expandWide_right (h : t.WF) (hp : t.InGrid p) :
    Allows (t.expandWide p .right) fun q => t.InGrid q ∨ q = ⟨t.bottommostLine + 1, 1⟩ := by
  have hlast := lastColumn_lt h.grid
  intro q hq
  simp only [expandWide, Option.bind_eq_bind, Option.bind_eq_some_iff] at hq
  obtain ⟨cell, -, hq⟩ := hq
  split at hq
  · obtain rfl := Option.some.inj hq
    by_cases hbottom : p.line = t.bottommostLine
    · exact .inr (by rw [hbottom])
    · have hlo := hp.1
      have hhi := hp.2.1
      exact .inl ⟨by simp only; omega, by simp only; omega, h.two_le⟩
  · split at hq
    · obtain rfl := Option.some.inj hq
      exact .inl (hp.atColumn (Nat.lt_of_le_of_lt (Nat.min_le_right _ _) hlast))
    · exact .inl (Option.some.inj hq ▸ hp)

/-! ### Searches -/

/-- Where a search ended, with or without a match. -/
def Found (t : Term) (r : Except Point Point) : Prop := ∀ q, r = .error q ∨ r = .ok q → t.InGrid q

theorem found_error (hp : t.InGrid p) : t.Found (.error p) := by
  rintro q (hq | hq)
  · exact Except.error.inj hq ▸ hp
  · cases hq

theorem found_ok (hp : t.InGrid p) : t.Found (.ok p) := by
  rintro q (hq | hq)
  · cases hq
  · exact Except.ok.inj hq ▸ hp

theorem InGrid.limited (hp : t.InGrid p) : { p with line := max p.line t.topmostLine } = p := by
  rw [Int.max_eq_left hp.1]

theorem inlineSearchLeft_found (h : t.grid.WF) (hp : t.InGrid p) (needles : List Char) :
    Allows (t.inlineSearchLeft p needles) t.Found := by
  simp only [inlineSearchLeft, hp.limited]
  refine loop_allows (P := fun s : GridIterator Cell × Point => s.1.grid = t.grid ∧ t.InGrid s.2)
    ⟨rfl, hp⟩ fun s hs => ?_
  refine (GridIterator.prev_yields s.1).bind fun r hr => ?_
  obtain ⟨item, it⟩ := r
  obtain ⟨hgrid, hcell⟩ := hr
  cases item with
  | none => exact .pure (found_error hs.2)
  | some item =>
      obtain ⟨q, cell⟩ := item
      have hq : t.InGrid q := inGrid_of_cellAt h (hs.1 ▸ hcell q cell rfl)
      simp only
      split
      · exact .pure (found_error hs.2)
      · split
        · exact .pure (found_ok hq)
        · exact .pure ⟨hgrid.trans hs.1, hq⟩

theorem inlineSearchRight_found (h : t.grid.WF) (hp : t.InGrid p) (needles : List Char) :
    Allows (t.inlineSearchRight p needles) t.Found := by
  simp only [inlineSearchRight, hp.limited]
  refine Allows.bind (P := fun _ => True) (fun _ _ => trivial) fun atBreak _ => ?_
  split
  · exact .pure (found_error hp)
  · refine loop_allows (P := fun s : GridIterator Cell × Point => s.1.grid = t.grid ∧ t.InGrid s.2)
      ⟨rfl, hp⟩ fun s hs => ?_
    refine (GridIterator.next_yields s.1).bind fun r hr => ?_
    obtain ⟨item, it⟩ := r
    obtain ⟨hgrid, hcell⟩ := hr
    cases item with
    | none => exact .pure (found_error hs.2)
    | some item =>
        obtain ⟨q, cell⟩ := item
        have hq : t.InGrid q := inGrid_of_cellAt h (hs.1 ▸ hcell q cell rfl)
        simp only
        split
        · exact .pure (found_ok hq)
        · split
          · exact .pure (found_error hq)
          · exact .pure ⟨hgrid.trans hs.1, hq⟩

theorem semanticSearchLeft_inGrid (h : t.grid.WF) (hp : t.InGrid p) :
    Allows (t.semanticSearchLeft p) t.InGrid := by
  refine (inlineSearchLeft_found h hp _).bind fun r hr => ?_
  cases r with
  | error q => exact .pure (hr q (.inl rfl))
  | ok q =>
      refine loop_allows (P := fun it : GridIterator Cell => it.grid = t.grid) rfl fun it hit => ?_
      refine (GridIterator.next_yields it).bind fun s hs => ?_
      obtain ⟨item, it'⟩ := s
      obtain ⟨hgrid, hcell⟩ := hs
      cases item with
      | none => exact .pure (hr q (.inr rfl))
      | some item =>
          obtain ⟨q', cell⟩ := item
          simp only
          split
          · exact .pure (hgrid.trans hit)
          · exact .pure (inGrid_of_cellAt h (hit ▸ hcell q' cell rfl))

theorem semanticSearchRight_inGrid (h : t.grid.WF) (hp : t.InGrid p) :
    Allows (t.semanticSearchRight p) t.InGrid := by
  refine (inlineSearchRight_found h hp _).bind fun r hr => ?_
  cases r with
  | error q => exact .pure (hr q (.inl rfl))
  | ok q =>
      refine (GridIterator.prev_yields (t.grid.iterFrom q)).bind fun s hs => .pure ?_
      obtain ⟨item, it⟩ := s
      cases item with
      | none => exact hr q (.inr rfl)
      | some item => exact inGrid_of_cellAt h (hs.2 item.1 item.2 rfl)

theorem expandSemantic_inGrid (h : t.grid.WF) (hp : t.InGrid p) (direction : Side) :
    Allows (t.expandSemantic direction p) t.InGrid := by
  refine Allows.bind (P := fun _ => True) (fun _ _ => trivial) fun cell _ => ?_
  split
  · exact .pure hp
  · cases direction with
    | left => exact semanticSearchLeft_inGrid h hp
    | right => exact semanticSearchRight_inGrid h hp

theorem bracketSearch_inGrid (h : t.grid.WF) :
    Allows (t.bracketSearch p) fun r => ∀ q, r = some q → t.InGrid q := by
  refine Allows.bind (P := fun _ => True) (fun _ _ => trivial) fun cell _ => ?_
  simp only
  split
  · exact .pure fun q hq => nomatch hq
  · next forward endChar _ =>
      refine loop_allows (P := fun s : GridIterator Cell × Nat => s.1.grid = t.grid) rfl fun s hs => ?_
      refine Allows.bind (P := s.1.Yields) ?_ fun r hr => ?_
      · split
        · exact GridIterator.next_yields _
        · exact GridIterator.prev_yields _
      · obtain ⟨item, it⟩ := r
        obtain ⟨hgrid, hcell⟩ := hr
        cases item with
        | none => exact .pure fun q hq => nomatch hq
        | some item =>
            obtain ⟨q, cell⟩ := item
            have hq : t.InGrid q := inGrid_of_cellAt h (hs ▸ hcell q cell rfl)
            simp only
            split
            · exact .pure fun q' hq' => Option.some.inj hq' ▸ hq
            · split
              · exact .pure (hgrid.trans hs)
              · split
                · exact .pure (hgrid.trans hs)
                · exact .pure (hgrid.trans hs)

/-! ### Lines -/

theorem findOccupied_inGrid (h : t.grid.WF) (line : Int) (columns : List Nat) :
    Allows (t.findOccupied line columns) fun r =>
      (∀ q, r = some q → t.InGrid q ∧ q.line = line) ∧ (columns ≠ [] → t.topmostLine ≤ line ∧
        line ≤ t.bottommostLine) := by
  induction columns with
  | nil => exact .pure ⟨fun q hq => (nomatch hq), fun hne => absurd rfl hne⟩
  | cons column columns ih =>
      intro r hr
      simp only [findOccupied, Option.bind_eq_bind, Option.bind_eq_some_iff] at hr
      obtain ⟨space, hspace, hr⟩ := hr
      have hin := inGrid_of_isSpace h hspace
      refine ⟨?_, fun _ => ⟨hin.1, hin.2.1⟩⟩
      split at hr
      · exact (ih r hr).1
      · intro q hq
        rw [hq, Option.some.injEq, Option.some.injEq] at hr
        exact hr ▸ ⟨hin, rfl⟩

/-- A look at a line of the grid, which finds points of it only. -/
theorem firstOccupiedInLine_inGrid (h : t.grid.WF) (line : Int) :
    Allows (t.firstOccupiedInLine line) fun r =>
      (∀ q, r = some q → t.InGrid q ∧ q.line = line) ∧ t.InGrid ⟨line, t.lastColumn⟩ := by
  have hpos := h.columns_pos
  refine (findOccupied_inGrid h line _).mono fun r hr => ⟨hr.1, ?_⟩
  have hne : List.range t.columns ≠ [] := fun heq => by
    rw [List.range_eq_nil] at heq
    exact absurd hpos (by rw [show t.grid.columns = 0 from heq]; decide)
  exact ⟨(hr.2 hne).1, (hr.2 hne).2, lastColumn_lt h⟩

theorem lastOccupiedInLine_inGrid (h : t.grid.WF) (line : Int) :
    Allows (t.lastOccupiedInLine line) fun r =>
      (∀ q, r = some q → t.InGrid q ∧ q.line = line) ∧ t.InGrid ⟨line, t.lastColumn⟩ := by
  have hpos := h.columns_pos
  refine (findOccupied_inGrid h line _).mono fun r hr => ⟨hr.1, ?_⟩
  have hne : (List.range t.columns).reverse ≠ [] := fun heq => by
    rw [List.reverse_eq_nil_iff, List.range_eq_nil] at heq
    exact absurd hpos (by rw [show t.grid.columns = 0 from heq]; decide)
  exact ⟨(hr.2 hne).1, (hr.2 hne).2, lastColumn_lt h⟩

theorem dropUntilClear_mem (clear : Bool) (lines : List Int) :
    Allows (t.dropUntilClear clear lines) fun r => ∀ line ∈ r, line ∈ lines := by
  induction lines with
  | nil => exact .pure fun _ => id
  | cons line lines ih =>
      intro r hr
      simp only [dropUntilClear, Option.bind_eq_bind, Option.bind_eq_some_iff] at hr
      obtain ⟨row, -, hr⟩ := hr
      split at hr
      · exact Option.some.inj hr ▸ fun _ => id
      · exact fun l hl => List.mem_cons_of_mem _ (ih r hr l hl)

/-! ### Motions -/

/-- A point of the grid, or where jumping over a wide cell may go below it. -/
def Expanded (t : Term) (direction : Side) (p : Point) : Prop :=
  t.InGrid p ∨ direction = .right ∧ p = ⟨t.bottommostLine + 1, 1⟩

theorem expandWide_expanded (h : t.WF) (hp : t.InGrid p) (direction : Side) :
    Allows (t.expandWide p direction) (t.Expanded direction) := by
  cases direction with
  | left => exact (expandWide_left h.grid hp).mono fun _ => .inl
  | right => exact (expandWide_right h hp).mono fun q hq => hq.imp_right fun hq => ⟨rfl, hq⟩

theorem Expanded.of_boundary {direction : Side} (hp : t.Expanded direction p)
    (hb : t.isBoundary p direction = true) : t.InGrid p := by
  rcases hp with hp | ⟨rfl, rfl⟩
  · exact hp
  · simp only [isBoundary, decide_eq_true_eq] at hb
    omega

/-- Going on while the next cell allows it stays in the grid once it moves. -/
theorem advanceWhile_allows (h : t.grid.WF) (direction : Side) (f : Point → Option Bool) (p : Point) :
    Allows (t.advanceWhile direction f p) fun q => (q = p ∨ t.InGrid q) ∧
      (t.isBoundary q direction = true ∨ f (t.advance q direction) = some false) := by
  refine loop_allows (P := fun q => q = p ∨ t.InGrid q) (.inl rfl) fun q hq => ?_
  split
  · next hb => exact .pure ⟨hq, .inl hb⟩
  · intro r hr
    simp only [Option.bind_eq_bind, Option.bind_eq_some_iff, Option.some.injEq] at hr
    obtain ⟨go, hgo, rfl⟩ := hr
    cases go with
    | false => exact ⟨hq, .inr hgo⟩
    | true => exact .inr (advance_inGrid h q direction)

theorem advancePast_allows (h : t.grid.WF) (direction : Side) (f : Point → Option Bool) (p : Point) :
    Allows (t.advancePast direction f p) fun q => (q = p ∨ t.InGrid q) ∧
      (t.isBoundary q direction = true ∨ f q = some false) := by
  refine loop_allows (P := fun q => q = p ∨ t.InGrid q) (.inl rfl) fun q hq => ?_
  split
  · next hb => exact .pure ⟨hq, .inl hb⟩
  · intro r hr
    simp only [Option.bind_eq_bind, Option.bind_eq_some_iff, Option.some.injEq] at hr
    obtain ⟨go, hgo, rfl⟩ := hr
    cases go with
    | false => exact ⟨hq, .inr hgo⟩
    | true => exact .inr (advance_inGrid h q direction)

theorem isNotSpace_eq_some {b : Bool} : t.isNotSpace p = some b ↔ t.isSpace p = some !b := by
  simp only [isNotSpace, Option.bind_eq_bind, Option.bind_eq_some_iff, Option.some.injEq]
  constructor
  · rintro ⟨space, hspace, rfl⟩
    rw [hspace, Bool.not_not]
  · exact fun hspace => ⟨!b, hspace, Bool.not_not b⟩

theorem semanticMotion_inGrid (h : t.WF) (hp : t.InGrid p) (direction side : Side) :
    Allows (t.semanticMotion p direction side) t.InGrid := by
  refine Allows.bind (P := t.InGrid) ?_ fun p₁ hp₁ => ?_
  · split
    · exact expandSemantic_inGrid h.grid hp direction
    · exact .pure hp
  refine (expandWide_expanded h hp₁ direction).bind fun p₂ hp₂ => ?_
  refine (advanceWhile_allows h.grid direction t.isSpace p₂).bind fun p₃ hp₃ => ?_
  have hexpanded : t.Expanded direction p₃ := hp₃.1.elim (fun heq => heq ▸ hp₂) .inl
  refine Allows.bind (P := t.InGrid) ?_ fun p₄ hp₄ => ?_
  · split
    · next hb => exact .pure (hexpanded.of_boundary hb)
    · cases direction with
      | left => exact expandWide_left h.grid (advance_inGrid h.grid p₃ .left)
      | right => exact .pure (advance_inGrid h.grid p₃ .right)
  split
  · exact expandSemantic_inGrid h.grid hp₄ direction
  · exact .pure hp₄

theorem wordMotion_inGrid (h : t.WF) (hp : t.InGrid p) (direction side : Side) :
    Allows (t.wordMotion p direction side) t.InGrid := by
  refine (expandWide_expanded h hp direction).bind fun p₁ hp₁ => ?_
  split
  · refine (advanceWhile_allows h.grid direction t.isSpace p₁).bind fun p₂ hp₂ => ?_
    have hexpanded : t.Expanded direction p₂ := hp₂.1.elim (fun heq => heq ▸ hp₁) .inl
    refine (advanceWhile_allows h.grid direction t.isNotSpace p₂).mono fun p₃ hp₃ => ?_
    rcases hp₃ with ⟨rfl | hin, hstop⟩
    · -- The second loop stayed where the first one stopped, so that was at the boundary.
      rcases hp₂.2 with hb | hspace
      · exact hexpanded.of_boundary hb
      · rcases hstop with hb | hnot
        · exact hexpanded.of_boundary hb
        · rw [isNotSpace_eq_some, hspace] at hnot
          exact absurd hnot (by decide)
    · exact hin
  · refine (advancePast_allows h.grid direction t.isNotSpace p₁).bind fun p₂ hp₂ => ?_
    have hin : t.InGrid p₂ := by
      rcases hp₂ with ⟨rfl | hin, hstop⟩
      · rcases hstop with hb | hnot
        · exact hp₁.of_boundary hb
        · exact inGrid_of_isSpace h.grid (isNotSpace_eq_some.mp hnot)
      · exact hin
    refine (advancePast_allows h.grid direction t.isSpace p₂).mono fun p₃ hp₃ => ?_
    exact hp₃.1.elim (fun heq => heq ▸ hin) id

theorem toVisibleLine_inGrid (h : t.grid.WF) (line : Int) : Allows (t.toVisibleLine line) t.InGrid := by
  refine (firstOccupiedInLine_inGrid h line).bind fun first hfirst => .pure ?_
  obtain ⟨hfound, hline⟩ := hfirst
  cases first with
  | none => exact hline.atColumn h.columns_pos
  | some q => exact hline.atColumn (hfound q rfl).1.2.2

theorem isWrapAbove_line (h : t.grid.WF) :
    Allows (t.isWrapAbove p) fun wrap => wrap = true → p.column = 0 ∧ t.InGrid ⟨p.line - 1, t.lastColumn⟩ := by
  unfold isWrapAbove
  split
  · next habove => exact fun wrap hwrap _ => ⟨habove.1, inGrid_of_isWrap h hwrap⟩
  · exact .pure fun hfalse => absurd hfalse (by decide)

theorem lastMotion_inGrid (h : t.WF) (hp : t.InGrid p) : Allows (t.lastMotion p) t.InGrid := by
  refine (expandWide_right h hp).bind fun p₁ _ => ?_
  refine (lastOccupiedInLine_inGrid h.grid p₁.line).bind fun occupied hoccupied => ?_
  obtain ⟨hfound, hline⟩ := hoccupied
  have hhome : t.InGrid (occupied.getD default) := by
    cases occupied with
    | none => exact ⟨topmostLine_le_zero h.grid, bottommostLine_nonneg h.grid, h.grid.columns_pos⟩
    | some q => exact (hfound q rfl).1
  simp only
  split
  · exact .pure hhome
  · refine Allows.bind (P := fun _ => True) (fun _ _ => trivial) fun wrap _ => ?_
    split
    · refine Allows.bind (P := t.InGrid) ?_ fun p₂ hp₂ => ?_
      · refine loop_allows (P := fun _ => True) trivial fun q _ => ?_
        intro r hr
        simp only [Option.bind_eq_bind, Option.bind_eq_some_iff, Option.some.injEq] at hr
        obtain ⟨wrap, hwrap, rfl⟩ := hr
        split
        · trivial
        · exact inGrid_of_isWrap h.grid hwrap
      · refine (lastOccupiedInLine_inGrid h.grid p₂.line).bind fun occupied hoccupied => .pure ?_
        cases occupied with
        | none => exact hp₂
        | some q => exact (hoccupied.1 q rfl).1
    · exact .pure hline

theorem wrappedOccupied_inGrid (h : t.grid.WF) (lines : List Int) {occupied : Option Point}
    (ho : ∀ q, occupied = some q → t.InGrid q) :
    Allows (t.wrappedOccupied lines occupied) fun r => ∀ q, r = some q → t.InGrid q := by
  induction lines generalizing occupied with
  | nil => exact .pure ho
  | cons line lines ih =>
      rw [wrappedOccupied]
      refine Allows.bind (P := fun _ => True) (fun _ _ => trivial) fun wrap _ => ?_
      split
      · refine (firstOccupiedInLine_inGrid h line).bind fun first hfirst => ih fun q hq => ?_
        cases first with
        | none => exact ho q hq
        | some q' => exact Option.some.inj hq ▸ (hfirst.1 q' rfl).1
      · exact .pure ho

theorem firstOccupiedMotion_inGrid (h : t.grid.WF) (hp : t.InGrid p) :
    Allows (t.firstOccupiedMotion p) t.InGrid := by
  refine (expandWide_left h hp).bind fun p₁ _ => ?_
  refine (firstOccupiedInLine_inGrid h p₁.line).bind fun first hfirst => ?_
  have hoccupied : t.InGrid (first.getD ⟨p₁.line, t.lastColumn⟩) := by
    cases first with
    | none => exact hfirst.2
    | some q => exact (hfirst.1 q rfl).1
  simp only
  split
  · refine (wrappedOccupied_inGrid h _ fun q (hq : none = some q) => nomatch hq).bind fun occupied ho => ?_
    cases occupied with
    | some q => exact .pure (ho q rfl)
    | none =>
        refine loop_allows (P := fun _ => True) trivial fun line _ => ?_
        refine (firstOccupiedInLine_inGrid h line).bind fun first hfirst => ?_
        cases first with
        | some q => exact .pure (hfirst.1 q rfl).1
        | none =>
            refine Allows.bind (P := fun _ => True) (fun _ _ => trivial) fun wrap _ => .pure ?_
            split
            · trivial
            · exact hfirst.2
  · exact .pure hoccupied

/-- Where a motion to the right goes, it finds a line. -/
def RightSafe (t : Term) (p : Point) : Prop :=
  Allows (t.expandWide p .right) fun q => t.isWrap q = some true → q.line ≠ t.bottommostLine

/-- Every motion stays in the grid, but the one to the right at the end of a wrapped line
on the bottom of the screen. -/
theorem motionTarget_inGrid (h : t.WF) (hp : t.InGrid p) {motion : ViMotion}
    (hright : motion = .right → t.RightSafe p) : Allows (t.motionTarget p motion) t.InGrid := by
  have hgrid := h.grid
  have hpos := hgrid.columns_pos
  have hlast := lastColumn_lt hgrid
  have htop := topmostLine_le_zero hgrid
  have hbottom := bottommostLine_nonneg hgrid
  have ⟨hlo, hhi, hc⟩ := hp
  cases motion with
  | up =>
      refine .pure ?_
      split
      · exact ⟨by simp only; omega, by simp only; omega, hc⟩
      · exact ⟨hlo, hhi, hc⟩
  | down =>
      have heq : t.bottommostLine = (t.screenLines : Int) - 1 := rfl
      refine .pure ?_
      split
      · exact ⟨by simp only; omega, by simp only; omega, hc⟩
      · exact ⟨hlo, hhi, hc⟩
  | left =>
      refine (expandWide_left hgrid hp).bind fun p₁ hp₁ => ?_
      refine (isWrapAbove_line hgrid).bind fun wrap hwrap => .pure ?_
      split
      · next htrue => exact (hwrap htrue).2
      · exact hp₁.atColumn (Nat.lt_of_le_of_lt (Nat.sub_le _ _) hp₁.2.2)
  | right =>
      intro r hr
      simp only [motionTarget, Option.bind_eq_bind, Option.bind_eq_some_iff, Option.some.injEq] at hr
      obtain ⟨p₁, hp₁, wrap, hwrap, rfl⟩ := hr
      have hin := inGrid_of_isWrap hgrid hwrap
      split
      · next htrue =>
          have hne := hright rfl p₁ hp₁ (htrue ▸ hwrap)
          obtain ⟨hlo₁, hhi₁, -⟩ := hin
          exact ⟨by simp only; omega, by simp only; omega, hpos⟩
      · exact hin.atColumn (Nat.lt_of_le_of_lt (Nat.min_le_right _ _) hlast)
  | first =>
      refine (expandWide_left hgrid hp).bind fun p₁ hp₁ => ?_
      refine Allows.bind (P := t.InGrid) ?_ fun p₂ hp₂ => .pure (hp₂.atColumn hpos)
      refine loop_allows (P := t.InGrid) hp₁ fun q hq => ?_
      refine (isWrapAbove_line hgrid).bind fun wrap hwrap => .pure ?_
      split
      · next htrue => exact (hwrap htrue).2.atColumn hq.2.2
      · exact hq
  | last => exact lastMotion_inGrid h hp
  | firstOccupied => exact firstOccupiedMotion_inGrid hgrid hp
  | high => exact toVisibleLine_inGrid hgrid _
  | middle => exact toVisibleLine_inGrid hgrid _
  | low => exact toVisibleLine_inGrid hgrid _
  | semanticLeft => exact semanticMotion_inGrid h hp _ _
  | semanticRight => exact semanticMotion_inGrid h hp _ _
  | semanticLeftEnd => exact semanticMotion_inGrid h hp _ _
  | semanticRightEnd => exact semanticMotion_inGrid h hp _ _
  | wordLeft => exact wordMotion_inGrid h hp _ _
  | wordRight => exact wordMotion_inGrid h hp _ _
  | wordLeftEnd => exact wordMotion_inGrid h hp _ _
  | wordRightEnd => exact wordMotion_inGrid h hp _ _
  | bracket =>
      refine (bracketSearch_inGrid hgrid).bind fun partner hpartner => .pure ?_
      cases partner with
      | none => exact hp
      | some q => exact hpartner q rfl
  | paragraphUp =>
      refine (dropUntilClear_mem false _).bind fun lines hlines => ?_
      refine (dropUntilClear_mem true lines).bind fun lines' hlines' => .pure ?_
      cases lines' with
      | nil => exact ⟨Int.le_refl _, Int.le_trans htop hbottom, hpos⟩
      | cons line rest =>
          have hmem := hlines line (hlines' line List.mem_cons_self)
          rw [List.mem_reverse, mem_lineRange] at hmem
          exact ⟨hmem.1, Int.le_of_lt (Int.lt_of_lt_of_le hmem.2 hhi), hpos⟩
  | paragraphDown =>
      refine (dropUntilClear_mem false _).bind fun lines hlines => ?_
      refine (dropUntilClear_mem true lines).bind fun lines' hlines' => .pure ?_
      cases lines' with
      | nil => exact ⟨Int.le_trans htop hbottom, Int.le_refl _, hpos⟩
      | cons line rest =>
          have hmem := hlines line (hlines' line List.mem_cons_self)
          rw [mem_lineRange] at hmem
          exact ⟨Int.le_trans hlo hmem.1, Int.le_of_lt hmem.2, hpos⟩

end Term
end Velacritty
