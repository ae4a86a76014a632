import Velacritty.Hyperlinks
import Velacritty.TextRead
import Velacritty.WidePairs

/-! Underlines and strikeouts: what is drawn below neighbouring cells is one line. -/
namespace Velacritty
open Fallible

structure ViewportPoint where
  line : Nat
  column : Nat
  deriving DecidableEq, Repr

def ViewportPoint.Before (p q : ViewportPoint) : Prop :=
  p.line < q.line ∨ p.line = q.line ∧ p.column < q.column

inductive LineFlag where
  | underline
  | doubleUnderline
  | strikeout
  | undercurl
  | dottedUnderline
  | dashedUnderline
  deriving DecidableEq, Repr

def LineFlag.of (flags : Flags) : LineFlag → Bool
  | underline => flags.underline
  | doubleUnderline => flags.doubleUnderline
  | strikeout => flags.strikeout
  | undercurl => flags.undercurl
  | dottedUnderline => flags.dottedUnderline
  | dashedUnderline => flags.dashedUnderline

/-- Cell ready for rendering. Of the background there is only whether it is transparent, and of the
extra storage whether there is any. -/
structure RenderableCell where
  character : Char
  point : ViewportPoint
  fg : Rgb
  underline : Rgb
  transparent : Bool
  flags : Flags
  extra : Bool

namespace RenderableCell

/-- Check if cell contains any renderable content. -/
def isEmpty (cell : RenderableCell) : Bool :=
  cell.transparent && cell.character == ' ' && !cell.extra &&
    !(cell.flags.anyUnderline || cell.flags.strikeout)

/-- The last place of the cell: with a wide char, that of its spacer. -/
def stop (cell : RenderableCell) : ViewportPoint :=
  if cell.flags.wideChar then { cell.point with column := cell.point.column + 1 } else cell.point

/-- The underline color escape does not apply to strikeout. -/
def lineColor (cell : RenderableCell) (flag : LineFlag) : Rgb :=
  if flag = .strikeout then cell.fg else cell.underline

end RenderableCell

structure RenderLine where
  start : ViewportPoint
  stop : ViewportPoint
  color : Rgb
  deriving DecidableEq, Repr

abbrev RenderLines := LineFlag → List RenderLine

namespace RenderLines

def updateFlag (lines : List RenderLine) (cell : RenderableCell) (flag : LineFlag) : List RenderLine :=
  if flag.of cell.flags then
    let color := cell.lineColor flag
    match lines.getLast? with
    | some line =>
        if color = line.color ∧ cell.point.column = line.stop.column + 1 ∧
            cell.point.line = line.stop.line then
          lines.dropLast ++ [{ line with stop := cell.stop }]
        else lines ++ [⟨cell.point, cell.stop, color⟩]
    | none => lines ++ [⟨cell.point, cell.stop, color⟩]
  else lines

/-- Update the stored lines with the next cell info. -/
def update (lines : RenderLines) (cell : RenderableCell) : RenderLines :=
  let updated := fun (lines : RenderLines) flag =>
    Function.update lines flag (updateFlag (lines flag) cell flag)
  [LineFlag.underline, .doubleUnderline, .strikeout, .undercurl, .dottedUnderline,
    .dashedUnderline].foldl updated lines

theorem update_apply (lines : RenderLines) (cell : RenderableCell) (flag : LineFlag) :
    lines.update cell flag = updateFlag (lines flag) cell flag := by
  cases flag <;> rfl

theorem foldl_update (lines : RenderLines) (cells : List RenderableCell) (flag : LineFlag) :
    cells.foldl update lines flag =
      cells.foldl (fun lines cell => updateFlag lines cell flag) (lines flag) := by
  induction cells generalizing lines with
  | nil => rfl
  | cons cell cells ih => rw [List.foldl_cons, List.foldl_cons, ih, update_apply]

end RenderLines

/-! ### Cells of the grid -/

/-- How a cell is displayed: its colors, its character, and whether it is underlined as a hint. -/
structure Look where
  character : Char
  fg : Rgb
  underline : Rgb
  transparent : Bool
  hint : Bool

/-- What decides about the looks of cells: the colors, the cell of a block cursor, and the hints
below the mouse or the vi mode cursor. -/
structure Painter where
  look : Point → Cell → Look
  blockText : RenderableCell → Option Rgb
  highlighted : RenderableCell → Bool

def RenderableCell.new (look : Point → Cell → Look) (displayOffset : Nat) (point : Point) (cell : Cell) :
    Option RenderableCell := do
  let look := look point cell
  let flags := if look.hint then { cell.flags with underline := true } else cell.flags
  let (line, column) ← pointToViewport displayOffset point
  some { look with point := ⟨line, column⟩, flags, extra := cell.extra.isSome }

namespace Painter

/-- One round of `RenderableContent::next`: the cell, or none if it is skipped. -/
def renderable (painter : Painter) (cursorPoint : ViewportPoint) (displayOffset : Nat) (point : Point)
    (cell : Cell) : Option (Option RenderableCell) := do
  let cell ← RenderableCell.new painter.look displayOffset point cell
  if cursorPoint = cell.point then some (some { cell with fg := (painter.blockText cell).getD cell.fg })
  else if !cell.isEmpty && !cell.flags.wideCharSpacer then some (some cell)
  else some none

def cells (painter : Painter) (cursorPoint : ViewportPoint) (displayOffset : Nat) :
    List (Point × Cell) → Option (List RenderableCell)
  | [] => some []
  | (point, cell) :: rest => do
      let found ← painter.renderable cursorPoint displayOffset point cell
      let rest ← painter.cells cursorPoint displayOffset rest
      some (found.toList ++ rest)

/-- Underline hints hovered by mouse or vi mode cursor. -/
def highlight (painter : Painter) (cell : RenderableCell) : RenderableCell :=
  if painter.highlighted cell then { cell with flags := { cell.flags with underline := true } } else cell

end Painter

namespace Term

def cursorPoint (t : Term) : Option ViewportPoint := do
  let cursor ← t.renderableCursor
  let (line, column) ← pointToViewport t.grid.displayOffset cursor.point
  some ⟨line, column⟩

def gridLines (t : Term) (painter : Painter) : Option RenderLines := do
  let cursorPoint ← t.cursorPoint
  let items ← t.grid.displayIter.collect (t.grid.dims.cells + 1)
  let cells ← painter.cells cursorPoint t.grid.displayOffset items
  some ((cells.map painter.highlight).foldl RenderLines.update fun _ => [])

end Term

/-! ### Lines below a list of cells -/

def RenderableCell.Covers (cell : RenderableCell) (p : ViewportPoint) : Prop :=
  p.line = cell.point.line ∧ cell.point.column ≤ p.column ∧ p.column ≤ cell.stop.column

def RenderLine.Covers (l : RenderLine) (p : ViewportPoint) : Prop :=
  p.line = l.start.line ∧ l.start.column ≤ p.column ∧ p.column ≤ l.stop.column

/-- The second line is behind the first one, and could not be part of it. -/
def RenderLine.Apart (a b : RenderLine) : Prop :=
  a.stop.Before b.start ∧
    ¬ (a.color = b.color ∧ b.start.column = a.stop.column + 1 ∧ b.start.line = a.stop.line)

/-- The lines are exactly below the cells with the flag, in their colors, and as long as can be. -/
structure Merged (flag : LineFlag) (cells : List RenderableCell) (lines : List RenderLine) : Prop where
  row : ∀ l ∈ lines, l.start.line = l.stop.line ∧ l.start.column ≤ l.stop.column
  stop : ∀ l ∈ lines, ∃ cell ∈ cells, l.stop = cell.stop
  apart : lines.Pairwise RenderLine.Apart
  covers : ∀ p color, (∃ l ∈ lines, l.color = color ∧ l.Covers p) ↔
    ∃ cell ∈ cells, flag.of cell.flags ∧ cell.lineColor flag = color ∧ cell.Covers p

theorem RenderableCell.stop_line (cell : RenderableCell) : cell.stop.line = cell.point.line := by
  unfold stop
  split <;> rfl

theorem RenderableCell.column_le_stop (cell : RenderableCell) : cell.point.column ≤ cell.stop.column := by
  unfold stop
  split
  · exact Nat.le_succ _
  · exact Nat.le_refl _

namespace Merged
variable {flag : LineFlag} {cells : List RenderableCell} {cell : RenderableCell} {lines : List RenderLine}

theorem nil (flag : LineFlag) : Merged flag [] [] where
  row l hl := nomatch hl
  stop l hl := nomatch hl
  apart := .nil
  covers p color := by simp

/-- Places of the cells after one more, if its lines are known. -/
theorem covers_snoc (h : Merged flag cells lines) (hflag : flag.of cell.flags) {p : ViewportPoint}
    {color : Rgb} : (∃ c ∈ cells ++ [cell], flag.of c.flags ∧ c.lineColor flag = color ∧ c.Covers p) ↔
      (∃ l ∈ lines, l.color = color ∧ l.Covers p) ∨ cell.lineColor flag = color ∧ cell.Covers p := by
  rw [h.covers]
  simp only [List.mem_append, List.mem_singleton, or_and_right, exists_or, exists_eq_left, hflag, true_and]

theorem skip (h : Merged flag cells lines) (hflag : flag.of cell.flags = false) :
    Merged flag (cells ++ [cell]) lines where
  row := h.row
  stop l hl := by
    obtain ⟨c, hc, hstop⟩ := h.stop l hl
    exact ⟨c, List.mem_append_left _ hc, hstop⟩
  apart := h.apart
  covers p color := by
    rw [h.covers]
    simp only [List.mem_append, List.mem_singleton, or_and_right, exists_or, exists_eq_left, hflag,
      Bool.false_eq_true, false_and, or_false]

/-- The line is new: it is behind the last one, and not beside it in its color. -/
theorem push (h : Merged flag cells lines) (hflag : flag.of cell.flags)
    (hbehind : ∀ c ∈ cells, c.stop.Before cell.point)
    (hlast : ∀ l, lines.getLast? = some l → ¬ (cell.lineColor flag = l.color ∧
      cell.point.column = l.stop.column + 1 ∧ cell.point.line = l.stop.line)) :
    Merged flag (cells ++ [cell]) (lines ++ [⟨cell.point, cell.stop, cell.lineColor flag⟩]) where
  row l hl := by
    rcases List.mem_append.mp hl with hl | hl
    · exact h.row l hl
    · rw [List.mem_singleton.mp hl]
      exact ⟨cell.stop_line.symm, cell.column_le_stop⟩
  stop l hl := by
    rcases List.mem_append.mp hl with hl | hl
    · obtain ⟨c, hc, hstop⟩ := h.stop l hl
      exact ⟨c, List.mem_append_left _ hc, hstop⟩
    · exact ⟨cell, List.mem_append_right _ List.mem_cons_self, by rw [List.mem_singleton.mp hl]⟩
  apart := by
    refine List.pairwise_append.mpr ⟨h.apart, List.pairwise_singleton _ _, fun l hl l' hl' => ?_⟩
    rw [List.mem_singleton.mp hl']
    obtain ⟨c, hc, hstop⟩ := h.stop l hl
    refine ⟨hstop ▸ hbehind c hc, fun hjoined => ?_⟩
    have hne := List.ne_nil_of_mem hl
    have hlines := List.dropLast_append_getLast hne
    have hmem := List.getLast_mem hne
    by_cases heq : l = lines.getLast hne
    · exact hlast l (heq ▸ List.getLast?_eq_some_getLast hne)
        ⟨hjoined.1.symm, hjoined.2.1, hjoined.2.2⟩
    · have hinit : l ∈ lines.dropLast := by
        rw [← hlines] at hl
        exact (List.mem_append.mp hl).resolve_right fun h => heq (List.mem_singleton.mp h)
      have hapart := h.apart
      rw [← hlines] at hapart
      have hbefore := ((List.pairwise_append.mp hapart).2.2 l hinit _ List.mem_cons_self).1
      obtain ⟨d, hd, hdstop⟩ := h.stop _ hmem
      have hafter := hdstop ▸ hbehind d hd
      obtain ⟨hline, hcolumn⟩ := h.row _ hmem
      have hcolumn' : cell.point.column = l.stop.column + 1 := hjoined.2.1
      have hline' : cell.point.line = l.stop.line := hjoined.2.2
      simp only [ViewportPoint.Before] at hbefore hafter
      omega
  covers p color := by
    rw [h.covers_snoc hflag]
    simp only [List.mem_append, List.mem_singleton, or_and_right, exists_or, exists_eq_left]
    simp only [RenderLine.Covers, RenderableCell.Covers]

/-- The cell is right behind the last line, in its color. -/
theorem join {init : List RenderLine} {line : RenderLine} (h : Merged flag cells (init ++ [line]))
    (hflag : flag.of cell.flags) (hcolor : cell.lineColor flag = line.color)
    (hcolumn : cell.point.column = line.stop.column + 1) (hline : cell.point.line = line.stop.line) :
    Merged flag (cells ++ [cell]) (init ++ [{ line with stop := cell.stop }]) where
  row l hl := by
    rcases List.mem_append.mp hl with hl | hl
    · exact h.row l (List.mem_append_left _ hl)
    · rw [List.mem_singleton.mp hl]
      obtain ⟨hrow, hle⟩ := h.row line (List.mem_append_right _ List.mem_cons_self)
      refine ⟨by rw [cell.stop_line, hline, hrow], Nat.le_trans hle ?_⟩
      exact Nat.le_trans (Nat.le_of_lt (by omega)) cell.column_le_stop
  stop l hl := by
    rcases List.mem_append.mp hl with hl | hl
    · obtain ⟨c, hc, hstop⟩ := h.stop l (List.mem_append_left _ hl)
      exact ⟨c, List.mem_append_left _ hc, hstop⟩
    · exact ⟨cell, List.mem_append_right _ List.mem_cons_self, by rw [List.mem_singleton.mp hl]⟩
  apart := by
    obtain ⟨hinit, -, hlast⟩ := List.pairwise_append.mp h.apart
    refine List.pairwise_append.mpr ⟨hinit, List.pairwise_singleton _ _, fun l hl l' hl' => ?_⟩
    rw [List.mem_singleton.mp hl']
    exact hlast l hl line List.mem_cons_self
  covers p color := by
    rw [h.covers_snoc hflag]
    obtain ⟨hrow, hle⟩ := h.row line (List.mem_append_right _ List.mem_cons_self)
    have hstop := cell.column_le_stop
    have hcovers : ({ line with stop := cell.stop } : RenderLine).Covers p ↔
        line.Covers p ∨ cell.Covers p := by
      simp only [RenderLine.Covers, RenderableCell.Covers]
      omega
    simp only [List.mem_append, List.mem_singleton, or_and_right, exists_or, exists_eq_left, hcovers,
      hcolor, and_or_left, or_assoc]

theorem updateFlag (h : Merged flag cells lines) (hbehind : ∀ c ∈ cells, c.stop.Before cell.point) :
    Merged flag (cells ++ [cell]) (RenderLines.updateFlag lines cell flag) := by
  unfold RenderLines.updateFlag
  split
  · rename_i hflag
    cases hlast : lines.getLast? with
    | none =>
        refine h.push hflag hbehind fun l hl => ?_
        rw [hlast] at hl
        cases hl
    | some line =>
        dsimp only
        split
        · rename_i hjoined
          obtain ⟨init, rfl⟩ := List.getLast?_eq_some_iff.mp hlast
          rw [List.dropLast_concat]
          exact h.join hflag hjoined.1 hjoined.2.1 hjoined.2.2
        · rename_i hjoined
          refine h.push hflag hbehind fun l hl => ?_
          rw [hlast] at hl
          obtain rfl := Option.some.inj hl
          exact hjoined
  · rename_i hflag
    exact h.skip (Bool.eq_false_iff.mpr hflag)

/-- Of cells in reading order, none of which is behind the start of the next one. -/
theorem foldl (h : Merged flag cells lines) (rest : List RenderableCell)
    (hbehind : (cells ++ rest).Pairwise fun a b => a.stop.Before b.point) :
    Merged flag (cells ++ rest)
      (rest.foldl (fun lines cell => RenderLines.updateFlag lines cell flag) lines) := by
  induction rest generalizing cells lines with
  | nil =>
      rw [List.append_nil]
      exact h
  | cons cell rest ih =>
      rw [List.append_cons] at hbehind ⊢
      refine ih (h.updateFlag fun c hc => ?_) hbehind
      exact (List.pairwise_append.mp (List.pairwise_append.mp hbehind).1).2.2 c hc cell List.mem_cons_self

end Merged

/-! ### The lines below the grid -/

theorem pointToViewport_eq_some {displayOffset line column : Nat} {q : Point} :
    pointToViewport displayOffset q = some (line, column) ↔
      (line : Int) = q.line + displayOffset ∧ column = q.column := by
  simp only [pointToViewport, Option.bind_eq_bind, Option.bind_eq_some_iff, toUsize_eq_some,
    Option.some.injEq, Prod.mk.injEq]
  constructor
  · rintro ⟨_, hline, rfl, rfl⟩
    exact ⟨hline.symm, rfl⟩
  · rintro ⟨hline, rfl⟩
    exact ⟨line, hline.symm, rfl, rfl⟩

/-- The rendered cell is at the cell's place, and is as wide. -/
structure RenderableCell.Renders (displayOffset : Nat) (q : Point) (cell : Cell) (rc : RenderableCell) :
    Prop where
  line : (rc.point.line : Int) = q.line + displayOffset
  column : rc.point.column = q.column
  wideChar : rc.flags.wideChar = cell.flags.wideChar

theorem RenderableCell.new_returns {g : Grid Cell} {q : Point} (hq : g.Shown q)
    (look : Point → Cell → Look) (cell : Cell) :
    Returns (RenderableCell.new look g.displayOffset q cell) fun rc =>
      rc.Renders g.displayOffset q cell ∧ rc.flags.wideCharSpacer = cell.flags.wideCharSpacer := by
  have hline : ((q.line + g.displayOffset).toNat : Int) = q.line + g.displayOffset :=
    Int.toNat_of_nonneg (by have := hq.2.1; omega)
  unfold RenderableCell.new
  simp only [pointToViewport_eq_some.mpr ⟨hline, rfl⟩, Option.bind_eq_bind, Option.bind_some]
  refine .pure ⟨⟨hline, rfl, ?_⟩, ?_⟩
  · simp only
    split <;> rfl
  · simp only
    split <;> rfl

namespace Painter
variable {painter : Painter} {g : Grid Cell} {q : Point} {cell : Cell} {cursorPoint : ViewportPoint}

variable (painter cursorPoint) in
theorem renderable_returns (hq : g.Shown q) (cell : Cell) :
    Returns (painter.renderable cursorPoint g.displayOffset q cell) fun found => ∀ rc, found = some rc →
      rc.Renders g.displayOffset q cell ∧
        (rc.point = cursorPoint ∨ cell.flags.wideCharSpacer = false) := by
  refine (RenderableCell.new_returns hq painter.look cell).bind fun rc hrc => ?_
  obtain ⟨hrenders, hspacer⟩ := hrc
  split
  · rename_i hcursor
    refine .pure fun rc' hrc' => ?_
    obtain rfl := Option.some.inj hrc'
    exact ⟨⟨hrenders.line, hrenders.column, hrenders.wideChar⟩, .inl hcursor.symm⟩
  · split
    · rename_i hshown
      refine .pure fun rc' hrc' => ?_
      obtain rfl := Option.some.inj hrc'
      have hnot := (Bool.and_eq_true_iff.mp hshown).2
      rw [Bool.not_eq_true', hspacer] at hnot
      exact ⟨hrenders, .inr hnot⟩
    · exact .pure fun rc' hrc' => nomatch hrc'

variable (painter cursorPoint) in
theorem cells_returns {items : List (Point × Cell)} (hitems : ∀ x ∈ items, g.Shown x.1)
    {R : RenderableCell → RenderableCell → Prop}
    (hR : items.Pairwise fun x y => ∀ a b,
      painter.renderable cursorPoint g.displayOffset x.1 x.2 = some (some a) →
      painter.renderable cursorPoint g.displayOffset y.1 y.2 = some (some b) → R a b) :
    Returns (painter.cells cursorPoint g.displayOffset items) fun cells =>
      (∀ rc, rc ∈ cells ↔ ∃ x ∈ items,
        painter.renderable cursorPoint g.displayOffset x.1 x.2 = some (some rc)) ∧ cells.Pairwise R := by
  induction items with
  | nil => exact .pure ⟨fun rc => by simp, .nil⟩
  | cons x items ih =>
      obtain ⟨hx, hrest⟩ := List.forall_mem_cons.mp hitems
      obtain ⟨hfirst, hpairs⟩ := List.pairwise_cons.mp hR
      obtain ⟨found, hfound, -⟩ := renderable_returns painter cursorPoint hx x.2
      obtain ⟨cells, hcells, hmem, hpairwise⟩ := ih hrest hpairs
      refine ⟨found.toList ++ cells, ?_, fun rc => ?_, ?_⟩
      · rw [Painter.cells, hfound, Option.bind_eq_bind, Option.bind_some, hcells]
        rfl
      · rw [List.mem_append, hmem, Option.mem_toList]
        simp only [List.mem_cons, or_and_right, exists_or, exists_eq_left, hfound, Option.some.injEq]
      · refine List.pairwise_append.mpr ⟨?_, hpairwise, fun a ha b hb => ?_⟩
        · cases found with
          | none => exact .nil
          | some a => exact List.pairwise_singleton _ _
        · rw [Option.mem_toList] at ha
          obtain ⟨y, hy, hb⟩ := (hmem b).mp hb
          exact hfirst y hy a b (ha ▸ hfound) hb

theorem highlight_point (painter : Painter) (rc : RenderableCell) :
    (painter.highlight rc).point = rc.point := by
  unfold highlight
  split <;> rfl

theorem highlight_stop (painter : Painter) (rc : RenderableCell) :
    (painter.highlight rc).stop = rc.stop := by
  unfold highlight
  split <;> rfl

theorem highlight_lineColor (painter : Painter) (rc : RenderableCell) (flag : LineFlag) :
    (painter.highlight rc).lineColor flag = rc.lineColor flag := by
  unfold highlight
  split <;> rfl

theorem highlight_covers (painter : Painter) (rc : RenderableCell) {p : ViewportPoint} :
    (painter.highlight rc).Covers p ↔ rc.Covers p := by
  rw [RenderableCell.Covers, highlight_point, highlight_stop, RenderableCell.Covers]

end Painter

namespace Term
variable {t : Term} {painter : Painter} {cursorPoint : ViewportPoint} {q : Point} {cell : Cell}

/-- The cursor is never shown on the spacer of a fullwidth character. -/
theorem cursorPoint_not_spacer (h : t.Coupled) (hcursor : t.cursorPoint = some cursorPoint)
    (hcell : t.grid.cellAt q = some cell) (hline : (cursorPoint.line : Int) = q.line + t.grid.displayOffset)
    (hcolumn : cursorPoint.column = q.column) : cell.flags.wideCharSpacer = false := by
  simp only [Term.cursorPoint, renderableCursor, Row.wideStart, Option.bind_eq_bind, Option.bind_eq_some_iff,
    Option.some.injEq] at hcursor
  generalize (if t.mode.vi then t.viModeCursor else t.grid.cursor.point) = point at hcursor
  obtain ⟨cursor, ⟨row, hrow, column, ⟨under, hunder, hstart⟩, rfl⟩, ⟨line, column'⟩, hview, rfl⟩ := hcursor
  obtain ⟨hline', hcolumn'⟩ : (line : Int) = point.line + t.grid.displayOffset ∧ column' = column :=
    pointToViewport_eq_some.mp hview
  have hlines : (line : Int) = q.line + t.grid.displayOffset := hline
  have hpoint : (⟨point.line, column⟩ : Point) = q :=
    Point.eq_iff.mpr ⟨show point.line = q.line by omega, hcolumn'.symm.trans hcolumn⟩
  have hcellAt (column : Nat) (c : Cell) (hc : row.get column = some c) :
      t.grid.cellAt ⟨point.line, column⟩ = some c := by
    rw [Grid.cellAt, hrow]
    exact hc
  by_cases hspacer : under.flags.wideCharSpacer = true
  · -- the cursor is on the character before the spacer
    rw [if_pos hspacer, usub_eq_some] at hstart
    obtain ⟨hpos, rfl⟩ := hstart
    have hsecond : t.grid.halves.second (Point.beside q) := by
      refine ⟨under, ?_, hspacer⟩
      rw [← hpoint, Point.beside]
      simp only
      rw [Nat.sub_add_cancel hpos]
      exact hcellAt _ _ hunder
    obtain ⟨cell', hcell', hwide⟩ := (Grid.widePaired_iff.mp h.paired q).mpr hsecond
    obtain rfl := Option.some.inj (hcell.symm.trans hcell')
    refine Bool.eq_false_iff.mpr fun hboth => ?_
    exact Bool.false_ne_true ((cell_single h.stocked.grid.rows hcell hboth).symm.trans hwide)
  · rw [if_neg hspacer] at hstart
    obtain rfl := Option.some.inj hstart
    obtain rfl := Option.some.inj ((hpoint ▸ hcellAt _ _ hunder).symm.trans hcell)
    exact Bool.eq_false_iff.mpr hspacer

theorem renders_before (h : t.Coupled) (hcursor : t.cursorPoint = some cursorPoint) {x y : Point × Cell}
    (hx : t.grid.Shown x.1 ∧ t.grid.cellAt x.1 = some x.2) (hy : t.grid.Shown y.1 ∧ t.grid.cellAt y.1 = some y.2)
    (hlt : x.1 < y.1) {a b : RenderableCell}
    (ha : painter.renderable cursorPoint t.grid.displayOffset x.1 x.2 = some (some a))
    (hb : painter.renderable cursorPoint t.grid.displayOffset y.1 y.2 = some (some b)) :
    a.stop.Before b.point := by
  have ha := ((Painter.renderable_returns _ _ hx.1 x.2).of_eq ha a rfl).1
  obtain ⟨hb, hvisible⟩ := (Painter.renderable_returns _ _ hy.1 y.2).of_eq hb b rfl
  obtain ⟨haline, hacolumn, hawide⟩ := ha
  obtain ⟨hbline, hbcolumn, -⟩ := hb
  rw [Point.lt_def] at hlt
  have hnot_spacer : y.2.flags.wideCharSpacer = false := by
    rcases hvisible with hpoint | hspacer
    · exact cursorPoint_not_spacer h hcursor hy.2 (hpoint ▸ hbline) (hpoint ▸ hbcolumn)
    · exact hspacer
  unfold RenderableCell.stop ViewportPoint.Before
  split
  · rename_i hwide
    have hbeside : y.1 ≠ x.1.beside := by
      intro heq
      obtain ⟨next, hnext, hspacer⟩ :=
        (Grid.widePaired_iff.mp h.paired x.1).mp ⟨x.2, hx.2, hawide.symm.trans hwide⟩
      rw [← heq] at hnext
      obtain rfl := Option.some.inj (hy.2.symm.trans hnext)
      exact Bool.false_ne_true (hnot_spacer.symm.trans hspacer)
    rw [ne_eq, Point.eq_iff, Point.beside] at hbeside
    simp only at hbeside ⊢
    omega
  · omega

/-- Cells stop on the screen: a fullwidth character has its spacer beside it. -/
theorem renders_inside (h : t.Coupled) (hq : t.grid.Shown q) (hcell : t.grid.cellAt q = some cell)
    {rc : RenderableCell} (hrc : rc.Renders t.grid.displayOffset q cell) :
    rc.stop.line < t.grid.lines ∧ rc.stop.column < t.grid.columns := by
  obtain ⟨hline, hcolumn, hwide⟩ := hrc
  obtain ⟨⟨-, -, hcolumns⟩, -, hbottom⟩ := hq
  unfold RenderableCell.stop
  split
  · rename_i hchar
    obtain ⟨next, hnext, -⟩ :=
      (Grid.widePaired_iff.mp h.paired q).mp ⟨cell, hcell, hwide.symm.trans hchar⟩
    simp only [Grid.cellAt, Option.bind_eq_bind, Option.bind_eq_some_iff] at hnext
    obtain ⟨row, hrow, hnext⟩ := hnext
    have hlen := ((Storage.get_returns h.wf.grid.raw (Storage.hasLine_of_get hrow)).of_eq hrow).len_eq
    have hlt := (List.getElem?_eq_some_iff.mp hnext).1
    have hrowlen : row.inner.length = t.grid.columns := hlen
    simp only [Point.beside] at hlt ⊢
    omega
  · have hcol : q.column < t.grid.columns := hcolumns
    omega

/-- The lines that are drawn below the grid: for each flag they are in order and apart, each in one
row of the screen, and exactly below the cells that are rendered with the flag, in their colors. -/
theorem gridLines_exact (h : t.Coupled) (hoffset : t.grid.OffsetBounded)
    (hcursor : t.cursorPoint = some cursorPoint) (painter : Painter) :
    Returns (t.gridLines painter) fun lines => ∀ flag,
      (lines flag).Pairwise RenderLine.Apart ∧
      (∀ l ∈ lines flag, l.start.line = l.stop.line ∧ l.start.column ≤ l.stop.column ∧
        l.stop.line < t.grid.lines ∧ l.stop.column < t.grid.columns) ∧
      ∀ p color, (∃ l ∈ lines flag, l.color = color ∧ l.Covers p) ↔
        ∃ q cell rc, t.grid.Shown q ∧ t.grid.cellAt q = some cell ∧
          painter.renderable cursorPoint t.grid.displayOffset q cell = some (some rc) ∧
          flag.of (painter.highlight rc).flags ∧ rc.lineColor flag = color ∧ rc.Covers p := by
  obtain ⟨items, last, hrun, hitems, hlength⟩ := Grid.display_iterates h.wf.grid hoffset
  have hdisplays := Grid.displayIter_displays hoffset hitems
  have hshown (x : Point × Cell) (hx : x ∈ items.map Prod.snd) :
      t.grid.Shown x.1 ∧ t.grid.cellAt x.1 = some x.2 := (hdisplays.mem x.1 x.2).mp hx
  obtain ⟨cells, hcells, hmem, hordered⟩ := Painter.cells_returns painter cursorPoint
    (R := fun a b => a.stop.Before b.point) (fun x hx => (hshown x hx).1)
    (hdisplays.sorted.imp_of_mem fun hx hy hlt a b =>
      renders_before h hcursor (hshown _ hx) (hshown _ hy) hlt)
  have hpairs : (cells.map painter.highlight).Pairwise fun a b => a.stop.Before b.point := by
    rw [List.pairwise_map]
    refine hordered.imp fun {a b} hab => ?_
    rw [Painter.highlight_stop, Painter.highlight_point]
    exact hab
  unfold gridLines
  simp only [hcursor, Option.bind_eq_bind, Option.bind_some,
    collect_of_iterates hrun (Nat.lt_succ_of_le hlength), hcells]
  refine .pure fun flag => ?_
  rw [RenderLines.foldl_update]
  obtain ⟨hrow, hstop, hapart, hcovers⟩ := (Merged.nil flag).foldl _ hpairs
  rw [List.nil_append] at hstop hcovers
  refine ⟨hapart, fun l hl => ?_, fun p color => ?_⟩
  · obtain ⟨rc, hrc, hrcstop⟩ := hstop l hl
    obtain ⟨rc, hin, rfl⟩ := List.mem_map.mp hrc
    obtain ⟨x, hx, hrenders⟩ := (hmem rc).mp hin
    have hinside := renders_inside h (hshown x hx).1 (hshown x hx).2
      ((Painter.renderable_returns _ _ (hshown x hx).1 x.2).of_eq hrenders rc rfl).1
    refine ⟨(hrow l hl).1, (hrow l hl).2, ?_⟩
    rw [hrcstop, Painter.highlight_stop]
    exact hinside
  · rw [hcovers]
    constructor
    · rintro ⟨_, hrc, hflag, hcolor, hp⟩
      obtain ⟨rc, hin, rfl⟩ := List.mem_map.mp hrc
      obtain ⟨x, hx, hrenders⟩ := (hmem rc).mp hin
      rw [Painter.highlight_lineColor] at hcolor
      rw [Painter.highlight_covers] at hp
      exact ⟨x.1, x.2, rc, (hshown x hx).1, (hshown x hx).2, hrenders, hflag, hcolor, hp⟩
    · rintro ⟨q, cell, rc, hq, hcell, hrenders, hflag, hcolor, hp⟩
      have hin := (hmem rc).mpr ⟨(q, cell), (hdisplays.mem q cell).mpr ⟨hq, hcell⟩, hrenders⟩
      exact ⟨_, List.mem_map_of_mem hin, hflag, by rw [Painter.highlight_lineColor, hcolor],
        (Painter.highlight_covers painter rc).mpr hp⟩

/-- A hint of a fullwidth character and the cursor behind it is underlined by one line. -/
theorem gridLines_exact_hint : ∃ (t : Term) (painter : Painter) (lines : RenderLines),
    (new .initial 1 4).input .fullwidth '漢' = some t ∧ t.gridLines painter = some lines ∧
      lines .underline = [⟨⟨0, 0⟩, ⟨0, 2⟩, ⟨0, 0, 0⟩⟩] ∧ (lines .underline).Pairwise RenderLine.Apart := by
  let painter : Painter :=
    ⟨fun _ cell => ⟨cell.c, ⟨0, 0, 0⟩, ⟨0, 0, 0⟩, true, false⟩, fun _ => none, fun _ => true⟩
  have hprinted : Allows ((new .initial 1 4).input .fullwidth '漢') Coupled :=
    input_coupled (new_coupled .initial (by decide) (by decide)) rfl '漢'
  have hcursor : Allows ((new .initial 1 4).input .fullwidth '漢') fun t => t.cursorPoint = some ⟨0, 2⟩ := by
    intro t ht
    obtain rfl := Option.some.inj (Eq.trans ht.symm rfl)
    rfl
  obtain ⟨lines, hlines, hexact⟩ :=
    gridLines_exact (hprinted _ rfl) (Nat.zero_le _) (hcursor _ rfl) painter
  refine ⟨_, painter, lines, rfl, hlines, ?_, (hexact .underline).1⟩
  obtain rfl := Option.some.inj (Eq.trans hlines.symm rfl)
  rfl

end Term
end Velacritty
