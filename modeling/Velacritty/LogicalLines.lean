import Velacritty.Flow
import Velacritty.GridReflow
import Velacritty.StorageRows

/-! The text of a grid: its rows, from the top of the history to the bottom of the
screen, joined where they wrap. -/
namespace Velacritty
open Fallible
open Flow (Piece Reading feed trim)

namespace Cell

def unwrapped (cell : Cell) : Cell := { cell with flags := { cell.flags with wrapline := false } }

/-- Neither a fullwidth character nor a spacer. -/
structure Narrow (cell : Cell) : Prop where
  wideChar : cell.flags.wideChar = false
  wideCharSpacer : cell.flags.wideCharSpacer = false
  leadingWideCharSpacer : cell.flags.leadingWideCharSpacer = false

instance (cell : Cell) : Decidable cell.Narrow :=
  decidable_of_iff (cell.flags.wideChar = false ∧ cell.flags.wideCharSpacer = false ∧
    cell.flags.leadingWideCharSpacer = false) ⟨fun ⟨h, h', h''⟩ => ⟨h, h', h''⟩, fun ⟨h, h', h''⟩ => ⟨h, h', h''⟩⟩

theorem unwrapped_of_false {cell : Cell} (h : cell.flags.wrapline = false) : cell.unwrapped = cell := by
  obtain ⟨c, fg, bg, flags, extra⟩ := cell
  obtain ⟨⟩ := flags
  cases h
  rfl

theorem isEmpty_wrapline {cell : Cell} (h : cell.isEmpty = true) : cell.flags.wrapline = false := by
  simp only [isEmpty, Bool.and_eq_true, Bool.not_eq_true', Bool.or_eq_false_iff] at h
  exact h.1.2.1.1.2

theorem isEmpty_unwrapped {cell : Cell} (h : cell.isEmpty = true) : cell.unwrapped.isEmpty = true := by
  rw [unwrapped_of_false (isEmpty_wrapline h)]
  exact h

theorem narrow_default : (default : Cell).Narrow := ⟨rfl, rfl, rfl⟩

theorem Narrow.setWrapline {cell : Cell} (h : cell.Narrow) (b : Bool) :
    (Velacritty.setWrapline b cell).Narrow := ⟨h.wideChar, h.wideCharSpacer, h.leadingWideCharSpacer⟩

end Cell

/-! ### Cells as a piece of text -/

/-- The line goes on after these cells. -/
def wraps (cells : List Cell) : Bool := cells.getLast?.any fun cell => cell.flags.wrapline

/-- Wrap flags may only stand at the end. -/
def WrapsLast (cells : List Cell) : Prop := ∀ cell ∈ cells.dropLast, cell.flags.wrapline = false

instance (cells : List Cell) : Decidable (WrapsLast cells) :=
  inferInstanceAs (Decidable (∀ cell ∈ cells.dropLast, cell.flags.wrapline = false))

def pieceOf (cells : List Cell) : Piece Cell := ⟨cells.map Cell.unwrapped, wraps cells⟩

section Cells
variable {cells : List Cell} {n : Nat}

theorem updateLast_eq {α : Type} (f : α → α) {l : List α} (h : l ≠ []) :
    updateLast f l = l.dropLast ++ [f (l.getLast h)] := by
  conv_lhs => rw [← List.dropLast_append_getLast h]
  exact updateLast_concat f _ _

theorem wraps_concat (cells : List Cell) (cell : Cell) : wraps (cells ++ [cell]) = cell.flags.wrapline := by
  rw [wraps, List.getLast?_concat]
  rfl

theorem wraps_append (cells : List Cell) {cells' : List Cell} (h : cells' ≠ []) :
    wraps (cells ++ cells') = wraps cells' := by
  rw [wraps, wraps, List.getLast?_append_of_ne_nil _ h]

theorem wraps_of_isEmpty (h : ∀ cell ∈ cells, cell.isEmpty = true) : wraps cells = false := by
  rw [wraps, Option.any_eq_false]
  exact fun cell hcell => Cell.isEmpty_wrapline (h cell (List.mem_of_getLast? hcell))

/-- Only the flag of the last cell changes, which is no content. -/
theorem pieceOf_updateLast (b : Bool) (h : cells ≠ []) :
    pieceOf (updateLast (setWrapline b) cells) = ⟨cells.map Cell.unwrapped, b⟩ := by
  rw [pieceOf, updateLast_eq _ h, wraps_concat]
  conv_rhs => rw [← List.dropLast_append_getLast h]
  simp only [List.map_append, List.map_cons, List.map_nil]
  rfl

theorem pieceOf_append (cells : List Cell) {cells' : List Cell} (h : cells' ≠ []) :
    pieceOf (cells ++ cells') =
      ⟨cells.map Cell.unwrapped ++ cells'.map Cell.unwrapped, wraps cells'⟩ := by
  rw [pieceOf, wraps_append cells h, List.map_append]

/-- If the line ends here, no cell has the flag. -/
theorem WrapsLast.unflagged (h : WrapsLast cells) (hw : wraps cells = false) :
    ∀ cell ∈ cells, cell.flags.wrapline = false := by
  intro cell hcell
  have hne := List.ne_nil_of_mem hcell
  rw [← List.dropLast_append_getLast hne] at hcell hw
  rcases List.mem_append.mp hcell with hcell | hcell
  · exact h cell hcell
  · rw [wraps_concat] at hw
    rwa [List.mem_singleton.mp hcell]

def contentOf (cells : List Cell) : List Cell := cells.rdropWhile Cell.isEmpty

def wrapEnd (cells : List Cell) : Option Nat :=
  if wraps (contentOf cells) then some (contentOf cells).length else none

/-- Where the content of cells ends in a wrap flag that is not the last cell's. -/
def strayEnd (cells : List Cell) : Option Nat := if wraps cells then none else wrapEnd cells

theorem contentOf_append_blank (cells : List Cell) {blanks : List Cell}
    (h : ∀ cell ∈ blanks, cell.isEmpty = true) : contentOf (cells ++ blanks) = contentOf cells :=
  Flow.rdropWhile_append_of_forall cells h

theorem contentOf_append (cells : List Cell) {cells' : List Cell} (h : contentOf cells' ≠ []) :
    contentOf (cells ++ cells') = cells ++ contentOf cells' := by
  rw [contentOf, Flow.rdropWhile_append]
  exact if_neg fun hnil => h (List.isEmpty_iff.mp hnil)

theorem contentOf_subset : ∀ cell ∈ contentOf cells, cell ∈ cells :=
  fun _ hcell => (List.rdropWhile_prefix (p := Cell.isEmpty) _).subset hcell

theorem contentOf_of_wraps (h : wraps cells = true) : contentOf cells = cells := by
  refine List.rdropWhile_eq_self_iff.mpr fun hne hempty => ?_
  rw [← List.dropLast_append_getLast hne, wraps_concat, Cell.isEmpty_wrapline hempty] at h
  cases h

theorem wrapEnd_of_content {cells' : List Cell} (h : contentOf cells = cells')
    (hw : wraps cells' = true) : wrapEnd cells = some cells'.length := by
  rw [wrapEnd, h, if_pos hw]

theorem mem_wrapEnd {k : Nat} (h : k ∈ wrapEnd cells) :
    wraps (contentOf cells) = true ∧ k = (contentOf cells).length := by
  unfold wrapEnd at h
  split at h
  · next hw => exact ⟨hw, (Option.mem_some.mp h).symm⟩
  · cases h

theorem length_contentOf_le (cells : List Cell) : (contentOf cells).length ≤ cells.length :=
  (List.rdropWhile_prefix (p := Cell.isEmpty) cells).length_le

/-- Behind other cells, a flag is as far behind them. -/
theorem mem_wrapEnd_append {cells' : List Cell} {k : Nat} (h : k ∈ wrapEnd (cells ++ cells')) :
    k ≤ cells.length ∨ ∃ k' ∈ wrapEnd cells', k = cells.length + k' := by
  obtain ⟨hw, rfl⟩ := mem_wrapEnd h
  by_cases hnil : contentOf cells' = []
  · rw [contentOf_append_blank cells (List.rdropWhile_eq_nil_iff.mp hnil)]
    exact .inl (length_contentOf_le cells)
  · rw [contentOf_append cells hnil, wraps_append _ hnil] at hw
    refine .inr ⟨_, wrapEnd_of_content rfl hw, ?_⟩
    rw [contentOf_append cells hnil, List.length_append]

/-- Only blanks are behind a flag. -/
theorem wrapEnd_of_take (hw : wraps (cells.take n) = true) (hn : n ≤ cells.length)
    (hblank : ∀ cell ∈ cells.drop n, cell.isEmpty = true) : wrapEnd cells = some n := by
  have hcontent : contentOf cells = cells.take n := by
    conv_lhs => rw [← List.take_append_drop n cells]
    rw [contentOf_append_blank _ hblank, contentOf_of_wraps hw]
  rw [wrapEnd_of_content hcontent hw, List.length_take, Nat.min_eq_left hn]

theorem strayEnd_of_wrapEnd (h : wraps cells = false) : strayEnd cells = wrapEnd cells :=
  if_neg (Bool.eq_false_iff.mp h)

/-- Flags that are only at the end of a row are not astray. -/
theorem WrapsLast.strayEnd (h : WrapsLast cells) : strayEnd cells = none := by
  unfold Velacritty.strayEnd
  split
  · rfl
  · next hw =>
      refine if_neg fun hcontent => ?_
      rw [wraps, Option.any_eq_true] at hcontent
      obtain ⟨cell, hcell, hflag⟩ := hcontent
      rw [h.unflagged (Bool.eq_false_iff.mpr hw) cell (contentOf_subset cell (List.mem_of_getLast? hcell))] at hflag
      cases hflag

theorem isEmpty_map_unwrapped (h : ∀ cell ∈ cells, cell.isEmpty = true) :
    ∀ cell ∈ cells.map Cell.unwrapped, cell.isEmpty = true := by
  intro cell hcell
  obtain ⟨old, hold, rfl⟩ := List.mem_map.mp hcell
  exact Cell.isEmpty_unwrapped (h old hold)

theorem isEmpty_replicate (k : Nat) : ∀ cell ∈ List.replicate k (default : Cell), cell.isEmpty = true :=
  fun cell hcell => by rw [List.eq_of_mem_replicate hcell]; rfl

end Cells

namespace Row
variable {r : Row Cell}

def piece (r : Row Cell) : Piece Cell := pieceOf r.inner

def Narrow (r : Row Cell) : Prop := ∀ cell ∈ r.inner, cell.Narrow

def WrapsAtEnd (r : Row Cell) : Prop := WrapsLast r.inner

instance (r : Row Cell) : Decidable r.Narrow := inferInstanceAs (Decidable (∀ cell ∈ r.inner, cell.Narrow))

instance (r : Row Cell) : Decidable r.WrapsAtEnd := inferInstanceAs (Decidable (WrapsLast r.inner))

/-- A row of a grid, before its width changes. -/
structure Shaped (width : Nat) (r : Row Cell) : Prop where
  len_eq : r.len = width
  narrow : r.Narrow

theorem isClear_iff : r.isClear = true ↔ ∀ cell ∈ r.inner, cell.isEmpty = true := List.all_eq_true

theorem piece_modifyLast (b : Bool) (h : r.inner ≠ []) :
    (r.modifyLast (setWrapline b)).piece = ⟨r.inner.map Cell.unwrapped, b⟩ := pieceOf_updateLast b h

theorem Narrow.modifyLast (h : r.Narrow) (b : Bool) : (r.modifyLast (setWrapline b)).Narrow := by
  intro cell hcell
  simp only [Row.modifyLast] at hcell
  by_cases hne : r.inner = []
  · rw [hne, updateLast_nil] at hcell
    exact absurd hcell List.not_mem_nil
  · rw [updateLast_eq _ hne] at hcell
    rcases List.mem_append.mp hcell with hcell | hcell
    · exact h cell (List.mem_of_mem_dropLast hcell)
    · rw [List.mem_singleton.mp hcell]
      exact (h _ (List.getLast_mem hne)).setWrapline b

end Row

/-- What the rows say, read from the oldest to the newest. -/
def readRows (rows : List (Row Cell)) : Reading Cell := Flow.read Cell.isEmpty (rows.map Row.piece)

/-- The lines that rows are parts of, up to the last one with content. -/
def logicalLines (rows : List (Row Cell)) : List (List Cell) :=
  Flow.text Cell.isEmpty (rows.map Row.piece)

/-- Each row meets a condition on how many cells of its line are above it. -/
def EachRow (P : Nat → Row Cell → Prop) : Reading Cell → List (Row Cell) → Prop
  | _, [] => True
  | said, row :: rows => P said.pending.length row ∧ EachRow P (feed Cell.isEmpty said row.piece) rows

def decidableEachRow (P : Nat → Row Cell → Prop) [∀ n r, Decidable (P n r)] :
    (said : Reading Cell) → (rows : List (Row Cell)) → Decidable (EachRow P said rows)
  | _, [] => isTrue trivial
  | said, row :: rows =>
      have := decidableEachRow P (feed Cell.isEmpty said row.piece) rows
      inferInstanceAs (Decidable (P said.pending.length row ∧ EachRow P _ rows))

instance (P : Nat → Row Cell → Prop) [∀ n r, Decidable (P n r)] (said : Reading Cell)
    (rows : List (Row Cell)) : Decidable (EachRow P said rows) := decidableEachRow P said rows

section EachRow
variable {P Q : Nat → Row Cell → Prop} {said : Reading Cell} {rows : List (Row Cell)}

theorem EachRow.of_forall (h : ∀ r ∈ rows, ∀ n, P n r) (said : Reading Cell) : EachRow P said rows := by
  induction rows generalizing said with
  | nil => trivial
  | cons row rest ih =>
      rw [List.forall_mem_cons] at h
      exact ⟨h.1 _, ih h.2 _⟩

end EachRow

theorem readRows_concat (rows : List (Row Cell)) (row : Row Cell) :
    readRows (rows ++ [row]) = feed Cell.isEmpty (readRows rows) row.piece := by
  rw [readRows, List.map_append]
  exact Flow.read_concat _ _

theorem readRows_cons_reverse (row : Row Cell) (rows : List (Row Cell)) :
    readRows (row :: rows).reverse = feed Cell.isEmpty (readRows rows.reverse) row.piece := by
  rw [List.reverse_cons, readRows_concat]

/-- Where a column of the row that follows `rows` is in the text: the lines that end
before it, and its offset in its own line. -/
def placeOf (rows : List (Row Cell)) (column : Nat) : Nat × Nat :=
  ((readRows rows).lines.length, (readRows rows).pending.length + column)

theorem placeOf_wraps {row : Row Cell} (h : wraps row.inner = true) (rows : List (Row Cell)) (column : Nat) :
    placeOf (row :: rows).reverse column = placeOf rows.reverse (row.len + column) := by
  rw [placeOf, readRows_cons_reverse, Row.piece, pieceOf, h]
  simp only [feed, if_true, placeOf, List.length_append, List.length_map, Row.len, Nat.add_assoc]

/-- The next rows start behind the cells of a row, and behind its end if it does not wrap. -/
theorem placeOf_lt {row : Row Cell} {column : Nat}
    (h : column < row.len ∨ wraps row.inner = false) (rows more : List (Row Cell)) :
    (placeOf rows column).1 < (placeOf (rows ++ row :: more) 0).1 ∨
      (placeOf rows column).1 = (placeOf (rows ++ row :: more) 0).1 ∧
        (placeOf rows column).2 < (placeOf (rows ++ row :: more) 0).2 := by
  have hread : readRows (rows ++ row :: more) =
      (more.map Row.piece).foldl (feed Cell.isEmpty) (feed Cell.isEmpty (readRows rows) row.piece) := by
    rw [readRows, List.map_append, Flow.read_append]
    rfl
  have hupTo : (feed Cell.isEmpty (readRows rows) row.piece).UpTo
      ((more.map Row.piece).foldl (feed Cell.isEmpty) (feed Cell.isEmpty (readRows rows) row.piece)) :=
    Flow.foldl_upTo _ _
  rw [← hread] at hupTo
  simp only [placeOf, Reading.UpTo] at hupTo ⊢
  by_cases hw : wraps row.inner = true
  · have hcol := h.resolve_right fun hno => by rw [hno] at hw; cases hw
    simp only [feed, Row.piece, pieceOf, hw, if_true, List.length_append, List.length_map] at hupTo
    unfold Row.len at hcol
    omega
  · simp only [feed, Row.piece, pieceOf, Bool.eq_false_iff.mpr hw, Bool.false_eq_true, if_false,
      List.length_append, List.length_singleton] at hupTo
    omega

def Cursor.pastColumn {T : Type} (cursor : Cursor T) : Nat :=
  cursor.point.column + if cursor.inputNeedsWrap then 1 else 0

namespace Grid

/-- All rows, from the top of the history to the bottom of the screen. -/
def textRows (g : Grid Cell) : List (Row Cell) := g.raw.rows.reverse

def rowsAbove (g : Grid Cell) : List (Row Cell) :=
  g.textRows.take (g.historySize + g.cursor.point.line.toNat)

def cursorRow (g : Grid Cell) : Option (Row Cell) :=
  g.textRows[g.historySize + g.cursor.point.line.toNat]?

/-- How many cells of the line under way are above the cursor's row. -/
def pendingAbove (g : Grid Cell) : Nat := (readRows g.rowsAbove).pending.length

def cursorPlace (g : Grid Cell) : Nat × Nat := placeOf g.rowsAbove g.cursor.pastColumn

/-- The text from `p` on is not above the screen, where `dropped` rows are gone from the
history. -/
def OnScreen (dropped : List (Row Cell)) (g : Grid Cell) (p : Nat × Nat) : Prop :=
  let top := placeOf (dropped ++ g.textRows.take g.historySize) 0
  top.1 < p.1 ∨ top.1 = p.1 ∧ top.2 ≤ p.2

/-- No fullwidth characters, and wrap flags only at the end of a row. -/
def Readable (g : Grid Cell) : Prop := ∀ r ∈ g.textRows, r.Narrow ∧ r.WrapsAtEnd

instance (g : Grid Cell) : Decidable g.Readable :=
  inferInstanceAs (Decidable (∀ r ∈ g.textRows, r.Narrow ∧ r.WrapsAtEnd))

variable {g : Grid Cell}

theorem WF.pastColumn_le (hg : g.WF) : g.cursor.pastColumn ≤ g.columns := by
  have := hg.cursor.column_lt
  unfold Cursor.pastColumn
  split <;> omega

/-- No fullwidth characters. -/
def Narrow (g : Grid Cell) : Prop := ∀ r ∈ g.textRows, r.Narrow

instance (g : Grid Cell) : Decidable g.Narrow := inferInstanceAs (Decidable (∀ r ∈ g.textRows, r.Narrow))

theorem Readable.narrow (hr : g.Readable) : g.Narrow := fun r hr' => (hr r hr').1

theorem Readable.strayEnd (hr : g.Readable) : ∀ r ∈ g.textRows, strayEnd r.inner = none :=
  fun r hr' => WrapsLast.strayEnd (hr r hr').2

theorem Narrow.rows (hn : g.Narrow) (h : g.WF) : ∀ r ∈ g.textRows, r.Shaped g.columns := by
  intro r hr
  have hmem : r ∈ g.raw.inner := List.mem_rotate.mp (List.mem_of_mem_take (List.mem_reverse.mp hr))
  exact ⟨(h.raw.rows r hmem).len_eq, hn r hr⟩

theorem unwrapCursor_pastColumn (g : Grid Cell) :
    (g.unwrapCursor true).cursor.point.column = g.cursor.pastColumn := by
  unfold unwrapCursor Cursor.pastColumn
  rw [Bool.and_true]
  split
  · rfl
  · rfl

theorem adoptRows_textRows (g : Grid Cell) (rows : List (Row Cell)) :
    (g.adoptRows rows).textRows = rows.reverse := by
  have hrows : (g.raw.replaceInner rows).rows = rows := by
    rw [Storage.rows, Storage.ring_of_zero rfl]
    exact List.take_length
  exact congrArg List.reverse hrows

/-- In a list of rows with the bottommost first, they are behind the cursor's. -/
theorem WF.rowsAbove (h : g.WF) : ∃ n : Nat, (n : Int) = g.below ∧ n < g.raw.rows.length ∧
    g.rowsAbove = (g.raw.rows.drop (n + 1)).reverse := by
  have hlo := h.cursor.line_nonneg
  have hhi := h.cursor.line_lt
  have hvis := h.visible
  have hle := h.lines_le
  have hlen := h.raw.filled.length_rows
  refine ⟨g.below.toNat, ?_, ?_, ?_⟩
  · simp only [Grid.below]
    omega
  · simp only [Grid.below]
    omega
  · rw [Grid.rowsAbove, textRows, List.take_reverse, hlen]
    congr 2
    simp only [historySize_eq, Grid.below]
    omega

theorem WF.cursorRow (h : g.WF) : ∃ row below, g.cursorRow = some row ∧
    (below.length : Int) = g.below ∧ g.textRows = g.rowsAbove ++ row :: below := by
  have hlo := h.cursor.line_nonneg
  have hhi := h.cursor.line_lt
  have hle := h.lines_le
  have hlen := h.raw.filled.length_rows
  have hlt : g.historySize + g.cursor.point.line.toNat < g.textRows.length := by
    rw [textRows, List.length_reverse, hlen]
    simp only [historySize_eq]
    omega
  refine ⟨_, g.textRows.drop (g.historySize + g.cursor.point.line.toNat + 1),
    List.getElem?_eq_getElem hlt, ?_, ?_⟩
  · rw [List.length_drop, textRows, List.length_reverse, hlen]
    simp only [historySize_eq, Grid.below]
    omega
  · rw [Grid.rowsAbove, ← List.drop_eq_getElem_cons hlt, List.take_append_drop]

end Grid
end Velacritty
