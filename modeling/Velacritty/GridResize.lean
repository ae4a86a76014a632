import Velacritty.Grid
import Velacritty.Fallible

/-! Grid resize and reflow. Rows are visited from the top of the history down, and
the vectors they are pushed to are kept newest first. -/
namespace Velacritty
variable {T : Type} [GridCell T]

def setWrapline (b : Bool) : T → T := GridCell.modifyFlags fun f => { f with wrapline := b }

/-- The placeholder in front of a fullwidth character that did not fit. -/
def leadingSpacer : T :=
  GridCell.modifyFlags (fun f => { f with leadingWideCharSpacer := true }) default

namespace Grid

/-- Add lines to the visible area, taking them from the history as long as there
is any. -/
def growLines (g : Grid T) (target : Nat) : Option (Grid T) := do
  let linesAdded ← usub target g.lines
  let raw ← g.raw.growVisibleLines target
  let g := { g with raw, lines := target }
  let fromHistory := min g.historySize linesAdded
  let g ← (if fromHistory ≠ linesAdded then g.scrollUp 0 target (linesAdded - fromHistory)
    else some g)
  let g := { g with
    savedCursor.point.line := g.savedCursor.point.line + fromHistory
    cursor.point.line := g.cursor.point.line + fromHistory
    displayOffset := g.displayOffset - linesAdded }
  g.decreaseScrollLimit linesAdded

/-- Remove lines from the visible area, keeping the cursor inside of it. -/
def shrinkLines (g : Grid T) (target : Nat) : Option (Grid T) := do
  let cursorLine ← toUsize g.cursor.point.line
  let requiredScrolling := cursorLine + 1 - target
  let g ← (if 0 < requiredScrolling then do
      let g ← g.scrollUp 0 g.lines requiredScrolling
      some { g with cursor.point.line := min g.cursor.point.line ((target : Int) - 1) }
    else some g)
  let g := { g with savedCursor.point.line := min g.savedCursor.point.line ((target : Int) - 1) }
  let removed ← usub g.lines target
  let raw ← g.raw.rotate removed
  let raw ← raw.shrinkVisibleLines target
  some { g with raw, lines := target }

/-- Remove the linewrap special case, by moving the cursor outside of the grid. -/
def unwrapCursor (g : Grid T) (reflow : Bool) : Grid T :=
  if g.cursor.inputNeedsWrap && reflow then
    { g with
      cursor.inputNeedsWrap := false
      cursor.point.column := g.cursor.point.column + 1 }
  else g

/-- Use the rows as the new grid storage, and clamp the display offset in case lines
above it got merged or went off. -/
def adoptRows (g : Grid T) (rows : List (Row T)) : Grid T :=
  let g := { g with raw := g.raw.replaceInner rows }
  { g with displayOffset := min g.displayOffset g.historySize }

/-- The cursor's line counted from the bottom of the screen. -/
def cursorBufferLine (g : Grid T) : Option Nat := do
  let line ← toUsize g.cursor.point.line
  let below ← usub g.lines line
  usub below 1

end Grid

/-! ### Growing -/

/-- Check if a row needs to be wrapped. -/
def shouldReflow (reflow : Bool) (columns : Nat) (row : Row T) : Bool :=
  reflow && decide (0 < row.len) && decide (row.len < columns) &&
    (row.last.any fun cell => (GridCell.flags cell).wrapline)

/-- The loop variables of `grow_columns`. -/
structure GrowState (T : Type) where
  grid : Grid T
  reversed : List (Row T)
  cursorLineDelta : Nat

/-- Make the end of a wrapped row ready for additional cells. -/
def unwrapRow (lastRow : Row T) : Row T :=
  let lastRow := lastRow.modifyLast (setWrapline false)
  if lastRow.last.any fun cell => (GridCell.flags cell).leadingWideCharSpacer then
    (lastRow.shrink (lastRow.len - 1)).1
  else lastRow

/-- Pull cells from `row` to the end of `lastRow`. Returns both rows and the
number of columns that were free. -/
def pullCells (columns : Nat) (lastRow row : Row T) : Option (Row T × Row T × Nat) := do
  let lastRow := unwrapRow lastRow
  let numWrapped ← usub columns lastRow.len
  let len := min row.len numWrapped
  let lastPulled ← usub len 1
  let cell ← row.get lastPulled
  if (GridCell.flags cell).wideChar then
    let numWrapped ← usub numWrapped 1
    let (cells, row) ← row.frontSplitOff lastPulled
    some (lastRow.append (cells ++ [leadingSpacer]), row, numWrapped)
  else
    let (cells, row) ← row.frontSplitOff len
    some (lastRow.append cells, row, numWrapped)

/-- Where the cursor goes when `numWrapped` cells leave its row, and whether it is
clamped to the last column because no content was reflown with it. -/
def reflowTarget (d : Dimensions) (p : Point) (numWrapped : Nat) (rowClear : Bool) : Point × Bool :=
  let target := p.sub d .cursor numWrapped
  if target.column = 0 ∧ rowClear = true then (target.sub d .cursor 1, true) else (target, false)

/-- Resize cursor's line and reflow the cursor if necessary: the new cursor, and
the number of lines it moved up. -/
def reflowCursor (g : Grid T) (columns numWrapped : Nat) (rowClear : Bool) :
    Option (Grid T × Nat) := do
  let (target, clamp) := reflowTarget ⟨0, g.lines, columns⟩ g.cursor.point numWrapped rowClear
  let lineDelta ← toUsize (g.cursor.point.line - target.line)
  some ({ g with
    cursor.inputNeedsWrap := g.cursor.inputNeedsWrap || clamp
    cursor.point.column := target.column }, lineDelta)

/-- Visit row `i`, counted from the bottom. -/
def growRow (reflow : Bool) (columns i : Nat) (row : Row T) (st : GrowState T) :
    Option (GrowState T) :=
  match st.reversed with
  | [] => some { st with reversed := [row] }
  | lastRow :: above =>
      if shouldReflow reflow columns lastRow then do
        let (lastRow, row, numWrapped) ← pullCells columns lastRow row
        let pushed := row :: lastRow.modifyLast (setWrapline true) :: above
        let cursorBufferLine ← st.grid.cursorBufferLine
        if i = cursorBufferLine ∧ reflow = true then
          let (grid, lineDelta) ← reflowCursor st.grid columns numWrapped row.isClear
          if lineDelta ≠ 0 ∧ row.isClear = true then
            some { st with grid, reversed := lastRow :: above }
          else
            some ⟨grid, pushed, st.cursorLineDelta + lineDelta⟩
        else if row.isClear then
          some { st with
            grid := { st.grid with
              displayOffset :=
                if i < st.grid.displayOffset then st.grid.displayOffset - 1 else st.grid.displayOffset
              cursor.point.line :=
                if i < cursorBufferLine then st.grid.cursor.point.line + 1
                else st.grid.cursor.point.line }
            reversed := lastRow :: above }
        else some { st with reversed := pushed }
      else some { st with reversed := row :: st.reversed }

/-- Visit the rows from the top down; the tail's length is the row's index. -/
def growRows (reflow : Bool) (columns : Nat) : List (Row T) → GrowState T → Option (GrowState T)
  | [], st => some st
  | row :: rest, st => do
      let st ← growRow reflow columns rest.length row st
      growRows reflow columns rest st

/-- Make sure we have at least the viewport filled. -/
def fillViewport (columns : Nat) (st : GrowState T) : GrowState T :=
  if st.reversed.length < st.grid.lines then
    let delta := st.grid.lines - st.reversed.length
    { st with
      grid := { st.grid with cursor.point.line := max (st.grid.cursor.point.line - delta) 0 }
      reversed := List.replicate delta (Row.new columns) ++ st.reversed }
  else st

/-- Pull content down to put cursor in correct position, or move cursor up if
there's no more lines to delete below the cursor. -/
def pullDown (st : GrowState T) : Option (GrowState T) :=
  if st.cursorLineDelta ≠ 0 then do
    let cursorBufferLine ← st.grid.cursorBufferLine
    let spare ← usub st.reversed.length st.grid.lines
    let available := min cursorBufferLine spare
    let overflow := st.cursorLineDelta - available
    let kept ← usub (st.reversed.length + overflow) st.cursorLineDelta
    some { st with
      grid := { st.grid with cursor.point.line := max (st.grid.cursor.point.line - overflow) 0 }
      reversed := st.reversed.drop (st.reversed.length - kept) }
  else some st

namespace Grid

def growColumns (g : Grid T) (reflow : Bool) (columns : Nat) : Option (Grid T) := do
  let g := { g with columns }.unwrapCursor reflow
  let (rows, raw) ← g.raw.takeAll
  let st ← growRows reflow columns rows.reverse ⟨{ g with raw }, [], 0⟩
  let st ← pullDown (fillViewport columns st)
  some (st.grid.adoptRows (st.reversed.map (Row.grow · columns)))

end Grid

/-! ### Shrinking -/

/-- The loop variables of `shrink_columns`. -/
structure ShrinkState (T : Type) where
  grid : Grid T
  newRaw : List (Row T)
  buffered : Option (List T)

/-- How cells that no longer fit leave the row: the row that stays, and the cells
that wrap, unless only a leading spacer is left over. -/
inductive WrapSplit (T : Type) where
  | wrapped (row : Row T) (cells : List T)
  | spacerOnly (row : Row T)

def splitWrapped (columns : Nat) (row : Row T) (wrapped : List T) : Option (WrapSplit T) := do
  let lastColumn ← usub columns 1
  let wide := decide (columns ≤ row.len) &&
    ((row.get lastColumn).any fun cell => (GridCell.flags cell).wideChar)
  let (row, wrapped) ← (if wide then do
      let wideChar ← row.get lastColumn
      let row ← row.modify lastColumn fun _ => leadingSpacer
      some (row, wideChar :: wrapped)
    else some (row, wrapped))
  if wrapped.getLast?.any fun cell => (GridCell.flags cell).leadingWideCharSpacer then
    if wrapped.length = 1 then
      let row ← row.modify lastColumn (setWrapline true)
      some (.spacerOnly row)
    else
      some (.wrapped row (updateLast (setWrapline true) wrapped.dropLast))
  else some (.wrapped row wrapped)

/-- The cells continue as a line of their own: move the cursor and the viewport
along and make the cells a row. -/
def startWrappedRow (columns i : Nat) (wrapped : List T) (g : Grid T) :
    Option (Row T × Grid T) := do
  let cursorBufferLine ← g.cursorBufferLine
  let line := if (i = cursorBufferLine ∧ g.cursor.point.column < columns) ∨ i < cursorBufferLine then
      max (g.cursor.point.line - 1) 0
    else g.cursor.point.line
  let column := if i = cursorBufferLine ∧ columns ≤ g.cursor.point.column then
      g.cursor.point.column - columns
    else g.cursor.point.column
  let row := Row.fromVec (wrapped ++ List.replicate (columns - wrapped.length) default) wrapped.length
  some (row, { g with
    cursor.point := ⟨line, column⟩
    displayOffset := if i < g.displayOffset then g.displayOffset + 1 else g.displayOffset })

/-- The cells that have to leave row `i`, if it needs reflowing at all. Empty cells
before the cursor are explicit whitespace and wrap like normal content. -/
def wrappedCells (reflow : Bool) (columns i : Nat) (removed : Option (List T)) (g : Grid T) :
    Option (Option (List T)) :=
  match removed, reflow with
  | some wrapped, true => some (some wrapped)
  | _, _ => do
      let cursorBufferLine ← g.cursorBufferLine
      some (if reflow = true ∧ i = cursorBufferLine ∧ columns < g.cursor.point.column then some []
        else none)

/-- One round of the inner loop: push what fits of row `i`. The rest joins the next
row, or becomes the row of the next round. -/
def shrinkStep (reflow : Bool) (columns i : Nat) :
    Row T × ShrinkState T → Option (ShrinkState T ⊕ Row T × ShrinkState T)
  | (row, st) => do
      let (row, removed) := row.shrink columns
      match ← wrappedCells reflow columns i removed st.grid with
      | none => some (.inl { st with newRaw := row :: st.newRaw })
      | some wrapped =>
          match ← splitWrapped columns row wrapped with
          | .spacerOnly row => some (.inl { st with newRaw := row :: st.newRaw })
          | .wrapped row wrapped =>
              let newRaw := row.modifyLast (setWrapline true) :: st.newRaw
              if (wrapped.getLast?.any fun cell => (GridCell.flags cell).wrapline) = true ∧ 1 ≤ i ∧
                  wrapped.length < columns then
                some (.inl { st with newRaw, buffered := some (updateLast (setWrapline false) wrapped) })
              else
                let (row, grid) ← startWrappedRow columns i wrapped st.grid
                some (.inr (row, { st with grid, newRaw }))

/-- The inner loop: split row `i` until what is left fits or joins the next row. -/
def shrinkRow (reflow : Bool) (columns i : Nat) (row : Row T) (st : ShrinkState T) :
    Option (ShrinkState T) :=
  Fallible.loop (shrinkStep reflow columns i) (row.len + st.grid.cursor.point.column + 1) (row, st)

/-- Append cells left over from the previous row; the cursor moves with its row. -/
def prependBuffered (i : Nat) (row : Row T) (st : ShrinkState T) :
    Option (Row T × ShrinkState T) :=
  match st.buffered with
  | none => some (row, st)
  | some buffered => do
      let cursorBufferLine ← st.grid.cursorBufferLine
      let column := if i = cursorBufferLine then st.grid.cursor.point.column + buffered.length
        else st.grid.cursor.point.column
      some (row.appendFront buffered,
        { st with grid := { st.grid with cursor.point.column := column }, buffered := none })

def shrinkRows (reflow : Bool) (columns : Nat) :
    List (Row T) → ShrinkState T → Option (ShrinkState T)
  | [], st => some st
  | row :: rest, st => do
      let (row, st) ← prependBuffered rest.length row st
      let st ← shrinkRow reflow columns rest.length row st
      shrinkRows reflow columns rest st

namespace Grid

def settleCursor (g : Grid T) (reflow : Bool) (columns : Nat) : Option (Grid T) := do
  let lastColumn ← usub columns 1
  if reflow = false then
    some { g with cursor.point.column := min g.cursor.point.column lastColumn }
  else
    let pending ← (if g.cursor.point.column = columns then do
        let cell ← g.cellAt ⟨g.cursor.point.line, lastColumn⟩
        some (!(GridCell.flags cell).wrapline)
      else some false)
    if pending then
      some { g with
        cursor.inputNeedsWrap := true
        cursor.point.column := g.cursor.point.column - 1 }
    else some { g with cursor.point := g.cursor.point.gridClamp g.dims .cursor }

def shrinkColumns (g : Grid T) (reflow : Bool) (columns : Nat) : Option (Grid T) := do
  let g := { g with columns }.unwrapCursor reflow
  let (rows, raw) ← g.raw.takeAll
  let st ← shrinkRows reflow columns rows.reverse ⟨{ g with raw }, [], none⟩
  let g := st.grid.adoptRows (st.newRaw.take (st.grid.maxScrollLimit + st.grid.lines))
  let g ← g.settleCursor reflow columns
  some { g with savedCursor.point.column := min g.savedCursor.point.column (columns - 1) }

/-- Resize the grid's width and/or height. -/
def resize (g : Grid T) (reflow : Bool) (lines columns : Nat) : Option (Grid T) := do
  let template := g.cursor.template
  let g := { g with cursor.template := default }
  let g ← (if g.lines < lines then g.growLines lines
    else if lines < g.lines then g.shrinkLines lines
    else some g)
  let g ← (if g.columns < columns then g.growColumns reflow columns
    else if columns < g.columns then g.shrinkColumns reflow columns
    else some g)
  some { g with cursor.template := template }

end Grid
end Velacritty
