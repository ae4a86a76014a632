import Velacritty.Handler

/-! Reading the terminal: its cursor, and the text between two points. -/
namespace Velacritty

namespace Cell

/-- Whether the cell counts toward the length of its line. -/
def isOccupied (cell : Cell) : Bool :=
  cell.c != ' ' || (cell.extra.map fun extra => extra.zerowidth.isEmpty) == some false

def text (cell : Cell) : List Char :=
  if cell.flags.anySpacer then [] else cell.c :: cell.zerowidth.getD []

end Cell

namespace Row

def lineLength (r : Row Cell) : Option Nat := do
  let lastColumn ← usub r.len 1
  let last ← r.get lastColumn
  if last.flags.wrapline then some r.len
  else some (r.inner.rdropWhile fun cell => !cell.isOccupied).length

def wideStart (r : Row Cell) (column : Nat) : Option Nat := do
  let cell ← r.get column
  if cell.flags.wideCharSpacer then usub column 1 else some column

/-- Read one cell. In tab mode, cells are skipped until the next tab stop. -/
def readCell (tabs : List Bool) (r : Row Cell) :
    Bool × List Char → Nat → Option (Bool × List Char)
  | (tabMode, text), column => do
      let cell ← r.get column
      let tabMode ← (if tabMode then do
          let stop ← tabs[column]?
          some (!(stop || cell.c != ' '))
        else some false)
      if tabMode then some (true, text)
      else some (cell.c == '\t', text ++ cell.text)

end Row

structure RenderableCursor where
  shape : CursorShape
  point : Point
  deriving DecidableEq, Repr

namespace Term

def effectiveCursorStyle (t : Term) : CursorStyle :=
  let cursorStyle := t.cursorStyle.getD t.config.defaultCursorStyle
  if t.mode.vi then t.config.viModeCursorStyle.getD cursorStyle else cursorStyle

/-- `RenderableCursor::new`. -/
def renderableCursor (t : Term) : Option RenderableCursor := do
  let point := if t.mode.vi then t.viModeCursor else t.grid.cursor.point
  let row ← t.grid.raw.get point.line
  let column ← row.wideStart point.column
  let shape := if !t.mode.vi && !t.mode.showCursor then .hidden else t.effectiveCursorStyle.shape
  some ⟨shape, { point with column }⟩

def lineToString (t : Term) (line : Int) (start stop : Nat) (includeWrappedWide : Bool) :
    Option (List Char) := do
  let gridLine ← t.grid.raw.get line
  let occupied ← gridLine.lineLength
  let lineLength := min occupied (stop + 1)
  let start ← gridLine.wideStart start
  let (_, text) ← (List.range' start (lineLength - start)).foldlM (gridLine.readCell t.tabs) (false, [])
  let lastColumn ← usub t.columns 1
  let wrapped ← (if lineLength = 0 then some false
    else (gridLine.get (lineLength - 1)).map fun cell => cell.flags.wrapline)
  let text := if lastColumn ≤ stop ∧ wrapped = false then text ++ ['\n'] else text
  let leading := decide (lineLength = t.columns ∧ 2 ≤ lineLength) &&
    ((gridLine.get (lineLength - 1)).any fun cell => cell.flags.leadingWideCharSpacer)
  if leading && includeWrappedWide then do
    let wide ← t.grid.cellAt ⟨line - 1, 0⟩
    some (text ++ [wide.c])
  else some text

/-- Convert range between two points to a string. -/
def boundsToString (t : Term) (start stop : Point) : Option (List Char) := do
  let res ← (lineRange start.line (stop.line + 1)).foldlM (fun (res : List Char) line => do
    let startCol := if line = start.line then start.column else 0
    let endCol := if line = stop.line then stop.column else t.lastColumn
    let text ← t.lineToString line startCol endCol (decide (line = stop.line))
    some (res ++ text)) []
  some (if res.getLast? = some '\n' then res.dropLast else res)

end Term
end Velacritty
