import Velacritty.Storage

/-! The terminal grid: scrolling, clearing and iteration. -/
namespace Velacritty

inductive StandardCharset where
  | ascii
  | specialCharacterAndLineDrawing
  deriving DecidableEq, Repr

inductive CharsetIndex where
  | g0
  | g1
  | g2
  | g3
  deriving DecidableEq, Repr

structure Charsets where
  g0 : StandardCharset := .ascii
  g1 : StandardCharset := .ascii
  g2 : StandardCharset := .ascii
  g3 : StandardCharset := .ascii
  deriving DecidableEq, Repr

def Charsets.get (cs : Charsets) : CharsetIndex → StandardCharset
  | .g0 => cs.g0
  | .g1 => cs.g1
  | .g2 => cs.g2
  | .g3 => cs.g3

def Charsets.set (cs : Charsets) (charset : StandardCharset) : CharsetIndex → Charsets
  | .g0 => { cs with g0 := charset }
  | .g1 => { cs with g1 := charset }
  | .g2 => { cs with g2 := charset }
  | .g3 => { cs with g3 := charset }

/-- `inputNeedsWrap` tracks if the next call to input will need to first handle
wrapping, so that the column never exceeds the last one. -/
structure Cursor (T : Type) where
  point : Point
  template : T
  charsets : Charsets
  inputNeedsWrap : Bool
  deriving DecidableEq, Repr

inductive Scroll where
  | delta (count : Int)
  | pageUp
  | pageDown
  | top
  | bottom
  deriving DecidableEq, Repr

/-- Grid based terminal content storage. -/
structure Grid (T : Type) where
  cursor : Cursor T
  savedCursor : Cursor T
  raw : Storage T
  columns : Nat
  lines : Nat
  displayOffset : Nat
  maxScrollLimit : Nat
  autoScrollEnabled : Bool
  deriving DecidableEq, Repr

namespace Grid
variable {T : Type}

def dims (g : Grid T) : Dimensions := ⟨g.raw.len, g.lines, g.columns⟩

def historySize (g : Grid T) : Nat := g.dims.historySize

variable [GridCell T]

/-- `Cursor::default`. -/
def defaultCursor : Cursor T := ⟨default, default, {}, false⟩

def new (lines columns maxScrollLimit : Nat) : Grid T where
  cursor := defaultCursor
  savedCursor := defaultCursor
  raw := .withCapacity lines columns
  columns
  lines
  displayOffset := 0
  maxScrollLimit
  autoScrollEnabled := true

def updateHistory (g : Grid T) (historySize : Nat) : Option (Grid T) := do
  let currentHistorySize := g.historySize
  let raw ← (if historySize < currentHistorySize then
      g.raw.shrinkLines (currentHistorySize - historySize)
    else some g.raw)
  some { g with
    raw, displayOffset := min g.displayOffset historySize, maxScrollLimit := historySize }

def scrollDisplay (g : Grid T) (scroll : Scroll) : Grid T :=
  { g with
    displayOffset := match scroll with
      | .delta count => min (max ((g.displayOffset : Int) + count) 0).toNat g.historySize
      | .pageUp => min (g.displayOffset + g.lines) g.historySize
      | .pageDown => g.displayOffset - g.lines
      | .top => g.historySize
      | .bottom => 0 }

def increaseScrollLimit (g : Grid T) (count : Nat) : Option (Grid T) := do
  let room ← usub g.maxScrollLimit g.historySize
  let count := min count room
  if count ≠ 0 then
    let raw ← g.raw.initializeRows count g.columns
    some { g with raw }
  else some g

def decreaseScrollLimit (g : Grid T) (count : Nat) : Option (Grid T) := do
  let count := min count g.historySize
  if count ≠ 0 then
    let raw ← g.raw.shrinkLines (min count g.historySize)
    let g := { g with raw }
    some { g with displayOffset := min g.displayOffset g.historySize }
  else some g

def resetLines (g : Grid T) (lines : List Int) : Option (Grid T) := do
  let raw ← g.raw.resetLines g.cursor.template lines
  some { g with raw }

/-- Move the lines of the region `start..stop` down by `positions`, which an `i32` holds. -/
def scrollDown (g : Grid T) (start stop : Int) (positions : Nat) : Option (Grid T) :=
  if stop - start ≤ positions then g.resetLines (lineRange start stop)
  else if g.maxScrollLimit = 0 then do
    let raw ← g.raw.swapLines (-positions) (lineRange stop g.lines)
    let raw ← raw.rotateDown positions
    let raw ← raw.resetLines g.cursor.template (lineRange 0 positions)
    let raw ← raw.swapLines positions (lineRange 0 start)
    some { g with raw }
  else do
    let raw ← g.raw.swapLines (-positions) (lineRange (start + positions) stop).reverse
    let raw ← raw.resetLines g.cursor.template (lineRange start (start + positions)).reverse
    some { g with raw }

/-- Update display offset when not pinned to active area. With auto-scroll
disabled the offset moves even at the bottom. -/
def pinViewport (g : Grid T) (positions : Nat) : Grid T :=
  if g.displayOffset ≠ 0 ∨ g.autoScrollEnabled = false then
    { g with displayOffset := min (g.displayOffset + positions) g.maxScrollLimit }
  else g

/-- The part of `scroll_up` that moves rows; only a region that starts at the top
moves lines into the history. -/
def rotateRegionUp (g : Grid T) (start stop : Int) (positions : Nat) : Option (Grid T) :=
  if start = 0 then do
    let g ← g.increaseScrollLimit positions
    let raw ← g.raw.swapLines positions (lineRange 0 start).reverse
    let raw ← raw.rotate (-positions)
    let raw ← raw.swapLines (-positions) (lineRange stop g.lines).reverse
    some { g with raw }
  else do
    let raw ← g.raw.swapLines positions (lineRange start (stop - positions))
    some { g with raw }

/-- Move the lines of the region `start..stop` toward the top. -/
def scrollUp (g : Grid T) (start stop : Int) (positions : Nat) : Option (Grid T) :=
  if stop - start ≤ positions ∧ start ≠ 0 then g.resetLines (lineRange start stop)
  else do
    let g ← (g.pinViewport positions).rotateRegionUp start stop positions
    g.resetLines (lineRange (stop - positions) stop)

end Grid

structure GridIterator (T : Type) where
  grid : Grid T
  point : Point
  stop : Point

namespace GridIterator
variable {T : Type} [GridCell T]

def cell (it : GridIterator T) : Option T := do
  let row ← it.grid.raw.get it.point.line
  row.get it.point.column

/-- `Iterator::next`. The outer `none` is an index outside of the grid, the inner
one the end of the iteration. -/
def next (it : GridIterator T) : Option (Option (Point × T) × GridIterator T) :=
  if it.stop ≤ it.point then some (none, it)
  else do
    let point : Point :=
      if it.grid.dims.lastColumn ≤ it.point.column then ⟨it.point.line + 1, 0⟩
      else { it.point with column := it.point.column + 1 }
    let it := { it with point }
    let cell ← it.cell
    some (some (point, cell), it)

/-- `Iterator::size_hint`, the number of items that are left. -/
def sizeHint (it : GridIterator T) : Option (Nat × Option Nat) :=
  if it.stop ≤ it.point then some (0, some 0)
  else do
    let size ← if it.point.line = it.stop.line then usub it.stop.column it.point.column
      else do
        let colsOnFirstLine := it.grid.columns - (it.point.column + 1)
        let lines ← toUsize (it.stop.line - it.point.line)
        let middleLines ← usub lines 1
        let colsOnLastLine := it.stop.column + 1
        some (colsOnFirstLine + middleLines * it.grid.columns + colsOnLastLine)
    some (size, some size)

def advance (it : GridIterator T) (_ : Unit) : Option (GridIterator T) := do
  let (item, it) ← it.next
  if item.isSome then some it else none

/-- `BidirectionalIterator::prev`. -/
def prev (it : GridIterator T) : Option (Option (Point × T) × GridIterator T) :=
  if it.point ≤ ⟨it.grid.dims.topmostLine, 0⟩ then some (none, it)
  else do
    let point : Point :=
      if it.point.column = 0 then ⟨it.point.line - 1, it.grid.dims.lastColumn⟩
      else { it.point with column := it.point.column - 1 }
    let it := { it with point }
    let cell ← it.cell
    some (some (point, cell), it)

/-- Walk backwards until a cell stops the search; the fuel bounds the steps. -/
def prevWhile (skip : Point → T → Bool) : Nat → GridIterator T → Option (GridIterator T) :=
  Fallible.loop fun it => do
    let (item, it) ← it.prev
    match item with
    | none => some (.inl it)
    | some (point, cell) => if skip point cell then some (.inr it) else some (.inl it)

end GridIterator

namespace Grid
variable {T : Type} [GridCell T]

/-- Iterate over all cells in the grid starting at a specific point. -/
def iterFrom (g : Grid T) (point : Point) : GridIterator T :=
  ⟨g, point, ⟨g.dims.bottommostLine, g.dims.lastColumn⟩⟩

/-- Iterate over all visible cells. -/
def displayIter (g : Grid T) : GridIterator T :=
  let start : Point := ⟨-(g.displayOffset : Int) - 1, g.dims.lastColumn⟩
  ⟨g, start, ⟨min (start.line + g.lines) g.dims.bottommostLine, g.dims.lastColumn⟩⟩

def clearViewport (g : Grid T) : Option (Grid T) := do
  let iter := g.iterFrom ⟨(g.lines : Int) - 1, g.columns⟩
  let iter ← iter.prevWhile (fun point cell => GridCell.isEmpty cell && decide (0 ≤ point.line))
    (g.lines * g.columns + 2)
  let positions ← toUsize (iter.point.line + 1)
  let g ← g.scrollUp 0 g.lines positions
  let rest ← usub g.lines positions
  g.resetLines (lineRange 0 rest)

def clearHistory (g : Grid T) : Option (Grid T) := do
  let raw ← g.raw.shrinkLines g.historySize
  some { g with raw, displayOffset := 0 }

def reset (g : Grid T) : Option (Grid T) := do
  let g ← g.clearHistory
  let g := { g with savedCursor := defaultCursor, cursor := defaultCursor, displayOffset := 0 }
  g.resetLines (lineRange g.dims.topmostLine g.lines)

def resetRegion (g : Grid T) (start stop : Int) : Option (Grid T) :=
  if start < g.lines ∧ stop ≤ g.lines then g.resetLines (lineRange start stop) else none

def setAutoScrollEnabled (g : Grid T) (enabled : Bool) : Grid T :=
  { g with autoScrollEnabled := enabled }

def cellAt (g : Grid T) (point : Point) : Option T := do
  let row ← g.raw.get point.line
  row.get point.column

/-- An update through `&mut self[point]`. -/
def modifyCell (g : Grid T) (point : Point) (f : T → T) : Option (Grid T) := do
  let raw ← g.raw.modify point.line fun row => row.modify point.column f
  some { g with raw }

end Grid
end Velacritty
