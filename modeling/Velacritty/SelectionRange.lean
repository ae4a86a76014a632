import Velacritty.SelectionScroll
import Velacritty.ViMode

/-! Selections as ranges of cells of the grid. -/
namespace Velacritty

/-- A range of selected cells, up to and including its end. -/
structure SelectionRange where
  start : Point
  stop : Point
  isBlock : Bool
  deriving DecidableEq, Repr

/-- Check if a point lies within the selection. -/
def SelectionRange.contains (r : SelectionRange) (point : Point) : Bool :=
  decide (r.start.line ≤ point.line ∧ point.line ≤ r.stop.line ∧
    (r.start.column ≤ point.column ∨ r.start.line ≠ point.line ∧ r.isBlock = false) ∧
    (point.column ≤ r.stop.column ∨ r.stop.line ≠ point.line ∧ r.isBlock = false))

namespace Term

/-- Find the beginning of the current line across linewraps. -/
def lineSearchLeft (t : Term) (point : Point) : Option Point := do
  let line ← Fallible.loop (fun line =>
    if t.topmostLine < line then do
      let wrap ← t.isWrap ⟨line - 1, t.lastColumn⟩
      some (if wrap then .inr (line - 1) else .inl line)
    else some (.inl line)) (t.dims.totalLines + 1) point.line
  some ⟨line, 0⟩

/-- Find the end of the current line across linewraps. -/
def lineSearchRight (t : Term) (point : Point) : Option Point := do
  let line ← Fallible.loop (fun line =>
    if line + 1 < (t.screenLines : Int) then do
      let wrap ← t.isWrap ⟨line, t.lastColumn⟩
      some (if wrap then .inr (line + 1) else .inl line)
    else some (.inl line)) (t.dims.totalLines + 1) point.line
  some ⟨line, t.lastColumn⟩

end Term

namespace Selection

def rangeSemantic (t : Term) (start stop : Point) : Option SelectionRange := do
  let matching ← (if start = stop then t.bracketSearch start else some none)
  match matching with
  | some matching =>
      if matching.line = start.line ∧ matching.column < start.column ∨ matching.line < start.line then
        some ⟨matching, stop, false⟩
      else some ⟨start, matching, false⟩
  | none => do
      let start ← t.semanticSearchLeft start
      let stop ← t.semanticSearchRight stop
      some ⟨start, stop, false⟩

def rangeLines (t : Term) (start stop : Point) : Option SelectionRange := do
  let start ← t.lineSearchLeft start
  let stop ← t.lineSearchRight stop
  some ⟨start, stop, false⟩

/-- Remove the last cell if the selection ends to the left of it. -/
def simpleStop (start stop : Anchor) (columns : Nat) : Point :=
  if stop.side = .left ∧ start.point ≠ stop.point then
    if stop.point.column = 0 then ⟨stop.point.line - 1, columns - 1⟩
    else ⟨stop.point.line, stop.point.column - 1⟩
  else stop.point

/-- Remove the first cell if the selection starts at the right of it. -/
def simpleStart (start : Anchor) (stop : Point) (columns : Nat) : Point :=
  if start.side = .right ∧ start.point ≠ stop then
    if start.point.column + 1 = columns then ⟨start.point.line + 1, 0⟩
    else ⟨start.point.line, start.point.column + 1⟩
  else start.point

def rangeSimple (s : Selection) (start stop : Anchor) (columns : Nat) : Option SelectionRange :=
  if s.isEmpty then none
  else
    let stop := simpleStop start stop columns
    some ⟨simpleStart start stop columns, stop, false⟩

/-- Remove the last column if a block ends to the left of it. -/
def blockStop (start stop : Anchor) : Point :=
  if stop.side = .left ∧ start.point ≠ stop.point ∧ 0 < stop.point.column then
    ⟨stop.point.line, stop.point.column - 1⟩
  else stop.point

/-- Remove the first column if a block starts at the right of it. -/
def blockStart (start : Anchor) (stop : Point) : Point :=
  if start.side = .right ∧ start.point ≠ stop then ⟨start.point.line, start.point.column + 1⟩
  else start.point

def rangeBlock (s : Selection) (start stop : Anchor) : Option SelectionRange :=
  if s.isEmpty then none
  else
    let (start, stop) : Anchor × Anchor := if stop.point.column < start.point.column then
        (⟨⟨start.point.line, stop.point.column⟩, stop.side⟩,
          ⟨⟨stop.point.line, start.point.column⟩, start.side⟩)
      else (start, stop)
    let stop := blockStop start stop
    some ⟨blockStart start stop, stop, true⟩

def toRange (s : Selection) (t : Term) : Option (Option SelectionRange) :=
  let start := s.upper
  let stop := s.lower
  if stop.point.line < t.topmostLine then some none
  else
    let start := { start with point := start.point.gridClamp t.dims .grid }
    let stop := { stop with point := stop.point.gridClamp t.dims .grid }
    match s.ty with
    | .simple => some (s.rangeSimple start stop t.columns)
    | .block => some (s.rangeBlock start stop)
    | .semantic => (rangeSemantic t start.point stop.point).map some
    | .lines => (rangeLines t start.point stop.point).map some

end Selection
end Velacritty
