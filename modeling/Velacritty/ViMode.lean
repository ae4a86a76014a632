import Velacritty.Term

/-! The vi mode's motions, and the searches they use. A search that leaves the grid is
an index outside of it. -/
namespace Velacritty

/-- Possible vi mode motion movements. -/
inductive ViMotion where
  | up | down | left | right | first | last | firstOccupied | high | middle | low | semanticLeft
  | semanticRight | semanticLeftEnd | semanticRightEnd | wordLeft | wordRight | wordLeftEnd
  | wordRightEnd | bracket | paragraphUp | paragraphDown
  deriving DecidableEq, Repr

namespace Term

/-- More steps than the grid has cells. -/
def searchFuel (t : Term) : Nat := t.dims.totalLines * t.columns + 2

/-! ### Searches -/

/-- Searching to the left, find the next character contained in `needles`. -/
def inlineSearchLeft (t : Term) (point : Point) (needles : List Char) :
    Option (Except Point Point) :=
  let point := { point with line := max point.line t.topmostLine }
  Fallible.loop (fun ((it, point) : GridIterator Cell × Point) => do
    let (item, it) ← it.prev
    match item with
    | none => some (.inl (.error point))
    | some (p, cell) =>
        if p.column = t.lastColumn ∧ cell.flags.wrapline = false then some (.inl (.error point))
        else if cell.flags.anySpacer = false ∧ cell.c ∈ needles then some (.inl (.ok p))
        else some (.inr (it, p))) t.searchFuel (t.grid.iterFrom point, point)

def inlineSearchRight (t : Term) (point : Point) (needles : List Char) :
    Option (Except Point Point) := do
  let point := { point with line := max point.line t.topmostLine }
  let atBreak ← (if point.column = t.lastColumn then do
      let cell ← t.grid.cellAt point
      some (!cell.flags.wrapline)
    else some false)
  if atBreak then some (.error point)
  else
    Fallible.loop (fun ((it, point) : GridIterator Cell × Point) => do
      let (item, it) ← it.next
      match item with
      | none => some (.inl (.error point))
      | some (p, cell) =>
          if cell.flags.anySpacer = false ∧ cell.c ∈ needles then some (.inl (.ok p))
          else if p.column = t.lastColumn ∧ cell.flags.wrapline = false then some (.inl (.error p))
          else some (.inr (it, p))) t.searchFuel (t.grid.iterFrom point, point)

/-- Find left end of semantic block. -/
def semanticSearchLeft (t : Term) (point : Point) : Option Point := do
  match ← t.inlineSearchLeft point t.config.semanticEscapeChars with
  | .error point => some point
  | .ok point =>
      Fallible.loop (fun (it : GridIterator Cell) => do
        let (item, it) ← it.next
        match item with
        | none => some (.inl point)
        | some (p, cell) => if cell.flags.anySpacer then some (.inr it) else some (.inl p))
        t.searchFuel (t.grid.iterFrom point)

/-- Find right end of semantic block. -/
def semanticSearchRight (t : Term) (point : Point) : Option Point := do
  match ← t.inlineSearchRight point t.config.semanticEscapeChars with
  | .error point => some point
  | .ok point => do
      let (item, _) ← (t.grid.iterFrom point).prev
      some (item.elim point Prod.fst)

def bracketPairs : List (Char × Char) := [('(', ')'), ('[', ']'), ('{', '}'), ('<', '>')]

/-- The matching bracket we're looking for, and whether it is ahead. -/
def bracketPartner (startChar : Char) : Option (Bool × Char) :=
  bracketPairs.findSome? fun (opening, closing) =>
    if opening = startChar then some (true, closing)
    else if closing = startChar then some (false, opening)
    else none

def bracketSearch (t : Term) (point : Point) : Option (Option Point) := do
  let cell ← t.grid.cellAt point
  let startChar := cell.c
  match bracketPartner startChar with
  | none => some none
  | some (forward, endChar) =>
      Fallible.loop (fun ((it, skipPairs) : GridIterator Cell × Nat) => do
        let (item, it) ← (if forward then it.next else it.prev)
        match item with
        | none => some (.inl none)
        | some (p, cell) =>
            if cell.c = endChar ∧ skipPairs = 0 then some (.inl (some p))
            else if cell.c = startChar then some (.inr (it, skipPairs + 1))
            else if cell.c = endChar then some (.inr (it, skipPairs - 1))
            else some (.inr (it, skipPairs))) t.searchFuel (t.grid.iterFrom point, 0)

/-! ### Cells a motion looks at -/

/-- Check if cell at point contains whitespace. -/
def isSpace (t : Term) (point : Point) : Option Bool := do
  let cell ← t.grid.cellAt point
  some (!cell.flags.anySpacer && (cell.c = ' ' || cell.c = '\t'))

def isWrap (t : Term) (point : Point) : Option Bool := do
  let cell ← t.grid.cellAt point
  some cell.flags.wrapline

def isBoundary (t : Term) (point : Point) : Side → Bool
  | .left => decide (point.line ≤ t.topmostLine ∧ point.column = 0)
  | .right => decide (point.line = t.bottommostLine ∧ t.columns ≤ point.column + 1)

def advance (t : Term) (point : Point) : Side → Point
  | .left => point.sub t.dims .grid 1
  | .right => point.add t.dims .grid 1

/-- The first of the columns that is not empty. -/
def findOccupied (t : Term) (line : Int) : List Nat → Option (Option Point)
  | [] => some none
  | column :: columns => do
      let space ← t.isSpace ⟨line, column⟩
      if space then t.findOccupied line columns else some (some ⟨line, column⟩)

/-- Find first non-empty cell in line. -/
def firstOccupiedInLine (t : Term) (line : Int) : Option (Option Point) :=
  t.findOccupied line (List.range t.columns)

/-- Find last non-empty cell in line. -/
def lastOccupiedInLine (t : Term) (line : Int) : Option (Option Point) :=
  t.findOccupied line (List.range t.columns).reverse

def dropUntilClear (t : Term) (clear : Bool) : List Int → Option (List Int)
  | [] => some []
  | line :: lines => do
      let row ← t.grid.raw.get line
      if row.isClear = clear then some (line :: lines) else t.dropUntilClear clear lines

/-! ### Motions -/

/-- Find next end of line to move to. -/
def lastMotion (t : Term) (point : Point) : Option Point := do
  let point ← t.expandWide point .right
  let occupied := (← t.lastOccupiedInLine point.line).getD default
  if point.column < occupied.column then some occupied
  else do
    let wrap ← t.isWrap point
    if wrap then do
      let point ← Fallible.loop (fun (point : Point) => do
        let wrap ← t.isWrap point
        some (if wrap then .inr { point with line := point.line + 1 } else .inl point))
        (t.dims.totalLines + 1) point
      let occupied ← t.lastOccupiedInLine point.line
      some (occupied.getD point)
    else some ⟨point.line, t.lastColumn⟩

/-- The first non-empty cell of the wrapped lines above. -/
def wrappedOccupied (t : Term) : List Int → Option Point → Option (Option Point)
  | [], occupied => some occupied
  | line :: lines, occupied => do
      let wrap ← t.isWrap ⟨line, t.lastColumn⟩
      if wrap then do
        let first ← t.firstOccupiedInLine line
        t.wrappedOccupied lines (first.or occupied)
      else some occupied

/-- Find next non-empty cell to move to. -/
def firstOccupiedMotion (t : Term) (point : Point) : Option Point := do
  let point ← t.expandWide point .left
  let first ← t.firstOccupiedInLine point.line
  let occupied := first.getD ⟨point.line, t.lastColumn⟩
  if point = occupied then
    match ← t.wrappedOccupied (lineRange t.topmostLine point.line).reverse none with
    | some occupied => some occupied
    | none =>
        Fallible.loop (fun line => do
          match ← t.firstOccupiedInLine line with
          | some occupied => some (.inl occupied)
          | none => do
              let wrap ← t.isWrap ⟨line, t.lastColumn⟩
              some (if wrap then .inr (line + 1) else .inl ⟨line, t.lastColumn⟩))
          (t.dims.totalLines + 1) point.line
  else some occupied

/-- Advance while the next cell satisfies `p`. -/
def advanceWhile (t : Term) (direction : Side) (p : Point → Option Bool) : Point → Option Point :=
  Fallible.loop (fun point =>
    if t.isBoundary point direction then some (.inl point)
    else do
      let go ← p (t.advance point direction)
      some (if go then .inr (t.advance point direction) else .inl point)) t.searchFuel

/-- Advance while the cell at the point itself satisfies `p`. -/
def advancePast (t : Term) (direction : Side) (p : Point → Option Bool) : Point → Option Point :=
  Fallible.loop (fun point =>
    if t.isBoundary point direction then some (.inl point)
    else do
      let go ← p point
      some (if go then .inr (t.advance point direction) else .inl point)) t.searchFuel

def isNotSpace (t : Term) (point : Point) : Option Bool := do
  let space ← t.isSpace point
  some !space

/-- Expand semantically based on movement direction, unless on a semantic escape char. -/
def expandSemantic (t : Term) (direction : Side) (point : Point) : Option Point := do
  let cell ← t.grid.cellAt point
  if cell.c ∈ t.config.semanticEscapeChars ∧ cell.flags.anySpacer = false then some point
  else match direction with
    | .left => t.semanticSearchLeft point
    | .right => t.semanticSearchRight point

/-- Move by semantically separated word, like w/b/e/ge in vi. -/
def semanticMotion (t : Term) (point : Point) (direction side : Side) : Option Point := do
  let point ← (if direction ≠ side ∧ t.isBoundary point direction = false then
      t.expandSemantic direction point
    else some point)
  let point ← t.expandWide point direction
  let point ← t.advanceWhile direction t.isSpace point
  let point ← (if t.isBoundary point direction then some point
    else match direction with
      | .left => t.expandWide (t.advance point .left) .left
      | .right => some (t.advance point .right))
  if direction = side ∧ t.isBoundary point direction = false then t.expandSemantic direction point
  else some point

/-- Move by whitespace separated word, like W/B/E/gE in vi. -/
def wordMotion (t : Term) (point : Point) (direction side : Side) : Option Point := do
  let point ← t.expandWide point direction
  if direction = side then do
    let point ← t.advanceWhile direction t.isSpace point
    t.advanceWhile direction t.isNotSpace point
  else do
    let point ← t.advancePast direction t.isNotSpace point
    t.advancePast direction t.isSpace point

/-- Move to the first non-empty cell of a visible line. -/
def toVisibleLine (t : Term) (line : Int) : Option Point := do
  let first ← t.firstOccupiedInLine line
  some ⟨line, (first.getD default).column⟩

/-- Whether the line above a point continues in it. -/
def isWrapAbove (t : Term) (point : Point) : Option Bool :=
  if point.column = 0 ∧ t.topmostLine < point.line then t.isWrap ⟨point.line - 1, t.lastColumn⟩
  else some false

/-- Where a motion moves the vi mode cursor. -/
def motionTarget (t : Term) (point : Point) : ViMotion → Option Point
  | .up => some (if t.topmostLine < point.line then { point with line := point.line - 1 } else point)
  | .down =>
      some (if point.line + 1 < t.screenLines then { point with line := point.line + 1 } else point)
  | .left => do
      let point ← t.expandWide point .left
      let wrap ← t.isWrapAbove point
      some (if wrap then ⟨point.line - 1, t.lastColumn⟩ else { point with column := point.column - 1 })
  | .right => do
      let point ← t.expandWide point .right
      let wrap ← t.isWrap point
      some (if wrap then ⟨point.line + 1, 0⟩
        else { point with column := min (point.column + 1) t.lastColumn })
  | .first => do
      let point ← t.expandWide point .left
      let point ← Fallible.loop (fun (point : Point) => do
        let wrap ← t.isWrapAbove point
        some (if wrap then .inr { point with line := point.line - 1 } else .inl point))
        (t.dims.totalLines + 1) point
      some { point with column := 0 }
  | .last => t.lastMotion point
  | .firstOccupied => t.firstOccupiedMotion point
  | .high => t.toVisibleLine (-(t.grid.displayOffset : Int))
  | .middle => t.toVisibleLine (-(t.grid.displayOffset : Int) + (t.screenLines : Int).tdiv 2 - 1)
  | .low => t.toVisibleLine (-(t.grid.displayOffset : Int) + t.screenLines - 1)
  | .semanticLeft => t.semanticMotion point .left .left
  | .semanticRight => t.semanticMotion point .right .left
  | .semanticLeftEnd => t.semanticMotion point .left .right
  | .semanticRightEnd => t.semanticMotion point .right .right
  | .wordLeft => t.wordMotion point .left .left
  | .wordRight => t.wordMotion point .right .left
  | .wordLeftEnd => t.wordMotion point .left .right
  | .wordRightEnd => t.wordMotion point .right .right
  | .bracket => do
      let partner ← t.bracketSearch point
      some (partner.getD point)
  | .paragraphUp => do
      let lines ← t.dropUntilClear false (lineRange t.topmostLine point.line).reverse
      let lines ← t.dropUntilClear true lines
      some ⟨lines.head?.getD t.topmostLine, 0⟩
  | .paragraphDown => do
      let lines ← t.dropUntilClear false (lineRange point.line t.bottommostLine)
      let lines ← t.dropUntilClear true lines
      some ⟨lines.head?.getD t.bottommostLine, 0⟩

def viMotion (t : Term) (motion : ViMotion) : Option Term :=
  if t.mode.vi then do
    let point ← t.motionTarget t.viModeCursor motion
    some (t.viGotoPoint point)
  else some t

end Term
end Velacritty
