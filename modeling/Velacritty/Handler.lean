import Velacritty.Term

/-! The terminal's `Handler`: what each control function does to it. -/
namespace Velacritty

/-- What the terminal takes from its dependencies and its build. -/
structure Env where
  /-- Number of cells a character occupies; control characters have none. -/
  width : Char → Option Nat
  /-- `StandardCharset::map`. -/
  map : StandardCharset → Char → Char
  /-- A decoded clipboard text, if it is base64 of UTF-8. -/
  decode : List UInt8 → Option String
  /-- What `version_number` makes of the package version. -/
  version : Nat

/-- Single-width text in the ASCII character set, as it is. -/
def Env.ascii : Env where
  width := fun c => if c.toNat < 32 then none else some 1
  map := fun _ c => c
  decode := fun _ => none
  version := 2502

/-- Like `Env.ascii`, with a fullwidth character. -/
def Env.fullwidth : Env :=
  { Env.ascii with width := fun c => if c = '漢' then some 2 else Env.ascii.width c }

inductive LineClearMode where
  | right
  | left
  | all
  deriving DecidableEq, Repr

inductive ClearMode where
  | below
  | above
  | all
  | saved
  deriving DecidableEq, Repr

inductive TabulationClearMode where
  | current
  | all
  deriving DecidableEq, Repr

inductive Attr where
  | reset | bold | dim | italic | underline | doubleUnderline | undercurl | dottedUnderline
  | dashedUnderline | blinkSlow | blinkFast | reverse | hidden | strike | cancelBold | cancelBoldDim
  | cancelItalic | cancelUnderline | cancelBlink | cancelReverse | cancelHidden | cancelStrike
  | foreground (color : Color)
  | background (color : Color)
  | underlineColor (color : Option Color)
  deriving DecidableEq, Repr

inductive NamedPrivateMode where
  | cursorKeys | columnMode | origin | lineWrap | blinkingCursor | showCursor | reportMouseClicks
  | reportCellMouseMotion | reportAllMouseMotion | reportFocusInOut | utf8Mouse | sgrMouse
  | alternateScroll | urgencyHints | swapScreenAndSetRestoreCursor | bracketedPaste | syncUpdate
  deriving DecidableEq, Repr

inductive PrivateMode where
  | named (mode : NamedPrivateMode)
  | unknown (mode : Nat)
  deriving DecidableEq, Repr

def PrivateMode.raw : PrivateMode → Nat
  | .named .cursorKeys => 1
  | .named .columnMode => 3
  | .named .origin => 6
  | .named .lineWrap => 7
  | .named .blinkingCursor => 12
  | .named .showCursor => 25
  | .named .reportMouseClicks => 1000
  | .named .reportCellMouseMotion => 1002
  | .named .reportAllMouseMotion => 1003
  | .named .reportFocusInOut => 1004
  | .named .utf8Mouse => 1005
  | .named .sgrMouse => 1006
  | .named .alternateScroll => 1007
  | .named .urgencyHints => 1042
  | .named .swapScreenAndSetRestoreCursor => 1049
  | .named .bracketedPaste => 2004
  | .named .syncUpdate => 2026
  | .unknown mode => mode

inductive NamedMode where
  | insert
  | lineFeedNewLine
  deriving DecidableEq, Repr

inductive Mode where
  | named (mode : NamedMode)
  | unknown (mode : Nat)
  deriving DecidableEq, Repr

def Mode.raw : Mode → Nat
  | .named .insert => 4
  | .named .lineFeedNewLine => 20
  | .unknown mode => mode

inductive ModeState where
  | notSupported
  | set
  | reset
  deriving DecidableEq, Repr

namespace ModeState

def ofBool (value : Bool) : ModeState := if value then .set else .reset

def toNat : ModeState → Nat
  | notSupported => 0
  | set => 1
  | reset => 2

end ModeState

/-- `&mut row[..]`, without an update yet. -/
def Row.touch {T : Type} (r : Row T) : Row T := { r with occ := r.len }

/-- Swaps of the cells `b + offset` and `a + offset`, in the order of the offsets. -/
def Row.swapAll {T : Type} (r : Row T) (a b : Nat) (offsets : List Nat) : Option (Row T) :=
  offsets.foldlM (fun r offset => r.swap (b + offset) (a + offset)) r

/-- The closest tab stop right of a column, or the last column. -/
def nextTabStop (tabs : List Bool) (columns : Nat) : Nat → Option Nat :=
  Fallible.loop (fun column =>
    if column + 1 = columns then some (.inl column)
    else do
      let stop ← tabs[column + 1]?
      some (if stop then .inl (column + 1) else .inr (column + 1))) columns

/-- The closest tab stop below `i`, or else `column`. -/
def prevTabStop (tabs : List Bool) (column : Nat) : Nat → Option Nat
  | 0 => some column
  | i + 1 => do
      let stop ← tabs[i]?
      if stop then some i else prevTabStop tabs column i

namespace Term

/-! ### Printing -/

def setCursorPoint (t : Term) (line : Int) (column : Nat) : Term :=
  { t with grid.cursor.point := ⟨line, column⟩ }

def setColumn (t : Term) (column : Nat) : Term := { t with grid.cursor.point.column := column }

def setNeedsWrap (t : Term) (b : Bool) : Term := { t with grid.cursor.inputNeedsWrap := b }

def modifyRow (t : Term) (line : Int) (f : Row Cell → Option (Row Cell)) : Option Term := do
  let raw ← t.grid.raw.modify line f
  some { t with grid.raw := raw }

def modifyCell (t : Term) (point : Point) (f : Cell → Cell) : Option Term := do
  let grid ← t.grid.modifyCell point f
  some { t with grid }

def scrollUp (t : Term) (lines : Nat) : Option Term := t.scrollUpRelative t.regionStart lines

def scrollDown (t : Term) (lines : Nat) : Option Term := t.scrollDownRelative t.regionStart lines

def linefeed (t : Term) : Option Term :=
  let next := t.grid.cursor.point.line + 1
  if next = t.regionEnd then t.scrollUp 1
  else if next < t.screenLines then do
    let t ← t.damageCursor
    let t := t.setCursorPoint (t.grid.cursor.point.line + 1) t.grid.cursor.point.column
    t.damageCursor
  else some t

/-- Insert a linebreak at the current cursor position. -/
def wrapline (t : Term) : Option Term :=
  if t.mode.lineWrap then do
    let t ← t.modifyCell t.grid.cursor.point (setWrapline true)
    let t ← (if t.regionEnd ≤ t.grid.cursor.point.line + 1 then t.linefeed
      else do
        let t ← t.damageCursor
        some (t.setCursorPoint (t.grid.cursor.point.line + 1) t.grid.cursor.point.column))
    ((t.setColumn 0).setNeedsWrap false).damageCursor
  else some t

/-- Remove the other half of the fullwidth character in the cursor's cell. -/
def clearOtherHalf (t : Term) (cursorCell : Cell) : Option Term :=
  let point := t.grid.cursor.point
  if cursorCell.flags.wideChar = true ∧ point.column < t.lastColumn then
    t.modifyCell { point with column := point.column + 1 }
      (GridCell.modifyFlags fun f => { f with wideCharSpacer := false })
  else if 0 < point.column then
    t.modifyCell { point with column := point.column - 1 } Cell.clearWide
  else some t

def clearLeadingSpacer (t : Term) : Option Term :=
  let point := t.grid.cursor.point
  if point.column ≤ 1 ∧ point.line ≠ t.topmostLine then
    t.modifyCell ⟨point.line - 1, t.lastColumn⟩
      (GridCell.modifyFlags fun f => { f with leadingWideCharSpacer := false })
  else some t

/-- Clear all cells related to the fullwidth cell that is about to be overwritten. -/
def clearRelated (t : Term) : Option Term := do
  let cursorCell ← t.grid.cellAt t.grid.cursor.point
  if cursorCell.flags.wideChar || cursorCell.flags.wideCharSpacer then do
    let t ← t.clearOtherHalf cursorCell
    t.clearLeadingSpacer
  else some t

def writeAtCursor (env : Env) (t : Term) (c : Char) : Option Term := do
  let c := env.map (t.grid.cursor.charsets.get t.activeCharset) c
  let cell := { t.grid.cursor.template with c }
  let t ← t.clearRelated
  t.modifyCell t.grid.cursor.point fun _ => cell

/-- Write a half of a fullwidth character, marked by a flag of the template. -/
def writeMarked (env : Env) (mark : Bool → Flags → Flags) (t : Term) (c : Char) : Option Term := do
  let t := { t with grid.cursor.template.flags := mark true t.grid.cursor.template.flags }
  let t ← t.writeAtCursor env c
  some { t with grid.cursor.template.flags := mark false t.grid.cursor.template.flags }

/-- Move the cursor past the cell that was just written. -/
def advanceCursor (t : Term) : Term :=
  if t.grid.cursor.point.column + 1 < t.columns then t.setColumn (t.grid.cursor.point.column + 1)
  else t.setNeedsWrap true

def zeroWidthColumn (t : Term) : Option Nat := do
  let column := if t.grid.cursor.inputNeedsWrap then t.grid.cursor.point.column
    else t.grid.cursor.point.column - 1
  let cell ← t.grid.cellAt ⟨t.grid.cursor.point.line, column⟩
  some (if cell.flags.wideCharSpacer then column - 1 else column)

/-- Put zerowidth characters over first fullwidth character cell. -/
def inputZeroWidth (t : Term) (c : Char) : Option Term := do
  let column ← t.zeroWidthColumn
  t.modifyCell ⟨t.grid.cursor.point.line, column⟩ (Cell.pushZerowidth · c)

def shiftForInsert (t : Term) (width : Nat) : Option Term :=
  if t.mode.insert = true ∧ t.grid.cursor.point.column + width < t.columns then
    let column := t.grid.cursor.point.column
    t.modifyRow t.grid.cursor.point.line fun row =>
      row.touch.swapAll column (column + width)
        (List.range (t.columns - width - column)).reverse
  else some t

/-- Write a fullwidth glyph and the spacer that follows it. -/
def writeWide (env : Env) (t : Term) (c : Char) : Option Term := do
  let t ← t.writeMarked env (fun b f => { f with wideChar := b }) c
  let t := t.setColumn (t.grid.cursor.point.column + 1)
  let t ← t.writeMarked env (fun b f => { f with wideCharSpacer := b }) ' '
  some t.advanceCursor

/-- Print a fullwidth character. Without line wrap, one that does not fit is dropped. -/
def inputWide (env : Env) (t : Term) (c : Char) : Option Term :=
  if t.columns ≤ t.grid.cursor.point.column + 1 then
    if t.mode.lineWrap then do
      let t ← t.writeMarked env (fun b f => { f with leadingWideCharSpacer := b }) ' '
      let t ← t.wrapline
      t.writeWide env c
    else some (t.setNeedsWrap true)
  else t.writeWide env c

def input (env : Env) (t : Term) (c : Char) : Option Term :=
  match env.width c with
  | none => some t
  | some 0 => t.inputZeroWidth c
  | some width => do
      let t ← (if t.grid.cursor.inputNeedsWrap then t.wrapline else some t)
      let t ← t.shiftForInsert width
      if width = 1 then do
        let t ← t.writeAtCursor env c
        some t.advanceCursor
      else t.inputWide env c

/-! ### Moving the cursor -/

def goto (t : Term) (line : Int) (col : Nat) : Option Term := do
  let (yOffset, maxY) := if t.mode.origin then (t.regionStart, t.regionEnd - 1)
    else (0, t.bottommostLine)
  let t ← t.damageCursor
  let t := t.setCursorPoint (max (min (line + yOffset) maxY) 0) (min col t.lastColumn)
  let t ← t.damageCursor
  some (t.setNeedsWrap false)

def gotoLine (t : Term) (line : Int) : Option Term := t.goto line t.grid.cursor.point.column

def gotoCol (t : Term) (col : Nat) : Option Term := t.goto t.grid.cursor.point.line col

def moveUp (t : Term) (lines : Nat) : Option Term :=
  t.goto (t.grid.cursor.point.line - lines) t.grid.cursor.point.column

def moveDown (t : Term) (lines : Nat) : Option Term :=
  t.goto (t.grid.cursor.point.line + lines) t.grid.cursor.point.column

def moveUpAndCr (t : Term) (lines : Nat) : Option Term := t.goto (t.grid.cursor.point.line - lines) 0

def moveDownAndCr (t : Term) (lines : Nat) : Option Term := t.goto (t.grid.cursor.point.line + lines) 0

def damageColumns (t : Term) (left right : Nat) : Option Term := do
  let line ← toUsize t.grid.cursor.point.line
  t.damageLine line left right

def moveForward (t : Term) (cols : Nat) : Option Term := do
  let lastColumn := min (t.grid.cursor.point.column + cols) t.lastColumn
  let t ← t.damageColumns t.grid.cursor.point.column lastColumn
  some ((t.setColumn lastColumn).setNeedsWrap false)

def moveBackward (t : Term) (cols : Nat) : Option Term := do
  let column := t.grid.cursor.point.column - cols
  let t ← t.damageColumns column t.grid.cursor.point.column
  some ((t.setColumn column).setNeedsWrap false)

/-- One tab: leave a tab character in an empty cell, and go to the next tab stop. -/
def putOneTab (env : Env) (t : Term) : Option Term := do
  let c := env.map (t.grid.cursor.charsets.get t.activeCharset) '\t'
  let t ← t.modifyCell t.grid.cursor.point fun cell => if cell.c = ' ' then { cell with c } else cell
  let column ← nextTabStop t.tabs t.columns t.grid.cursor.point.column
  some (t.setColumn column)

def putTabs (env : Env) : Nat → Term → Option Term
  | 0, t => some t
  | count + 1, t =>
      if t.grid.cursor.point.column < t.columns then do
        let t ← t.putOneTab env
        putTabs env count t
      else some t

/-- Insert tabs at cursor position. A tab after the last column is the same as a
linebreak. -/
def putTab (env : Env) (t : Term) (count : Nat) : Option Term :=
  if t.grid.cursor.inputNeedsWrap then t.wrapline else putTabs env count t

def backspace (t : Term) : Option Term :=
  if 0 < t.grid.cursor.point.column then
    let column := t.grid.cursor.point.column
    ((t.setColumn (column - 1)).setNeedsWrap false).damageColumns (column - 1) column
  else some t

def carriageReturn (t : Term) : Option Term := do
  let t ← t.damageColumns 0 t.grid.cursor.point.column
  some ((t.setColumn 0).setNeedsWrap false)

def newline (t : Term) : Option Term := do
  let t ← t.linefeed
  if t.mode.lineFeedNewLine then t.carriageReturn else some t

/-- Each step goes to the previous tab stop, and stays at column 0 or without one. -/
def backwardTabs (tabs : List Bool) : Nat → Nat → Option Nat
  | 0, column => some column
  | count + 1, column =>
      if column = 0 then some column
      else do
        let column ← prevTabStop tabs column column
        backwardTabs tabs count column

def moveBackwardTabs (t : Term) (count : Nat) : Option Term := do
  let oldCol := t.grid.cursor.point.column
  let column ← backwardTabs t.tabs count oldCol
  (t.setColumn column).damageColumns column oldCol

def forwardTabs (tabs : List Bool) (columns : Nat) : Nat → Nat → Option Nat
  | 0, column => some column
  | count + 1, column =>
      if column = columns - 1 then some column
      else do
        let column ← nextTabStop tabs columns column
        forwardTabs tabs columns count column

def moveForwardTabs (t : Term) (count : Nat) : Option Term := do
  let oldCol := t.grid.cursor.point.column
  let column ← forwardTabs t.tabs t.columns count oldCol
  (t.setColumn column).damageColumns oldCol column

def saveCursorPosition (t : Term) : Term := { t with grid.savedCursor := t.grid.cursor }

def restoreCursorPosition (t : Term) : Option Term := do
  let t ← t.damageCursor
  { t with grid.cursor := t.grid.savedCursor }.damageCursor

def reverseIndex (t : Term) : Option Term :=
  if t.grid.cursor.point.line = t.regionStart then t.scrollDown 1
  else do
    let t ← t.damageCursor
    (t.setCursorPoint (max (t.grid.cursor.point.line - 1) 0) t.grid.cursor.point.column).damageCursor

/-! ### Tab stops and the scroll region -/

def setHorizontalTabstop (t : Term) : Option Term :=
  let column := t.grid.cursor.point.column
  if column < t.tabs.length then some { t with tabs := t.tabs.set column true } else none

def clearTabs (t : Term) : TabulationClearMode → Option Term
  | .current =>
      let column := t.grid.cursor.point.column
      if column < t.tabs.length then some { t with tabs := t.tabs.set column false } else none
  | .all => some { t with tabs := t.tabs.map fun _ => false }

/-- The region is given by its first and last line, counted from one. -/
def setScrollingRegion (t : Term) (top : Nat) (bottom : Option Nat) : Option Term :=
  let bottom := bottom.getD t.screenLines
  if bottom ≤ top then some t
  else
    { t with
      regionStart := min ((top : Int) - 1) t.screenLines
      regionEnd := min (bottom : Int) t.screenLines }.goto 0 0

/-! ### Inserting, deleting and erasing -/

def bgCell (t : Term) : Cell := .ofColor t.grid.cursor.template.bg

def insertBlank (t : Term) (count : Nat) : Option Term := do
  let room ← usub t.columns t.grid.cursor.point.column
  let count := min count room
  let source := t.grid.cursor.point.column
  let destination := source + count
  let bg := t.bgCell
  let t ← t.damageColumns 0 (t.columns - 1)
  t.modifyRow t.grid.cursor.point.line fun row => do
    let row ← row.touch.swapAll source destination (List.range (t.columns - destination)).reverse
    row.modifyRange source destination fun _ => bg

def deleteChars (t : Term) (count : Nat) : Option Term := do
  let count := min count t.columns
  let start := t.grid.cursor.point.column
  let stop := min (start + count) (t.columns - 1)
  let bg := t.bgCell
  let t ← t.damageColumns 0 (t.columns - 1)
  t.modifyRow t.grid.cursor.point.line fun row => do
    let row ← row.touch.swapAll stop start (List.range (t.columns - stop))
    row.modifyRange (t.columns - count) t.columns fun _ => bg

def eraseChars (t : Term) (count : Nat) : Option Term := do
  let start := t.grid.cursor.point.column
  let stop := min (start + count) t.columns
  let bg := t.bgCell
  let t ← t.damageColumns start stop
  t.modifyRow t.grid.cursor.point.line fun row => row.modifyRange start stop fun _ => bg

def deselect (t : Term) (top bottom : Option Int) : Term :=
  { t with selection := t.selection.filter fun s => !s.intersectsRange top bottom }

def clearColumns (t : Term) (left right : Nat) : Option Term := do
  let bg := t.bgCell
  let t ← t.damageColumns left (right - 1)
  let line := t.grid.cursor.point.line
  let t ← t.modifyRow line fun row => row.modifyRange left right fun _ => bg
  some (t.deselect (some line) (some line))

def clearLine (t : Term) : LineClearMode → Option Term
  | .right =>
      if t.grid.cursor.inputNeedsWrap then some t
      else t.clearColumns t.grid.cursor.point.column t.columns
  | .left => t.clearColumns 0 (t.grid.cursor.point.column + 1)
  | .all => t.clearColumns 0 t.columns

def insertBlankLines (t : Term) (lines : Nat) : Option Term :=
  let origin := t.grid.cursor.point.line
  if t.regionStart ≤ origin ∧ origin < t.regionEnd then t.scrollDownRelative origin lines
  else some t

def deleteLines (t : Term) (lines : Nat) : Option Term := do
  let origin := t.grid.cursor.point.line
  let line ← toUsize origin
  let below ← usub t.screenLines line
  let lines := min below lines
  if 0 < lines ∧ t.regionStart ≤ origin ∧ origin < t.regionEnd then
    t.scrollUpRelative origin lines
  else some t

def resetRegion (t : Term) (start stop : Int) : Option Term := do
  let grid ← t.grid.resetRegion start stop
  some { t with grid }

def clearAbove (t : Term) : Option Term := do
  let cursor := t.grid.cursor.point
  let t ← (if 1 < cursor.line then t.resetRegion 0 cursor.line else some t)
  let bg := t.bgCell
  let t ← t.modifyRow cursor.line fun row =>
    row.modifyRange 0 (min (cursor.column + 1) t.columns) fun _ => bg
  some (t.deselect (some 0) (some cursor.line))

def clearBelow (t : Term) : Option Term := do
  let cursor := t.grid.cursor.point
  let bg := t.bgCell
  let t ← t.modifyRow cursor.line fun row => row.modifyRange cursor.column row.len fun _ => bg
  let line ← toUsize cursor.line
  let lastLine ← usub t.screenLines 1
  let t ← (if line < lastLine then t.resetRegion (cursor.line + 1) t.screenLines else some t)
  some (t.deselect (some cursor.line) (some ((t.screenLines : Int) - 1)))

def clearAll (t : Term) : Option Term := do
  let t ← (if t.mode.altScreen then t.resetRegion 0 t.screenLines
    else do
      let grid ← t.grid.clearViewport
      let lines := grid.displayOffset - t.grid.displayOffset
      some { t with
        grid
        viModeCursor.line := lineGridClamp (t.viModeCursor.line - (lines : Nat)) grid.dims .grid })
  some { t with selection := none }

def clearSaved (t : Term) : Option Term :=
  if 0 < t.grid.historySize then do
    let grid ← t.grid.clearHistory
    some ({ t with
      grid
      viModeCursor.line := lineGridClamp t.viModeCursor.line grid.dims .cursor }.deselect none (some (-1)))
  else some t

def clearScreen (t : Term) (mode : ClearMode) : Option Term := do
  let t ← (match mode with
    | .above => t.clearAbove
    | .below => t.clearBelow
    | .all => t.clearAll
    | .saved => t.clearSaved)
  some t.markFullyDamaged

def decaln (t : Term) : Option Term := do
  let t ← (lineRange 0 t.screenLines).foldlM (fun (t : Term) line =>
    (List.range t.columns).foldlM (fun (t : Term) column =>
      t.modifyCell ⟨line, column⟩ fun _ => { c := 'E' }) t) t
  some t.markFullyDamaged

/-- Run the side effects of setting the number of columns. -/
def deccolm (t : Term) : Option Term := do
  let t ← t.setScrollingRegion 1 none
  let t ← t.resetRegion 0 t.screenLines
  some t.markFullyDamaged

/-- Reset all important fields in the term struct. -/
def resetState (t : Term) : Option Term := do
  let t := if t.mode.altScreen then { t with grid := t.inactiveGrid, inactiveGrid := t.grid } else t
  let grid ← t.grid.reset
  let inactiveGrid ← t.inactiveGrid.reset
  some ({ t with
    activeCharset := .g0
    cursorStyle := none
    grid
    inactiveGrid
    regionStart := 0
    regionEnd := grid.lines
    tabs := newTabStops grid.columns
    titleStack := []
    title := none
    selection := none
    viModeCursor := default
    keyboardModeStack := []
    inactiveKeyboardModeStack := []
    mode := { TermMode.initial with vi := t.mode.vi } }.sendEvent .cursorBlinkingChange).markFullyDamaged

/-! ### Attributes and colours -/

/-- An update of the cell template; it touches no cell yet. -/
def modifyTemplate (t : Term) (f : Cell → Cell) : Term :=
  { t with grid.cursor.template := f t.grid.cursor.template }

def modifyTemplateFlags (t : Term) (f : Flags → Flags) : Term :=
  t.modifyTemplate fun cell => { cell with flags := f cell.flags }

def terminalAttribute (t : Term) : Attr → Term
  | .foreground color => t.modifyTemplate fun cell => { cell with fg := color }
  | .background color => t.modifyTemplate fun cell => { cell with bg := color }
  | .underlineColor color => t.modifyTemplate (Cell.setUnderlineColor · color)
  | .reset => t.modifyTemplate fun cell =>
      { cell with fg := .named .foreground, bg := .named .background, flags := .empty }.setUnderlineColor
        none
  | .reverse => t.modifyTemplateFlags fun f => { f with inverse := true }
  | .cancelReverse => t.modifyTemplateFlags fun f => { f with inverse := false }
  | .bold => t.modifyTemplateFlags fun f => { f with bold := true }
  | .cancelBold => t.modifyTemplateFlags fun f => { f with bold := false }
  | .dim => t.modifyTemplateFlags fun f => { f with dim := true }
  | .cancelBoldDim => t.modifyTemplateFlags fun f => { f with bold := false, dim := false }
  | .italic => t.modifyTemplateFlags fun f => { f with italic := true }
  | .cancelItalic => t.modifyTemplateFlags fun f => { f with italic := false }
  | .underline => t.modifyTemplateFlags fun f => { f.removeUnderlines with underline := true }
  | .doubleUnderline =>
      t.modifyTemplateFlags fun f => { f.removeUnderlines with doubleUnderline := true }
  | .undercurl => t.modifyTemplateFlags fun f => { f.removeUnderlines with undercurl := true }
  | .dottedUnderline =>
      t.modifyTemplateFlags fun f => { f.removeUnderlines with dottedUnderline := true }
  | .dashedUnderline =>
      t.modifyTemplateFlags fun f => { f.removeUnderlines with dashedUnderline := true }
  | .cancelUnderline => t.modifyTemplateFlags Flags.removeUnderlines
  | .hidden => t.modifyTemplateFlags fun f => { f with hidden := true }
  | .cancelHidden => t.modifyTemplateFlags fun f => { f with hidden := false }
  | .strike => t.modifyTemplateFlags fun f => { f with strikeout := true }
  | .cancelStrike => t.modifyTemplateFlags fun f => { f with strikeout := false }
  | .blinkSlow | .blinkFast | .cancelBlink => t

def setHyperlink (t : Term) (hyperlink : Option Hyperlink) : Term :=
  t.modifyTemplate (Cell.setHyperlink · hyperlink)

/-- `NamedColor::Cursor as usize`. -/
def cursorColorIndex : Nat := 258

/-- Change a color, and damage everything if another one than the cursor's changed. -/
def writeColor (t : Term) (index : Nat) (color : Option Rgb) (changed : Option Rgb → Bool) :
    Option Term := do
  let old ← t.colors[index]?
  let t := if index ≠ cursorColorIndex ∧ changed old = true then t.markFullyDamaged else t
  some { t with colors := t.colors.set index color }

def setColor (t : Term) (index : Nat) (color : Rgb) : Option Term :=
  t.writeColor index (some color) fun old => decide (old ≠ some color)

def resetColor (t : Term) (index : Nat) : Option Term := t.writeColor index none Option.isSome

def configureCharset (t : Term) (index : CharsetIndex) (charset : StandardCharset) : Term :=
  { t with grid.cursor.charsets := t.grid.cursor.charsets.set charset index }

def setActiveCharset (t : Term) (index : CharsetIndex) : Term := { t with activeCharset := index }

def setCursorStyle (t : Term) (style : Option CursorStyle) : Term :=
  { t with cursorStyle := style }.sendEvent .cursorBlinkingChange

/-- An update of the cursor style; without one it is the configured style first. -/
def modifyCursorStyle (t : Term) (f : CursorStyle → CursorStyle) : Term :=
  { t with cursorStyle := some (f (t.cursorStyle.getD t.config.defaultCursorStyle)) }

def setCursorShape (t : Term) (shape : CursorShape) : Term := t.modifyCursorStyle ({ · with shape })

/-! ### Modes -/

def swapAltIf (t : Term) (b : Bool) : Option Term := if t.mode.altScreen = b then t.swapAlt else some t

def modifyMode (t : Term) (f : TermMode → TermMode) : Term := { t with mode := f t.mode }

/-- Mouse protocols are mutually exclusive. -/
def setMouseMode (t : Term) (f : TermMode → TermMode) : Term :=
  (t.modifyMode fun m =>
    f { m with mouseReportClick := false, mouseMotion := false, mouseDrag := false }).sendEvent
      .mouseCursorDirty

def setPrivateMode (t : Term) : PrivateMode → Option Term
  | .unknown _ => some t
  | .named .urgencyHints => some (t.modifyMode fun m => { m with urgencyHints := true })
  | .named .swapScreenAndSetRestoreCursor => t.swapAltIf false
  | .named .showCursor => some (t.modifyMode fun m => { m with showCursor := true })
  | .named .cursorKeys => some (t.modifyMode fun m => { m with appCursor := true })
  | .named .reportMouseClicks => some (t.setMouseMode fun m => { m with mouseReportClick := true })
  | .named .reportCellMouseMotion => some (t.setMouseMode fun m => { m with mouseDrag := true })
  | .named .reportAllMouseMotion => some (t.setMouseMode fun m => { m with mouseMotion := true })
  | .named .reportFocusInOut => some (t.modifyMode fun m => { m with focusInOut := true })
  | .named .bracketedPaste => some (t.modifyMode fun m => { m with bracketedPaste := true })
  | .named .sgrMouse => some (t.modifyMode fun m => { m with utf8Mouse := false, sgrMouse := true })
  | .named .utf8Mouse => some (t.modifyMode fun m => { m with sgrMouse := false, utf8Mouse := true })
  | .named .alternateScroll => some (t.modifyMode fun m => { m with alternateScroll := true })
  | .named .lineWrap => some (t.modifyMode fun m => { m with lineWrap := true })
  | .named .origin => (t.modifyMode fun m => { m with origin := true }).goto 0 0
  | .named .columnMode => t.deccolm
  | .named .blinkingCursor =>
      some ((t.modifyCursorStyle ({ · with blinking := true })).sendEvent .cursorBlinkingChange)
  | .named .syncUpdate => some t

def unsetPrivateMode (t : Term) : PrivateMode → Option Term
  | .unknown _ => some t
  | .named .urgencyHints => some (t.modifyMode fun m => { m with urgencyHints := false })
  | .named .swapScreenAndSetRestoreCursor => t.swapAltIf true
  | .named .showCursor => some (t.modifyMode fun m => { m with showCursor := false })
  | .named .cursorKeys => some (t.modifyMode fun m => { m with appCursor := false })
  | .named .reportMouseClicks =>
      some ((t.modifyMode fun m => { m with mouseReportClick := false }).sendEvent .mouseCursorDirty)
  | .named .reportCellMouseMotion =>
      some ((t.modifyMode fun m => { m with mouseDrag := false }).sendEvent .mouseCursorDirty)
  | .named .reportAllMouseMotion =>
      some ((t.modifyMode fun m => { m with mouseMotion := false }).sendEvent .mouseCursorDirty)
  | .named .reportFocusInOut => some (t.modifyMode fun m => { m with focusInOut := false })
  | .named .bracketedPaste => some (t.modifyMode fun m => { m with bracketedPaste := false })
  | .named .sgrMouse => some (t.modifyMode fun m => { m with sgrMouse := false })
  | .named .utf8Mouse => some (t.modifyMode fun m => { m with utf8Mouse := false })
  | .named .alternateScroll => some (t.modifyMode fun m => { m with alternateScroll := false })
  | .named .lineWrap => some (t.modifyMode fun m => { m with lineWrap := false })
  | .named .origin => some (t.modifyMode fun m => { m with origin := false })
  | .named .columnMode => t.deccolm
  | .named .blinkingCursor =>
      some ((t.modifyCursorStyle ({ · with blinking := false })).sendEvent .cursorBlinkingChange)
  | .named .syncUpdate => some t

def setMode (t : Term) : Mode → Term
  | .unknown _ => t
  | .named .insert => t.modifyMode fun m => { m with insert := true }
  | .named .lineFeedNewLine => t.modifyMode fun m => { m with lineFeedNewLine := true }

def unsetMode (t : Term) : Mode → Term
  | .unknown _ => t
  | .named .insert => (t.modifyMode fun m => { m with insert := false }).markFullyDamaged
  | .named .lineFeedNewLine => t.modifyMode fun m => { m with lineFeedNewLine := false }

def setKeypadApplicationMode (t : Term) : Term := t.modifyMode fun m => { m with appKeypad := true }

def unsetKeypadApplicationMode (t : Term) : Term := t.modifyMode fun m => { m with appKeypad := false }

/-! ### Keyboard modes and titles -/

/-- The active mode is the one on top of the stack. -/
def reloadKeyboardMode (t : Term) : Term :=
  t.applyKeyboardMode (t.keyboardModeStack.getLast?.getD .noMode) .replace

/-- The source removes from the title stack when the keyboard mode stack is full. -/
def pushKeyboardMode (t : Term) (mode : KeyboardModes) : Option Term :=
  if t.config.kittyKeyboard then do
    let t ← (if keyboardModeStackMaxDepth ≤ t.keyboardModeStack.length then
        match t.titleStack with
        | [] => none
        | _ :: titleStack => some { t with titleStack }
      else some t)
    some ({ t with keyboardModeStack := t.keyboardModeStack ++ [mode] }.applyKeyboardMode mode .replace)
  else some t

def popKeyboardModes (t : Term) (toPop : Nat) : Term :=
  if t.config.kittyKeyboard then
    { t with
      keyboardModeStack := t.keyboardModeStack.take (t.keyboardModeStack.length - toPop)
    }.reloadKeyboardMode
  else t

def setKeyboardMode (t : Term) (mode : KeyboardModes) (apply : KeyboardModesApplyBehavior) : Term :=
  if t.config.kittyKeyboard then t.applyKeyboardMode mode apply else t

def setTitle (t : Term) (title : Option String) : Term :=
  { t with title }.sendEvent (match title with
    | some title => .title title
    | none => .resetTitle)

def pushTitle (t : Term) : Term :=
  let titleStack := if titleStackMaxDepth ≤ t.titleStack.length then t.titleStack.tail else t.titleStack
  { t with titleStack := titleStack ++ [t.title] }

def popTitle (t : Term) : Term :=
  match t.titleStack.getLast? with
  | some popped => { t with titleStack := t.titleStack.dropLast }.setTitle popped
  | none => t

/-! ### Reports -/

def ptyWrite (t : Term) (text : String) : Term := t.sendEvent (.ptyWrite text)

def identifyTerminal (env : Env) (t : Term) : Option Char → Term
  | none => t.ptyWrite "\x1b[?6c"
  | some '>' => t.ptyWrite s!"\x1b[>0;{env.version};1c"
  | some _ => t

def reportKeyboardMode (t : Term) : Term :=
  if t.config.kittyKeyboard then
    let currentMode := (t.keyboardModeStack.getLast?.getD .noMode).bits
    t.ptyWrite s!"\x1b[?{currentMode}u"
  else t

def deviceStatus (t : Term) (arg : Nat) : Term :=
  if arg = 5 then t.ptyWrite "\x1b[0n"
  else if arg = 6 then
    let pos := t.grid.cursor.point
    t.ptyWrite s!"\x1b[{pos.line + 1};{pos.column + 1}R"
  else t

def bell (t : Term) : Term := t.sendEvent .bell

def substitute (t : Term) : Term := t

def dynamicColorSequence (t : Term) (tag : String) (index : Nat) (terminator : String) : Term :=
  t.sendEvent (.colorRequest index tag terminator)

def clipboardType (clipboard : UInt8) : Option ClipboardType :=
  if clipboard = 99 then some .clipboard
  else if clipboard = 112 ∨ clipboard = 115 then some .selection
  else none

def clipboardStore (env : Env) (t : Term) (clipboard : UInt8) (base64 : List UInt8) : Term :=
  if t.config.osc52 = .onlyCopy ∨ t.config.osc52 = .copyPaste then
    match clipboardType clipboard, env.decode base64 with
    | some ty, some text => t.sendEvent (.clipboardStore ty text)
    | _, _ => t
  else t

def clipboardLoad (t : Term) (clipboard : UInt8) (terminator : String) : Term :=
  if t.config.osc52 = .onlyPaste ∨ t.config.osc52 = .copyPaste then
    match clipboardType clipboard with
    | some ty => t.sendEvent (.clipboardLoad ty clipboard terminator)
    | none => t
  else t

def reportState (t : Term) (tag : String) (mode : Nat) (state : ModeState) : Term :=
  let value := state.toNat
  t.ptyWrite s!"\x1b[{tag}{mode};{value}$y"

/-- The state of a private mode. Asking for the blinking cursor makes the configured
style the current one. -/
def privateModeState (t : Term) : PrivateMode → ModeState
  | .unknown _ => .notSupported
  | .named .cursorKeys => .ofBool t.mode.appCursor
  | .named .origin => .ofBool t.mode.origin
  | .named .lineWrap => .ofBool t.mode.lineWrap
  | .named .blinkingCursor => .ofBool (t.cursorStyle.getD t.config.defaultCursorStyle).blinking
  | .named .showCursor => .ofBool t.mode.showCursor
  | .named .reportMouseClicks => .ofBool t.mode.mouseReportClick
  | .named .reportCellMouseMotion => .ofBool t.mode.mouseDrag
  | .named .reportAllMouseMotion => .ofBool t.mode.mouseMotion
  | .named .reportFocusInOut => .ofBool t.mode.focusInOut
  | .named .utf8Mouse => .ofBool t.mode.utf8Mouse
  | .named .sgrMouse => .ofBool t.mode.sgrMouse
  | .named .alternateScroll => .ofBool t.mode.alternateScroll
  | .named .urgencyHints => .ofBool t.mode.urgencyHints
  | .named .swapScreenAndSetRestoreCursor => .ofBool t.mode.altScreen
  | .named .bracketedPaste => .ofBool t.mode.bracketedPaste
  | .named .syncUpdate => .reset
  | .named .columnMode => .notSupported

def reportPrivateMode (t : Term) (mode : PrivateMode) : Term :=
  let state := t.privateModeState mode
  let t := if mode = .named .blinkingCursor then t.modifyCursorStyle id else t
  t.reportState "?" mode.raw state

def modeState (t : Term) : Mode → ModeState
  | .unknown _ => .notSupported
  | .named .insert => .ofBool t.mode.insert
  | .named .lineFeedNewLine => .ofBool t.mode.lineFeedNewLine

def reportMode (t : Term) (mode : Mode) : Term := t.reportState "" mode.raw (t.modeState mode)

def textAreaSizePixels (t : Term) : Term := t.sendEvent .textAreaSizeRequest

def textAreaSizeChars (t : Term) : Term :=
  let lines := t.screenLines
  let columns := t.columns
  t.ptyWrite s!"\x1b[8;{lines};{columns}t"

end Term
end Velacritty
