import Velacritty.GridResize
import Velacritty.Selection

/-! The terminal: its state, damage tracking, and everything that moves the grid as a
whole. -/
namespace Velacritty

def titleStackMaxDepth : Nat := 4096

def keyboardModeStackMaxDepth : Nat := titleStackMaxDepth

/-- Default tab interval. -/
def initialTabstops : Nat := 8

def colorCount : Nat := 269

/-- The kitty keyboard flags, one field for each bit. -/
structure KeyboardModes where
  disambiguateEscCodes : Bool := false
  reportEventTypes : Bool := false
  reportAlternateKeys : Bool := false
  reportAllKeysAsEsc : Bool := false
  reportAssociatedText : Bool := false
  deriving DecidableEq, Repr

namespace KeyboardModes

def noMode : KeyboardModes := {}

def union (a b : KeyboardModes) : KeyboardModes where
  disambiguateEscCodes := a.disambiguateEscCodes || b.disambiguateEscCodes
  reportEventTypes := a.reportEventTypes || b.reportEventTypes
  reportAlternateKeys := a.reportAlternateKeys || b.reportAlternateKeys
  reportAllKeysAsEsc := a.reportAllKeysAsEsc || b.reportAllKeysAsEsc
  reportAssociatedText := a.reportAssociatedText || b.reportAssociatedText

def difference (a b : KeyboardModes) : KeyboardModes where
  disambiguateEscCodes := a.disambiguateEscCodes && !b.disambiguateEscCodes
  reportEventTypes := a.reportEventTypes && !b.reportEventTypes
  reportAlternateKeys := a.reportAlternateKeys && !b.reportAlternateKeys
  reportAllKeysAsEsc := a.reportAllKeysAsEsc && !b.reportAllKeysAsEsc
  reportAssociatedText := a.reportAssociatedText && !b.reportAssociatedText

def bits (m : KeyboardModes) : Nat :=
  m.disambiguateEscCodes.toNat + 2 * m.reportEventTypes.toNat + 4 * m.reportAlternateKeys.toNat +
    8 * m.reportAllKeysAsEsc.toNat + 16 * m.reportAssociatedText.toNat

end KeyboardModes

inductive KeyboardModesApplyBehavior where
  | replace
  | union
  | difference
  deriving DecidableEq, Repr

/-- Terminal modes, one field for each bit; `keyboard` are the bits of
`KITTY_KEYBOARD_PROTOCOL`. -/
structure TermMode where
  showCursor : Bool := false
  appCursor : Bool := false
  appKeypad : Bool := false
  mouseReportClick : Bool := false
  bracketedPaste : Bool := false
  sgrMouse : Bool := false
  mouseMotion : Bool := false
  lineWrap : Bool := false
  lineFeedNewLine : Bool := false
  origin : Bool := false
  insert : Bool := false
  focusInOut : Bool := false
  altScreen : Bool := false
  mouseDrag : Bool := false
  utf8Mouse : Bool := false
  alternateScroll : Bool := false
  vi : Bool := false
  urgencyHints : Bool := false
  keyboard : KeyboardModes := .noMode
  deriving DecidableEq, Repr

/-- `TermMode::default`. -/
def TermMode.initial : TermMode :=
  { showCursor := true, lineWrap := true, alternateScroll := true, urgencyHints := true }

/-- Convert a terminal point to a viewport relative point. -/
def pointToViewport (displayOffset : Nat) (point : Point) : Option (Nat × Nat) := do
  let line ← toUsize (point.line + displayOffset)
  some (line, point.column)

inductive CursorShape where
  | block
  | underline
  | beam
  | hollowBlock
  | hidden
  deriving DecidableEq, Repr

structure CursorStyle where
  shape : CursorShape
  blinking : Bool
  deriving DecidableEq, Repr

inductive Osc52 where
  | disabled
  | onlyCopy
  | onlyPaste
  | copyPaste
  deriving DecidableEq, Repr

structure Config where
  scrollingHistory : Nat
  defaultCursorStyle : CursorStyle
  viModeCursorStyle : Option CursorStyle
  semanticEscapeChars : List Char
  kittyKeyboard : Bool
  osc52 : Osc52
  autoScroll : Bool
  deriving DecidableEq, Repr

/-- `Config::default`. -/
def Config.initial : Config where
  scrollingHistory := 10000
  defaultCursorStyle := ⟨.block, false⟩
  viModeCursorStyle := none
  semanticEscapeChars :=
    [',', '│', '\x60', '|', ':', '"', '\'', ' ', '(', ')', '[', ']', '\x7b', '\x7d', '<', '>', '\t']
  kittyKeyboard := false
  osc52 := .onlyCopy
  autoScroll := true

inductive ClipboardType where
  | clipboard
  | selection
  deriving DecidableEq, Repr

/-- Terminal events. Where the source attaches a formatter, the event holds what the
formatter captured. -/
inductive Event where
  | mouseCursorDirty
  | title (title : String)
  | resetTitle
  | clipboardStore (ty : ClipboardType) (text : String)
  | clipboardLoad (ty : ClipboardType) (clipboard : UInt8) (terminator : String)
  | colorRequest (index : Nat) (tag terminator : String)
  | ptyWrite (text : String)
  | textAreaSizeRequest
  | cursorBlinkingChange
  | bell
  | exit
  deriving DecidableEq, Repr

/-! ### Damage -/

/-- Damaged columns of a line; undamaged if `left` exceeds `right`. -/
structure LineDamageBounds where
  line : Nat
  left : Nat
  right : Nat
  deriving DecidableEq, Repr

namespace LineDamageBounds

def undamaged (line numCols : Nat) : LineDamageBounds := ⟨line, numCols, 0⟩

def reset (b : LineDamageBounds) (numCols : Nat) : LineDamageBounds := undamaged b.line numCols

def expand (b : LineDamageBounds) (left right : Nat) : LineDamageBounds :=
  { b with left := min b.left left, right := max b.right right }

def isDamaged (b : LineDamageBounds) : Bool := decide (b.left ≤ b.right)

end LineDamageBounds

/-- Terminal damage information collected since the last reset. -/
inductive TermDamage where
  | full
  | lines (bounds : List LineDamageBounds)
  deriving DecidableEq, Repr

structure TermDamageState where
  full : Bool
  lines : List LineDamageBounds
  lastCursor : Point
  deriving DecidableEq, Repr

namespace TermDamageState

def undamagedLines (numCols numLines : Nat) : List LineDamageBounds :=
  (List.range numLines).map (LineDamageBounds.undamaged · numCols)

def new (numCols numLines : Nat) : TermDamageState := ⟨true, undamagedLines numCols numLines, default⟩

/-- Reset point, so old cursor won't end up outside of the viewport. -/
def resize (numCols numLines : Nat) : TermDamageState :=
  ⟨true, undamagedLines numCols numLines, default⟩

/-- Expand `line`'s damage to span at least `left` to `right` column. -/
def damageLine (d : TermDamageState) (line left right : Nat) : Option TermDamageState :=
  if line < d.lines.length then
    some { d with lines := d.lines.modify line (LineDamageBounds.expand · left right) }
  else none

def damagePoint (d : TermDamageState) (line column : Nat) : Option TermDamageState :=
  d.damageLine line column column

def reset (d : TermDamageState) (numCols : Nat) : TermDamageState :=
  { d with full := false, lines := d.lines.map (LineDamageBounds.reset · numCols) }

/-- The damaged lines that are visible, at their place in the viewport. -/
def visible (d : TermDamageState) (displayOffset : Nat) : List LineDamageBounds :=
  ((d.lines.take (d.lines.length - displayOffset)).filter LineDamageBounds.isDamaged).map
    fun b => { b with line := b.line + displayOffset }

end TermDamageState

/-! ### Tab stops -/

/-- `TabStops::new`. -/
def newTabStops (columns : Nat) : List Bool :=
  (List.range columns).map fun i => decide (i % initialTabstops = 0)

/-- `TabStops::resize`: new columns get the initial tab stops. -/
def resizeTabStops (tabs : List Bool) (columns : Nat) : List Bool :=
  tabs.take columns ++ (newTabStops columns).drop tabs.length

/-! ### The terminal -/

structure Term where
  isFocused : Bool
  viModeCursor : Point
  selection : Option Selection
  grid : Grid Cell
  inactiveGrid : Grid Cell
  activeCharset : CharsetIndex
  tabs : List Bool
  mode : TermMode
  /-- The scroll region, from its top to the line below it. -/
  regionStart : Int
  regionEnd : Int
  colors : List (Option Rgb)
  cursorStyle : Option CursorStyle
  /-- Events sent so far. -/
  events : List Event
  title : Option String
  titleStack : List (Option String)
  keyboardModeStack : List KeyboardModes
  inactiveKeyboardModeStack : List KeyboardModes
  damageState : TermDamageState
  config : Config
  deriving DecidableEq, Repr

namespace Term

def dims (t : Term) : Dimensions := t.grid.dims
def columns (t : Term) : Nat := t.grid.columns
def screenLines (t : Term) : Nat := t.grid.lines
def lastColumn (t : Term) : Nat := t.dims.lastColumn
def topmostLine (t : Term) : Int := t.dims.topmostLine
def bottommostLine (t : Term) : Int := t.dims.bottommostLine

def new (config : Config) (numLines numCols : Nat) : Term where
  isFocused := false
  viModeCursor := default
  selection := none
  grid := .new numLines numCols config.scrollingHistory
  inactiveGrid := .new numLines numCols 0
  activeCharset := .g0
  tabs := newTabStops numCols
  mode := .initial
  regionStart := 0
  regionEnd := numLines
  colors := List.replicate colorCount none
  cursorStyle := none
  events := []
  title := none
  titleStack := []
  keyboardModeStack := []
  inactiveKeyboardModeStack := []
  damageState := .new numCols numLines
  config

def sendEvent (t : Term) (event : Event) : Term := { t with events := t.events ++ [event] }

def markFullyDamaged (t : Term) : Term := { t with damageState.full := true }

def damageLine (t : Term) (line left right : Nat) : Option Term := do
  let damageState ← t.damageState.damageLine line left right
  some { t with damageState }

/-- The normal cursor coordinates are always in viewport. -/
def damageCursor (t : Term) : Option Term := do
  let line ← toUsize t.grid.cursor.point.line
  let damageState ← t.damageState.damagePoint line t.grid.cursor.point.column
  some { t with damageState }

/-- Collect the information about the changes in the lines. -/
def damage (t : Term) : Option (Term × TermDamage) := do
  let t := if t.mode.insert then t.markFullyDamaged else t
  let previousCursor := t.damageState.lastCursor
  let t := { t with damageState.lastCursor := t.grid.cursor.point }
  if t.damageState.full then some (t, .full)
  else
    let t ← (if t.damageState.lastCursor ≠ previousCursor then do
        let line ← toUsize previousCursor.line
        let damageState ← t.damageState.damagePoint line previousCursor.column
        some { t with damageState }
      else some t)
    let t ← t.damageCursor
    some (t, .lines (t.damageState.visible t.grid.displayOffset))

def resetDamage (t : Term) : Term := { t with damageState := t.damageState.reset t.columns }

/-- Update the active selection to match the vi mode cursor position. -/
def viModeRecomputeSelection (t : Term) : Term :=
  if t.mode.vi then
    { t with
      selection := t.selection.map fun s =>
        if s.isEmpty then s else (s.update t.viModeCursor .left).includeAll }
  else t

def scrollDisplay (t : Term) (scroll : Scroll) : Term :=
  let oldDisplayOffset := t.grid.displayOffset
  let t := { t with grid := t.grid.scrollDisplay scroll }.sendEvent .mouseCursorDirty
  let viewportStart := -(t.grid.displayOffset : Int)
  let viewportEnd := viewportStart + t.bottommostLine
  let t := { t with viModeCursor.line := min viewportEnd (max viewportStart t.viModeCursor.line) }
  let t := t.viModeRecomputeSelection
  if oldDisplayOffset ≠ t.grid.displayOffset then t.markFullyDamaged else t

def setOptions (t : Term) (options : Config) : Option Term := do
  let oldConfig := t.config
  let t := { t with config := options }
  let t := t.sendEvent (match t.title with
    | some title => .title title
    | none => .resetTitle)
  let t ← (if t.mode.altScreen then do
      let inactiveGrid ← t.inactiveGrid.updateHistory t.config.scrollingHistory
      some { t with inactiveGrid }
    else do
      let grid ← t.grid.updateHistory t.config.scrollingHistory
      some { t with grid })
  let t := if t.config.kittyKeyboard ≠ oldConfig.kittyKeyboard then
      { t with keyboardModeStack := [], inactiveKeyboardModeStack := [], mode.keyboard := .noMode }
    else t
  some t.markFullyDamaged

/-- How far a resize moves the content, and the vi mode cursor with it. -/
def resizeDelta (t : Term) (numLines : Nat) : Int :=
  let delta : Int := numLines - t.screenLines
  let minDelta := min 0 ((numLines : Int) - t.grid.cursor.point.line - 1)
  min (max delta minDelta) t.grid.historySize

def resize (t : Term) (numLines numCols : Nat) : Option Term :=
  let oldCols := t.columns
  let oldLines := t.screenLines
  if oldCols = numCols ∧ oldLines = numLines then some t
  else do
    let delta := t.resizeDelta numLines
    let t := { t with viModeCursor.line := t.viModeCursor.line + delta }
    let isAlt := t.mode.altScreen
    let grid ← t.grid.resize (!isAlt) numLines numCols
    let inactiveGrid ← t.inactiveGrid.resize isAlt numLines numCols
    let t := { t with grid, inactiveGrid }
    let t := if oldCols ≠ numCols then
        { t with selection := none, tabs := resizeTabStops t.tabs numCols }
      else
        { t with selection := t.selection.bind (·.rotate t.dims 0 (max numLines oldLines : Nat) (-delta)) }
    let viewportTop := -(t.grid.displayOffset : Int)
    let viewportBottom := viewportTop + t.bottommostLine
    some { t with
      viModeCursor := ⟨max (min t.viModeCursor.line viewportBottom) viewportTop,
        min t.viModeCursor.column t.lastColumn⟩
      regionStart := 0
      regionEnd := t.screenLines
      damageState := .resize numCols numLines }

/-- `Term::set_keyboard_mode`. -/
def applyKeyboardMode (t : Term) (mode : KeyboardModes) (apply : KeyboardModesApplyBehavior) : Term :=
  let activeMode := t.mode.keyboard
  { t with
    mode.keyboard := match apply with
      | .replace => mode
      | .union => activeMode.union mode
      | .difference => activeMode.difference mode }

/-- Swap primary and alternate screen buffer. -/
def swapAlt (t : Term) : Option Term := do
  let t ← (if t.mode.altScreen then some t
    else do
      let inactiveGrid := { t.inactiveGrid with cursor := t.grid.cursor }
      let t := { t with grid.savedCursor := t.grid.cursor }
      let inactiveGrid ← inactiveGrid.resetRegion 0 inactiveGrid.lines
      some { t with inactiveGrid })
  let t := { t with
    keyboardModeStack := t.inactiveKeyboardModeStack
    inactiveKeyboardModeStack := t.keyboardModeStack }
  let t := t.applyKeyboardMode (t.keyboardModeStack.getLast?.getD .noMode) .replace
  some { t with
    grid := t.inactiveGrid
    inactiveGrid := t.grid
    mode.altScreen := !t.mode.altScreen
    selection := none }.markFullyDamaged

def scrollDownRelative (t : Term) (origin : Int) (lines : Nat) : Option Term := do
  let size ← toUsize (t.regionEnd - t.regionStart)
  let below ← toUsize (t.regionEnd - origin)
  let lines := min (min lines size) below
  let t := { t with
    selection := t.selection.bind (·.rotate t.dims origin t.regionEnd (-(lines : Int))) }
  let line := t.viModeCursor.line
  let t := if origin ≤ line ∧ line < t.regionEnd then
      { t with viModeCursor.line := min (line + lines) (t.regionEnd - 1) }
    else t
  let grid ← t.grid.scrollDown origin t.regionEnd lines
  some { t with grid }.markFullyDamaged

def scrollUpRelative (t : Term) (origin : Int) (lines : Nat) : Option Term := do
  let size ← toUsize (t.regionEnd - t.regionStart)
  let lines := min lines size
  let t := { t with
    selection := t.selection.bind (·.rotate t.dims origin t.regionEnd lines) }
  let grid ← t.grid.scrollUp origin t.regionEnd lines
  let t := { t with grid }
  let viewportTop := -(t.grid.displayOffset : Int)
  let top := if origin = 0 then viewportTop else origin
  let line := t.viModeCursor.line
  let t := if top ≤ line ∧ line < t.regionEnd then
      { t with viModeCursor.line := max (line - lines) top }
    else t
  some t.markFullyDamaged

def toggleViMode (t : Term) : Term :=
  let t := { t with mode.vi := !t.mode.vi }
  let t := if t.mode.vi then
      let displayOffset := (t.grid.displayOffset : Int)
      if t.bottommostLine - displayOffset < t.grid.cursor.point.line then
        { t with viModeCursor := ⟨-displayOffset, 0⟩ }
      else { t with viModeCursor := t.grid.cursor.point }
    else t
  t.sendEvent .cursorBlinkingChange

def scrollToPoint (t : Term) (point : Point) : Term :=
  let displayOffset := (t.grid.displayOffset : Int)
  let screenLines := (t.screenLines : Int)
  if point.line < -displayOffset then t.scrollDisplay (.delta (-(point.line + displayOffset)))
  else if screenLines - displayOffset ≤ point.line then
    t.scrollDisplay (.delta (-(point.line + displayOffset - screenLines + 1)))
  else t

def viGotoPoint (t : Term) (point : Point) : Term :=
  let t := t.scrollToPoint point
  { t with viModeCursor := point }.viModeRecomputeSelection

def expandWide (t : Term) (point : Point) (direction : Side) : Option Point := do
  let cell ← t.grid.cellAt point
  match direction with
  | .right =>
      if cell.flags.leadingWideCharSpacer then some ⟨point.line + 1, 1⟩
      else if cell.flags.wideChar then
        some { point with column := min (point.column + 1) t.lastColumn }
      else some point
  | .left =>
      if cell.flags.wideChar || cell.flags.wideCharSpacer then do
        let column ← (if cell.flags.wideCharSpacer then usub point.column 1 else some point.column)
        let point := { point with column }
        let prev := point.sub t.dims .grid 1
        let prevCell ← t.grid.cellAt prev
        some (if prevCell.flags.leadingWideCharSpacer then prev else point)
      else some point

end Term
end Velacritty
