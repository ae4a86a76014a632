import Velacritty.Index

/-! Cells: flags, colours and content. -/
namespace Velacritty

/-- Cell flags, one field for each bit. -/
structure Flags where
  inverse : Bool := false
  bold : Bool := false
  italic : Bool := false
  underline : Bool := false
  wrapline : Bool := false
  wideChar : Bool := false
  wideCharSpacer : Bool := false
  dim : Bool := false
  hidden : Bool := false
  strikeout : Bool := false
  leadingWideCharSpacer : Bool := false
  doubleUnderline : Bool := false
  undercurl : Bool := false
  dottedUnderline : Bool := false
  dashedUnderline : Bool := false
  deriving DecidableEq, Repr, Inhabited

namespace Flags

def empty : Flags := {}

/-- Whether any bit of `ALL_UNDERLINES` is set. -/
def anyUnderline (f : Flags) : Bool :=
  f.underline || f.doubleUnderline || f.undercurl || f.dottedUnderline || f.dashedUnderline

def removeUnderlines (f : Flags) : Flags :=
  { f with
    underline := false, doubleUnderline := false, undercurl := false
    dottedUnderline := false, dashedUnderline := false }

/-- Whether the cell only completes a fullwidth character next to it. -/
def anySpacer (f : Flags) : Bool := f.wideCharSpacer || f.leadingWideCharSpacer

end Flags

inductive NamedColor where
  | black | red | green | yellow | blue | magenta | cyan | white
  | brightBlack | brightRed | brightGreen | brightYellow | brightBlue | brightMagenta | brightCyan
  | brightWhite
  | foreground | background | cursor
  | dimBlack | dimRed | dimGreen | dimYellow | dimBlue | dimMagenta | dimCyan | dimWhite
  | brightForeground | dimForeground
  deriving DecidableEq, Repr

structure Rgb where
  r : UInt8
  g : UInt8
  b : UInt8
  deriving DecidableEq, Repr, Inhabited

inductive Color where
  | named (color : NamedColor)
  | spec (rgb : Rgb)
  | indexed (index : UInt8)
  deriving DecidableEq, Repr

structure Hyperlink where
  id : String
  uri : String
  deriving DecidableEq, Repr

/-- Cell attributes which are rarely set. -/
structure CellExtra where
  zerowidth : List Char := []
  underlineColor : Option Color := none
  hyperlink : Option Hyperlink := none
  deriving DecidableEq, Repr

/-- What the grid asks of its cells: `Default`, the `GridCell` methods and whether
two cells agree in their `ResetDiscriminant`. -/
class GridCell (T : Type) extends Inhabited T where
  /-- Check if the cell contains any content. -/
  isEmpty : T → Bool
  /-- Perform an opinionated cell reset based on a template cell. -/
  reset : T → T → T
  flags : T → Flags
  modifyFlags : (Flags → Flags) → T → T
  sameDiscriminant : T → T → Bool

/-- Content and attributes of a single cell in the terminal grid. -/
structure Cell where
  c : Char := ' '
  fg : Color := .named .foreground
  bg : Color := .named .background
  flags : Flags := .empty
  extra : Option CellExtra := none
  deriving DecidableEq, Repr

namespace Cell

/-- `Cell::default`. -/
def blank : Cell := {}

def ofColor (color : Color) : Cell := { bg := color }

def zerowidth (cell : Cell) : Option (List Char) := cell.extra.map CellExtra.zerowidth

def pushZerowidth (cell : Cell) (character : Char) : Cell :=
  let extra := cell.extra.getD {}
  { cell with extra := some { extra with zerowidth := extra.zerowidth ++ [character] } }

def clearWide (cell : Cell) : Cell :=
  { cell with
    flags := { cell.flags with wideChar := false }
    extra := cell.extra.map fun extra => { extra with zerowidth := [] }
    c := ' ' }

def setUnderlineColor (cell : Cell) (color : Option Color) : Cell :=
  if color.isNone && cell.extra.all fun extra => extra.zerowidth.isEmpty && extra.hyperlink.isNone then
    { cell with extra := none }
  else { cell with extra := some { cell.extra.getD {} with underlineColor := color } }

def setHyperlink (cell : Cell) (hyperlink : Option Hyperlink) : Cell :=
  if hyperlink.isNone &&
      cell.extra.all fun extra => extra.zerowidth.isEmpty && extra.underlineColor.isNone then
    { cell with extra := none }
  else { cell with extra := some { cell.extra.getD {} with hyperlink } }

def isEmpty (cell : Cell) : Bool :=
  (cell.c = ' ' || cell.c = '\t') &&
    cell.bg = .named .background && cell.fg = .named .foreground &&
    !(cell.flags.inverse || cell.flags.anyUnderline || cell.flags.strikeout ||
      cell.flags.wrapline || cell.flags.wideCharSpacer || cell.flags.leadingWideCharSpacer) &&
    (cell.extra.map fun extra => extra.zerowidth.isEmpty) ≠ some false

end Cell

instance : GridCell Cell where
  default := .blank
  isEmpty := Cell.isEmpty
  reset _ template := { bg := template.bg }
  flags := Cell.flags
  modifyFlags f cell := { cell with flags := f cell.flags }
  sameDiscriminant a b := a.bg = b.bg

end Velacritty
