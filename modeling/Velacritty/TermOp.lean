import Velacritty.Handler
import Velacritty.ViMode

/-! The operations of a terminal: what its parser calls, and what its owner does. -/
namespace Velacritty

/-- A call of the parser. -/
inductive HandlerOp where
  | input (c : Char)
  | goto (line : Int) (col : Nat)
  | gotoLine (line : Int)
  | gotoCol (col : Nat)
  | insertBlank (count : Nat)
  | moveUp (lines : Nat)
  | moveDown (lines : Nat)
  | moveForward (cols : Nat)
  | moveBackward (cols : Nat)
  | moveDownAndCr (lines : Nat)
  | moveUpAndCr (lines : Nat)
  | putTab (count : Nat)
  | backspace
  | carriageReturn
  | linefeed
  | newline
  | bell
  | substitute
  | setHorizontalTabstop
  | scrollUp (lines : Nat)
  | scrollDown (lines : Nat)
  | insertBlankLines (lines : Nat)
  | deleteLines (lines : Nat)
  | eraseChars (count : Nat)
  | deleteChars (count : Nat)
  | moveBackwardTabs (count : Nat)
  | moveForwardTabs (count : Nat)
  | saveCursorPosition
  | restoreCursorPosition
  | clearLine (mode : LineClearMode)
  | clearScreen (mode : ClearMode)
  | clearTabs (mode : TabulationClearMode)
  | resetState
  | reverseIndex
  | decaln
  | setHyperlink (hyperlink : Option Hyperlink)
  | terminalAttribute (attr : Attr)
  | setPrivateMode (mode : PrivateMode)
  | unsetPrivateMode (mode : PrivateMode)
  | reportPrivateMode (mode : PrivateMode)
  | setMode (mode : Mode)
  | unsetMode (mode : Mode)
  | reportMode (mode : Mode)
  | setScrollingRegion (top : Nat) (bottom : Option Nat)
  | setKeypadApplicationMode
  | unsetKeypadApplicationMode
  | configureCharset (index : CharsetIndex) (charset : StandardCharset)
  | setActiveCharset (index : CharsetIndex)
  | setColor (index : Nat) (color : Rgb)
  | resetColor (index : Nat)
  | dynamicColorSequence (tag : String) (index : Nat) (terminator : String)
  | clipboardStore (clipboard : UInt8) (base64 : List UInt8)
  | clipboardLoad (clipboard : UInt8) (terminator : String)
  | identifyTerminal (intermediate : Option Char)
  | deviceStatus (arg : Nat)
  | reportKeyboardMode
  | pushKeyboardMode (mode : KeyboardModes)
  | popKeyboardModes (toPop : Nat)
  | setKeyboardMode (mode : KeyboardModes) (apply : KeyboardModesApplyBehavior)
  | setCursorStyle (style : Option CursorStyle)
  | setCursorShape (shape : CursorShape)
  | setTitle (title : Option String)
  | pushTitle
  | popTitle
  | textAreaSizePixels
  | textAreaSizeChars

namespace HandlerOp

def step (env : Env) (t : Term) : HandlerOp → Option Term
  | input c => t.input env c
  | goto line col => t.goto line col
  | gotoLine line => t.gotoLine line
  | gotoCol col => t.gotoCol col
  | insertBlank count => t.insertBlank count
  | moveUp lines => t.moveUp lines
  | moveDown lines => t.moveDown lines
  | moveForward cols => t.moveForward cols
  | moveBackward cols => t.moveBackward cols
  | moveDownAndCr lines => t.moveDownAndCr lines
  | moveUpAndCr lines => t.moveUpAndCr lines
  | putTab count => t.putTab env count
  | backspace => t.backspace
  | carriageReturn => t.carriageReturn
  | linefeed => t.linefeed
  | newline => t.newline
  | bell => some t.bell
  | substitute => some t.substitute
  | setHorizontalTabstop => t.setHorizontalTabstop
  | scrollUp lines => t.scrollUp lines
  | scrollDown lines => t.scrollDown lines
  | insertBlankLines lines => t.insertBlankLines lines
  | deleteLines lines => t.deleteLines lines
  | eraseChars count => t.eraseChars count
  | deleteChars count => t.deleteChars count
  | moveBackwardTabs count => t.moveBackwardTabs count
  | moveForwardTabs count => t.moveForwardTabs count
  | saveCursorPosition => some t.saveCursorPosition
  | restoreCursorPosition => t.restoreCursorPosition
  | clearLine mode => t.clearLine mode
  | clearScreen mode => t.clearScreen mode
  | clearTabs mode => t.clearTabs mode
  | resetState => t.resetState
  | reverseIndex => t.reverseIndex
  | decaln => t.decaln
  | setHyperlink hyperlink => some (t.setHyperlink hyperlink)
  | terminalAttribute attr => some (t.terminalAttribute attr)
  | setPrivateMode mode => t.setPrivateMode mode
  | unsetPrivateMode mode => t.unsetPrivateMode mode
  | reportPrivateMode mode => some (t.reportPrivateMode mode)
  | setMode mode => some (t.setMode mode)
  | unsetMode mode => some (t.unsetMode mode)
  | reportMode mode => some (t.reportMode mode)
  | setScrollingRegion top bottom => t.setScrollingRegion top bottom
  | setKeypadApplicationMode => some t.setKeypadApplicationMode
  | unsetKeypadApplicationMode => some t.unsetKeypadApplicationMode
  | configureCharset index charset => some (t.configureCharset index charset)
  | setActiveCharset index => some (t.setActiveCharset index)
  | setColor index color => t.setColor index color
  | resetColor index => t.resetColor index
  | dynamicColorSequence tag index terminator => some (t.dynamicColorSequence tag index terminator)
  | clipboardStore clipboard base64 => some (t.clipboardStore env clipboard base64)
  | clipboardLoad clipboard terminator => some (t.clipboardLoad clipboard terminator)
  | identifyTerminal intermediate => some (t.identifyTerminal env intermediate)
  | deviceStatus arg => some (t.deviceStatus arg)
  | reportKeyboardMode => some t.reportKeyboardMode
  | pushKeyboardMode mode => t.pushKeyboardMode mode
  | popKeyboardModes toPop => some (t.popKeyboardModes toPop)
  | setKeyboardMode mode apply => some (t.setKeyboardMode mode apply)
  | setCursorStyle style => some (t.setCursorStyle style)
  | setCursorShape shape => some (t.setCursorShape shape)
  | setTitle title => some (t.setTitle title)
  | pushTitle => some t.pushTitle
  | popTitle => some t.popTitle
  | textAreaSizePixels => some t.textAreaSizePixels
  | textAreaSizeChars => some t.textAreaSizeChars

/-- The parser numbers the lines of a scroll region from one. -/
def Admissible : HandlerOp → Prop
  | setScrollingRegion top _ => 1 ≤ top
  | _ => True

end HandlerOp

/-- A call of the parser, or of the terminal's owner. -/
inductive TermOp where
  | handler (op : HandlerOp)
  | resize (lines columns : Nat)
  | setOptions (options : Config)
  | swapAlt
  | scrollDisplay (scroll : Scroll)
  | toggleViMode
  | viMotion (motion : ViMotion)
  | viGotoPoint (point : Point)
  | setAutoScrollEnabled (enabled : Bool)
  | setSelection (selection : Option Selection)
  | damage
  | resetDamage

namespace TermOp

def step (env : Env) (t : Term) : TermOp → Option Term
  | handler op => op.step env t
  | resize lines columns => t.resize lines columns
  | setOptions options => t.setOptions options
  | swapAlt => t.swapAlt
  | scrollDisplay scroll => some (t.scrollDisplay scroll)
  | toggleViMode => some t.toggleViMode
  | viMotion motion => t.viMotion motion
  | viGotoPoint point => some (t.viGotoPoint point)
  | setAutoScrollEnabled enabled => some { t with grid := t.grid.setAutoScrollEnabled enabled }
  | setSelection selection => some { t with selection }
  | damage => t.damage.map Prod.fst
  | resetDamage => some t.resetDamage

/-- Sizes are at least the minimum the terminal supports, and the vi mode cursor is sent
to points of the grid. -/
def Admissible (t : Term) : TermOp → Prop
  | handler op => op.Admissible
  | resize lines columns => 1 ≤ lines ∧ 2 ≤ columns
  | viGotoPoint point =>
      t.topmostLine ≤ point.line ∧ point.line ≤ t.bottommostLine ∧ point.column < t.columns
  | _ => True

end TermOp

namespace Term

/-- The states of a terminal that started with `lines` and `columns`. -/
def Reachable (env : Env) (config : Config) (lines columns : Nat) (t : Term) : Prop :=
  Fallible.Reaches (TermOp.step env) TermOp.Admissible (.new config lines columns) t

end Term
end Velacritty
