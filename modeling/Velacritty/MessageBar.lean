import Velacritty.Fallible
import Velacritty.Utf8Strings

/-! The lines of a message in the message bar. -/
namespace Velacritty
open Text

namespace Message

def closeButtonText : List Char := ['[', 'X', ']']

def closeButtonPadding : Nat := 1

def minFreeLines : Nat := 3

def truncatedMessage : List Char :=
  ['[', 'M', 'E', 'S', 'S', 'A', 'G', 'E', ' ', 'T', 'R', 'U', 'N', 'C', 'A', 'T', 'E', 'D', ']']

/-- `char::is_whitespace`: the characters of the Unicode property `White_Space`. -/
def isWhitespace (c : Char) : Bool :=
  let n := c.toNat
  (9 ≤ n && n ≤ 13) || n = 0x20 || n = 0x85 || n = 0xA0 || n = 0x1680 || (0x2000 ≤ n && n ≤ 0x200A) ||
    n = 0x2028 || n = 0x2029 || n = 0x202F || n = 0x205F || n = 0x3000

/-- `str::trim`. -/
def trim (text : List Char) : List Char :=
  ((text.dropWhile isWhitespace).reverse.dropWhile isWhitespace).reverse

/-- The columns of a character; a control character takes none. -/
def charColumns (width : Char → Option Nat) (c : Char) : Nat := (width c).getD 0

/-- Right-pad text to fit a specific number of columns. -/
def padText (text : List Char) (numCols : Nat) : List Char :=
  text ++ List.replicate (numCols - text.length) ' '

/-- The lines that are complete, and the one that is filled. -/
structure Lines where
  lines : List (List Char)
  line : List Char
  lineLen : Nat
  deriving DecidableEq, Repr

/-- Attempt to wrap on word boundaries. -/
def splitWord (line : List Char) (whitespace : Bool) : Option (List Char × List Char) :=
  match (Utf8.rfind isWhitespace line).filter fun _ => !whitespace with
  | some index => do
      let (line, split) ← Utf8.splitAt (index + 1) line
      some (line.dropLast, split)
  | none => some (line, [])

/-- A character at the end of the line, with an extra column for a fullwidth one. -/
def Lines.append (width : Char → Option Nat) (s : Lines) (c : Char) : Lines :=
  { s with
    line := s.line ++ (if charColumns width c = 2 then [c, ' '] else [c])
    lineLen := s.lineLen + charColumns width c }

/-- One step of splitting the text into lines that fit the screen. -/
def push (width : Char → Option Nat) (numCols : Nat) (s : Lines) (c : Char) : Option Lines :=
  if c = '\n' ∨ s.lineLen = numCols ∨
      (s.lines = [] ∧ closeButtonText.length ≤ numCols ∧
        s.lineLen = numCols - (closeButtonText.length + closeButtonPadding)) then do
    let (line, newLine) ← splitWord s.line (isWhitespace c)
    let s : Lines := ⟨s.lines ++ [padText line numCols], newLine, newLine.length⟩
    some (if isWhitespace c then s else s.append width c)
  else some (s.append width c)

/-- Split line to fit the screen. -/
def wrapped (width : Char → Option Nat) (numCols : Nat) (text : List Char) :
    Option (List (List Char)) := do
  let s ← (trim text).foldlM (push width numCols) ⟨[], [], 0⟩
  some (s.lines ++ [padText s.line numCols])

/-- Truncate output if it's too long. -/
def truncateLines (numCols maxLines : Nat) (lines : List (List Char)) : List (List Char) :=
  if maxLines < lines.length then
    let lines := lines.take maxLines
    if truncatedMessage.length ≤ numCols ∧ lines ≠ [] then
      lines.dropLast ++ [padText truncatedMessage numCols]
    else lines
  else lines

def appendButton (numCols : Nat) (lines : List (List Char)) : Option (List (List Char)) :=
  if closeButtonText.length ≤ numCols then
    match lines with
    | [] => some []
    | line :: lines => do
        let line ← Utf8.truncate (numCols - closeButtonText.length) line
        some ((line ++ closeButtonText) :: lines)
  else some lines

def text (width : Char → Option Nat) (numCols totalLines : Nat) (text : List Char) :
    Option (List (List Char)) := do
  let lines ← wrapped width numCols text
  appendButton numCols (truncateLines numCols (totalLines - minFreeLines) lines)

end Message
end Velacritty
