import Velacritty.Iterators
import Velacritty.TextColumns

/-! Text that is shortened to fit into some columns. -/
namespace Velacritty
open Fallible Text

inductive TextAction where
  /-- Yield a spacer. -/
  | spacer
  /-- Terminate state reached. -/
  | terminate
  /-- Yield a shortener. -/
  | shortener
  /-- Yield a character. -/
  | char
  deriving DecidableEq, Repr

inductive ShortenDirection where
  /-- Shorten to the start of the string. -/
  | left
  /-- Shorten to the end of the string. -/
  | right
  deriving DecidableEq, Repr

/-- Iterator that yield shortened version of the text. -/
structure StrShortener where
  chars : List Char
  accumulatedLen : Nat
  maxWidth : Nat
  direction : ShortenDirection
  shortener : Option Char
  textAction : TextAction
  deriving DecidableEq, Repr

/-- The columns of a character; a control character takes one. -/
def charWidth (width : Char → Option Nat) (ch : Char) : Nat := (width ch).getD 1

/-- The widths of some characters: a combining accent, a fullwidth character, and others. -/
def sampleWidth (ch : Char) : Option Nat :=
  if ch = '\u0301' then some 0 else if ch = '漢' then some 2
  else if ch.toNat < 32 ∨ ch.toNat = 127 then none else some 1

theorem sampleWidth_ascii (ch : Char) (h : ch.toNat < 128) :
    sampleWidth ch = some 1 ∨ sampleWidth ch = none := by
  have haccent : ch ≠ '\u0301' := by
    rintro rfl
    exact absurd h (by decide)
  have hwide : ch ≠ '漢' := by
    rintro rfl
    exact absurd h (by decide)
  unfold sampleWidth
  rw [if_neg haccent, if_neg hwide]
  split
  · exact .inr rfl
  · exact .inl rfl

namespace StrShortener

/-- Where the walk over a text's characters from its end stopped. -/
structure LeftScan where
  offset : Nat
  currentLen : Nat
  shortener : Option Char
  /-- The characters that the iterator has not given yet. -/
  iter : List (Char × Nat)

/-- Walk over the text's characters from its end, until they do not fit. -/
def leftScan (width : Char → Option Nat) (maxWidth offset currentLen : Nat)
    (shortener : Option Char) : List (Char × Nat) → LeftScan
  | [] => ⟨offset, currentLen, shortener, []⟩
  | (ch, idx) :: iter =>
      let currentLen := currentLen + charWidth width ch
      if maxWidth < currentLen then ⟨offset, currentLen, shortener, iter⟩
      else if currentLen = maxWidth then
        if shortener.isSome ∧ iter ≠ [] then ⟨offset, currentLen, shortener, iter⟩
        else leftScan width maxWidth (idx + 1) currentLen none iter
      else leftScan width maxWidth (idx + 1) currentLen shortener iter

def new (width : Char → Option Nat) (text : List Char) (maxWidth : Nat)
    (direction : ShortenDirection) (shortener : Option Char) : StrShortener :=
  let shortener := if text = [] then none else shortener
  match direction with
  | .right => ⟨text, 0, maxWidth, .right, shortener, .char⟩
  | .left =>
      let scan := leftScan width maxWidth 0 0 shortener text.reverse.zipIdx
      let numChars := (scan.iter.getLast?.map fun (_, idx) => idx + 1).getD scan.offset
      let skipChars := numChars - scan.offset
      let textAction :=
        if scan.currentLen < maxWidth ∨ scan.shortener.isNone then .char else .shortener
      ⟨text.drop skipChars, 0, maxWidth, .left, scan.shortener, textAction⟩

/-- `Iterator::next`. -/
def next (width : Char → Option Nat) (s : StrShortener) : Option Char × StrShortener :=
  match s.textAction with
  | .spacer => (some ' ', { s with textAction := .char })
  | .terminate => (none, s)
  | .shortener =>
      (s.shortener, { s with
        textAction := if s.direction = .left then .char else .terminate
        shortener := none })
  | .char =>
      match s.chars with
      | [] => (none, s)
      | ch :: chars =>
          let s := { s with chars, accumulatedLen := s.accumulatedLen + charWidth width ch }
          if s.maxWidth < s.accumulatedLen then (s.shortener, { s with textAction := .terminate })
          else if s.accumulatedLen = s.maxWidth ∧ s.shortener.isSome then
            (if s.chars ≠ [] then s.shortener else some ch, { s with textAction := .terminate })
          else (some ch, if charWidth width ch = 2 then { s with textAction := .spacer } else s)

def shortened (width : Char → Option Nat) (text : List Char) (maxWidth : Nat)
    (direction : ShortenDirection) (shortener : Option Char) : Option (List Char) :=
  collect (next width) (2 * text.length + 2) (new width text maxWidth direction shortener)

end StrShortener
end Velacritty
