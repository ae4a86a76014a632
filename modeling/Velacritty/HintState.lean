import Mathlib.Data.List.Destutter
import Mathlib.Data.List.Sort
import Velacritty.HintLabels
import Velacritty.HintTrimming

/-! Hints that are selected by typing their labels. -/
namespace Velacritty
open Fallible

def Cell.hyperlink (cell : Cell) : Option Hyperlink := cell.extra.bind CellExtra.hyperlink

structure HintContent (Regex : Type) where
  /-- Regex for finding matches. -/
  regex : Option Regex
  /-- Escape sequence hyperlinks. -/
  hyperlinks : Bool
  deriving DecidableEq, Repr

structure Hint (Regex : Type) where
  /-- Regex for finding matches. -/
  content : HintContent Regex
  /-- Hint text post processing. -/
  postProcessing : Bool
  /-- Persist hints after selection. -/
  persist : Bool
  deriving DecidableEq, Repr

structure VisibleSearch (Regex : Type) where
  /-- Iterate over all visible hyperlinks, yanking only unique ones. -/
  uniqueHyperlinks : Term → List RegexMatch
  /-- Iterate over all visible regex matches. -/
  regexMatches : Term → Regex → List RegexMatch
  /-- The post-processed matches inside an existing hint match. -/
  processed : Term → Regex → RegexMatch → List RegexMatch

structure HintMatch (Regex : Type) where
  /-- Terminal range matching the hint. -/
  bounds : RegexMatch
  /-- OSC 8 hyperlink. -/
  hyperlink : Option Hyperlink
  /-- Hint which triggered this match. -/
  hint : Hint Regex
  deriving DecidableEq, Repr

structure HintState (Regex : Type) where
  /-- Hint currently in use. -/
  hint : Option (Hint Regex)
  /-- Alphabet for hint labels. -/
  alphabet : List Char
  /-- Visible matches. -/
  hintMatches : List RegexMatch
  /-- Key label for each visible match. -/
  labels : List (List Char)
  /-- Keys pressed for hint selection. -/
  keys : List Char
  deriving DecidableEq, Repr

def VisibleSearch.find {Regex : Type} (search : VisibleSearch Regex) (t : Term) (hint : Hint Regex) :
    List RegexMatch :=
  (if hint.content.hyperlinks then search.uniqueHyperlinks t else []) ++
    match hint.content.regex with
    | none => []
    | some regex =>
        if hint.postProcessing then (search.regexMatches t regex).flatMap (search.processed t regex)
        else search.regexMatches t regex

/-- Sort the ranges, and leave out those that start where another one does. -/
def sortMatches (found : List RegexMatch) : List RegexMatch :=
  (found.insertionSort fun m n => m.start < n.start ∨ m.start = n.start ∧ n.stop ≤ m.stop).destutter
    fun m n => m.start ≠ n.start

/-- What is left of a label when some keys were pressed; nothing if it does not start with them. -/
def remaining (keys label : List Char) : List Char :=
  if keys.length ≤ label.length ∧ label.take keys.length = keys then label.drop keys.length else []

/-- Get the label for each match, from the last one to the first. -/
def labelMatches (keys : List Char) : Nat → HintLabels → List (List Char) →
    Option (List (List Char))
  | 0, _, labels => some labels
  | i + 1, generator, labels => do
      let (label, generator) ← generator.next
      labelMatches keys i generator (labels.set i (remaining keys label))

namespace HintState
variable {Regex : Type}

def start (s : HintState Regex) (hint : Hint Regex) : HintState Regex := { s with hint := some hint }

/-- Cancel the hint highlighting process. -/
def stop (s : HintState Regex) : HintState Regex :=
  { s with hint := none, hintMatches := [], labels := [], keys := [] }

def updateMatches (search : VisibleSearch Regex) (t : Term) (s : HintState Regex) :
    Option (HintState Regex) :=
  match s.hint with
  | none => some s
  | some hint =>
      let found := search.find t hint
      if found = [] then some s.stop
      else do
        let hintMatches := sortMatches found
        let generator ← HintLabels.new s.alphabet
        let count := hintMatches.length
        let labels ← labelMatches s.keys count generator
          (s.labels.take count ++ List.replicate (count - s.labels.length) [])
        some { s with hintMatches, labels }

/-- Find the last label starting with the input character. -/
def findLabel (s : HintState Regex) (c : Char) : Option (List Char × Nat) :=
  s.labels.zipIdx.reverse.find? fun (label, _) => label.head? = some c

/-- Handle keyboard input during hint selection. -/
def keyboardInput (search : VisibleSearch Regex) (t : Term) (s : HintState Regex) (c : Char) :
    Option (Option (HintMatch Regex) × HintState Regex) := do
  let s :=
    if c = '\x08' ∨ c = '\x1f' then { s with keys := s.keys.dropLast }
    else if c = '\x1b' ∨ c = '\x03' then s.stop
    else s
  let s ← s.updateMatches search t
  match s.hint with
  | none => some (none, s)
  | some hint =>
      match s.findLabel c with
      | none => some (none, s)
      | some (label, index) =>
          if label.length = 1 then do
            let bounds ← s.hintMatches[index]?
            let s := if hint.persist then { s with keys := [] } else s.stop
            let cell ← t.grid.cellAt bounds.start
            some (some ⟨bounds, cell.hyperlink, hint⟩, s)
          else some (none, { s with keys := s.keys ++ [c] })

end HintState

def hintsAlphabet (width : Char → Option Nat) (value : List Char) : Except String (List Char) :=
  if value.any fun character => decide (width character ≠ some 1) then
    .error "characters must be of width 1"
  else if value.length < 2 then .error "must include at last 2 characters"
  else .ok value

/-- What happens during hint selection: the matches are drawn, or a key is pressed. -/
inductive HintEvent where
  | update
  | key (c : Char)
  deriving DecidableEq, Repr

namespace HintState
variable {Regex : Type}

def handle (search : VisibleSearch Regex) (t : Term) (s : HintState Regex) :
    HintEvent → Option (List (HintMatch Regex) × HintState Regex)
  | .update => do
      let s ← s.updateMatches search t
      some ([], s)
  | .key c => do
      let (selected, s) ← s.keyboardInput search t c
      some (selected.toList, s)

def handleAll (search : VisibleSearch Regex) (t : Term) (s : HintState Regex) :
    List HintEvent → Option (List (HintMatch Regex) × HintState Regex)
  | [] => some ([], s)
  | event :: events => do
      let (selected, s) ← s.handle search t event
      let (later, s) ← s.handleAll search t events
      some (selected ++ later, s)

end HintState

def typed : List HintEvent → List Char
  | [] => []
  | .update :: events => typed events
  | .key c :: events => c :: typed events

end Velacritty
