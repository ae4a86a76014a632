import Velacritty.HintTrimming
import Velacritty.MessageBar

/-! The regex search of a window: the history of its inputs, the match it shows, and how
far it has moved the display. -/
namespace Velacritty

/-- Maximum number of search terms stored in the history. -/
def maxSearchHistorySize : Nat := 255

/-- Maximum number of lines for the blocking search while still typing the search regex. -/
def maxSearchWhileTyping : Option Nat := some 1000

/-- The regex engine. It compiles automatons for a text, and finds their next match in a
terminal, from an origin in a direction, by a side of the match, and within a number of lines. -/
structure RegexEngine (R : Type) where
  new : List Char → Option R
  searchNext : R → Term → Point → Side → Side → Option Nat → Option RegexMatch

structure SearchState (R : Type) where
  /-- Search direction. -/
  direction : Side
  /-- Current position in the search history. -/
  historyIndex : Option Nat
  /-- Change in display offset since the beginning of the search. -/
  displayOffsetDelta : Int
  /-- Search origin in viewport coordinates relative to original display offset. -/
  origin : Point
  /-- Focused match during active search. -/
  focusedMatch : Option RegexMatch
  /-- Search regex and history. The first element is the current input of an active search. -/
  history : List (List Char)
  /-- Compiled search automatons. -/
  dfas : Option R

/-- The buttons of the mouse that are pressed, and the cell under it by the display offset. -/
structure Mouse where
  leftButtonState : Bool
  rightButtonState : Bool
  cellSide : Side
  point : Nat → Point

/-- What the search of a window reads and changes. -/
structure ActionContext (R : Type) where
  terminal : Term
  searchState : SearchState R
  mouse : Mouse
  /-- A search without a limit is scheduled. -/
  delayedSearch : Bool

variable {R : Type}

namespace SearchState

/-- `SearchState::default`. -/
def initial : SearchState R where
  direction := .right
  historyIndex := none
  displayOffsetDelta := 0
  origin := default
  focusedMatch := none
  history := []
  dfas := none

def regex (s : SearchState R) : Option (List Char) := s.historyIndex.bind (s.history[·]?)

end SearchState

/-- Remove the last word of a text. -/
def popWord (regex : List Char) : List Char :=
  (regex.rdropWhile Message.isWhitespace).rdropWhile (· ≠ ' ')

/-- How a character that is typed changes the regex; `none` if it is ignored. -/
def typeRegex (regex : List Char) (c : Char) : Option (List Char) :=
  if c.toNat = 0x08 ∨ c.toNat = 0x7f then some regex.dropLast
  else if ' ' ≤ c ∧ c ≤ '~' ∨ 0xa0 ≤ c.toNat then some (regex ++ [c])
  else none

namespace ActionContext

/-- The search of a new window. -/
def initial (t : Term) : ActionContext R :=
  ⟨t, .initial, ⟨false, false, .left, fun _ => default⟩, false⟩

def searchActive (ctx : ActionContext R) : Bool := ctx.searchState.historyIndex.isSome

def clearSelection (ctx : ActionContext R) : ActionContext R :=
  { ctx with terminal.selection := none }

def updateSelection (ctx : ActionContext R) (point : Point) (side : Side) : ActionContext R :=
  match ctx.terminal.selection with
  | none => ctx
  | some selection =>
      let point := { point with line := min point.line ctx.terminal.bottommostLine }
      let selection := selection.update point side
      if ctx.terminal.mode.vi && !ctx.searchActive then
        { ctx with
          terminal.viModeCursor := point
          terminal.selection := some selection.includeAll }
      else { ctx with terminal.selection := some selection }

def startSelection (ctx : ActionContext R) (ty : SelectionType) (point : Point) (side : Side) :
    ActionContext R :=
  { ctx with terminal.selection := some (.new ty point side) }

/-- Keep track of manual display offset changes during search. -/
def trackOffset (ctx : ActionContext R) (oldOffset : Int) : ActionContext R :=
  if ctx.searchActive then
    let linesChanged := oldOffset - ctx.terminal.grid.displayOffset
    { ctx with
      searchState.displayOffsetDelta := ctx.searchState.displayOffsetDelta + linesChanged }
  else ctx

def updateScrolled (ctx : ActionContext R) : ActionContext R :=
  if ctx.terminal.mode.vi && ctx.terminal.selection.any fun s => !s.isEmpty then
    ctx.updateSelection ctx.terminal.viModeCursor .right
  else if ctx.mouse.leftButtonState || ctx.mouse.rightButtonState then
    ctx.updateSelection (ctx.mouse.point ctx.terminal.grid.displayOffset) ctx.mouse.cellSide
  else ctx

def scroll (ctx : ActionContext R) (scroll : Scroll) : ActionContext R :=
  let oldOffset := (ctx.terminal.grid.displayOffset : Int)
  let ctx := { ctx with terminal := ctx.terminal.scrollDisplay scroll }
  (ctx.trackOffset oldOffset).updateScrolled

def searchOrigin (ctx : ActionContext R) (direction : Side) : Point :=
  let t := ctx.terminal
  if t.mode.vi then
    if t.grid.cursor.point.line + 1 = t.screenLines then
      { t.viModeCursor with line := t.viModeCursor.line - 1 }
    else t.viModeCursor
  else
    let viewportTop := -(t.grid.displayOffset : Int) - 1
    let viewportBottom := viewportTop + t.bottommostLine
    match direction with
    | .right => ⟨viewportTop, 0⟩
    | .left => ⟨viewportBottom, t.lastColumn⟩

def startSearch (ctx : ActionContext R) (direction : Side) : ActionContext R :=
  let s := ctx.searchState
  { ctx with
    searchState := { s with
      history := if s.history.head? = some [] then s.history
        else ([] :: s.history).take maxSearchHistorySize
      historyIndex := some 0
      direction
      focusedMatch := none
      origin := ctx.searchOrigin direction
      displayOffsetDelta := if ctx.terminal.mode.vi then 0 else s.displayOffsetDelta } }

def searchResetState (ctx : ActionContext R) : ActionContext R :=
  let ctx := { ctx with delayedSearch := false, searchState.focusedMatch := none }
  if ctx.terminal.mode.vi then
    let t := { ctx.terminal with viModeCursor := ctx.searchState.origin }
    { ctx with
      terminal := t.scrollDisplay (.delta ctx.searchState.displayOffsetDelta)
      searchState.displayOffsetDelta := 0 }
  else ctx

def gotoMatch (ctx : ActionContext R) (engine : RegexEngine R) (limit : Option Nat) :
    ActionContext R :=
  match ctx.searchState.dfas with
  | none => ctx
  | some dfas =>
      let limit := limit.filter (· ≤ ctx.terminal.dims.totalLines)
      let direction := ctx.searchState.direction
      let clampedOrigin := ctx.searchState.origin.gridClamp ctx.terminal.dims .grid
      match engine.searchNext dfas ctx.terminal clampedOrigin direction .left limit with
      | some regexMatch =>
          let oldOffset := (ctx.terminal.grid.displayOffset : Int)
          let t := if ctx.terminal.mode.vi then ctx.terminal.viGotoPoint regexMatch.start
            else ctx.terminal.scrollToPoint regexMatch.start
          let delta := oldOffset - t.grid.displayOffset
          { ctx with
            terminal := t
            searchState.focusedMatch := some regexMatch
            searchState.displayOffsetDelta := ctx.searchState.displayOffsetDelta + delta
            delayedSearch := false }
      | none =>
          match limit with
          | none => ctx.searchResetState
          | some _ => { ctx with delayedSearch := true, searchState.focusedMatch := none }

def updateSearch (ctx : ActionContext R) (engine : RegexEngine R) : ActionContext R :=
  match ctx.searchState.regex with
  | none => ctx
  | some [] =>
      { ctx.searchResetState with searchState.dfas := none }
  | some regex =>
      { ctx with searchState.dfas := engine.new regex }.gotoMatch engine maxSearchWhileTyping

def exitSearch (ctx : ActionContext R) : ActionContext R :=
  { ctx with searchState.historyIndex := none, searchState.focusedMatch := none }

def cancelSearch (ctx : ActionContext R) : ActionContext R :=
  let ctx := if ctx.terminal.mode.vi then ctx.searchResetState
    else match ctx.searchState.focusedMatch with
      | some m => (ctx.startSelection .simple m.start .left).updateSelection m.stop .right
      | none => ctx
  { ctx with searchState.dfas := none }.exitSearch

def confirmSearch (ctx : ActionContext R) (engine : RegexEngine R) : ActionContext R :=
  if !ctx.terminal.mode.vi then ctx.cancelSearch
  else if ctx.delayedSearch then (ctx.gotoMatch engine none).exitSearch
  else ctx.exitSearch

/-- Replace the active regex with the previewed one, as a change of it needs. -/
def leaveHistory (ctx : ActionContext R) (index : Nat) : Option (ActionContext R) :=
  if index = 0 then some ctx
  else do
    let regex ← ctx.searchState.history[index]?
    some { ctx with
      searchState.history := ctx.searchState.history.set 0 regex
      searchState.historyIndex := some 0 }

def searchInput (ctx : ActionContext R) (engine : RegexEngine R) (c : Char) :
    Option (ActionContext R) :=
  match ctx.searchState.historyIndex with
  | none => some ctx
  | some index => do
      let ctx ← ctx.leaveHistory index
      let regex ← ctx.searchState.history[0]?
      match typeRegex regex c with
      | none => some ctx
      | some regex =>
          let ctx := { ctx with searchState.history := ctx.searchState.history.set 0 regex }
          let ctx := if !ctx.terminal.mode.vi then { ctx with terminal.selection := none } else ctx
          some (ctx.updateSearch engine)

def searchPopWord (ctx : ActionContext R) (engine : RegexEngine R) : ActionContext R :=
  match ctx.searchState.historyIndex with
  | none => ctx
  | some index =>
      match ctx.searchState.history[index]? with
      | none => ctx
      | some regex =>
          { ctx with searchState.history := ctx.searchState.history.set index (popWord regex) }.updateSearch
            engine

def searchHistoryPrevious (ctx : ActionContext R) (engine : RegexEngine R) : ActionContext R :=
  match ctx.searchState.historyIndex with
  | none => ctx
  | some index =>
      if ctx.searchState.history.length ≤ index + 1 then ctx
      else { ctx with searchState.historyIndex := some (index + 1) }.updateSearch engine

def searchHistoryNext (ctx : ActionContext R) (engine : RegexEngine R) : ActionContext R :=
  match ctx.searchState.historyIndex with
  | none | some 0 => ctx
  | some (index + 1) => { ctx with searchState.historyIndex := some index }.updateSearch engine

end ActionContext

/-- What is done to a search. Each step has an engine of its own, whose matches are arbitrary. -/
inductive SearchOp (R : Type) where
  | startSearch (direction : Side)
  | searchInput (engine : RegexEngine R) (c : Char)
  | searchPopWord (engine : RegexEngine R)
  | searchHistoryPrevious (engine : RegexEngine R)
  | searchHistoryNext (engine : RegexEngine R)
  | confirmSearch (engine : RegexEngine R)
  | cancelSearch
  | scroll (scroll : Scroll)
  | gotoMatch (engine : RegexEngine R) (limit : Option Nat)

namespace ActionContext

def step (ctx : ActionContext R) : SearchOp R → Option (ActionContext R)
  | .startSearch direction => some (ctx.startSearch direction)
  | .searchInput engine c => ctx.searchInput engine c
  | .searchPopWord engine => some (ctx.searchPopWord engine)
  | .searchHistoryPrevious engine => some (ctx.searchHistoryPrevious engine)
  | .searchHistoryNext engine => some (ctx.searchHistoryNext engine)
  | .confirmSearch engine => some (ctx.confirmSearch engine)
  | .cancelSearch => some ctx.cancelSearch
  | .scroll scroll => some (ctx.scroll scroll)
  | .gotoMatch engine limit => some (ctx.gotoMatch engine limit)

end ActionContext

/-! ### What a search leaves alone -/

/-- Neither the inputs of the search nor where it started changed. -/
structure SameInputs (ctx ctx' : ActionContext R) : Prop where
  history : ctx'.searchState.history = ctx.searchState.history
  historyIndex : ctx'.searchState.historyIndex = ctx.searchState.historyIndex
  origin : ctx'.searchState.origin = ctx.searchState.origin

namespace SameInputs
variable {ctx ctx' a : ActionContext R}

theorem refl (ctx : ActionContext R) : SameInputs ctx ctx := ⟨rfl, rfl, rfl⟩

theorem trans (h : SameInputs ctx a) (h' : SameInputs a ctx') : SameInputs ctx ctx' :=
  ⟨h'.history.trans h.history, h'.historyIndex.trans h.historyIndex, h'.origin.trans h.origin⟩

end SameInputs

namespace ActionContext

theorem updateSelection_sameInputs (ctx : ActionContext R) (point : Point) (side : Side) :
    SameInputs ctx (ctx.updateSelection point side) := by
  unfold updateSelection
  split
  · exact .refl ctx
  · split
    · exact ⟨rfl, rfl, rfl⟩
    · exact ⟨rfl, rfl, rfl⟩

theorem trackOffset_sameInputs (ctx : ActionContext R) (oldOffset : Int) :
    SameInputs ctx (ctx.trackOffset oldOffset) := by
  unfold trackOffset
  split
  · exact ⟨rfl, rfl, rfl⟩
  · exact .refl ctx

theorem updateScrolled_sameInputs (ctx : ActionContext R) : SameInputs ctx ctx.updateScrolled := by
  unfold updateScrolled
  split
  · exact updateSelection_sameInputs ctx _ _
  · split
    · exact updateSelection_sameInputs ctx _ _
    · exact .refl ctx

theorem scroll_sameInputs (ctx : ActionContext R) (scroll : Scroll) :
    SameInputs ctx (ctx.scroll scroll) := by
  have hscrolled : SameInputs ctx { ctx with terminal := ctx.terminal.scrollDisplay scroll } :=
    ⟨rfl, rfl, rfl⟩
  exact (hscrolled.trans (trackOffset_sameInputs _ _)).trans (updateScrolled_sameInputs _)

theorem searchResetState_sameInputs (ctx : ActionContext R) :
    SameInputs ctx ctx.searchResetState := by
  unfold searchResetState
  dsimp only
  split
  · exact ⟨rfl, rfl, rfl⟩
  · exact ⟨rfl, rfl, rfl⟩

theorem gotoMatch_sameInputs (ctx : ActionContext R) (engine : RegexEngine R) (limit : Option Nat) :
    SameInputs ctx (ctx.gotoMatch engine limit) := by
  unfold gotoMatch
  split
  · exact .refl ctx
  · dsimp only
    split
    · exact ⟨rfl, rfl, rfl⟩
    · split
      · exact searchResetState_sameInputs ctx
      · exact ⟨rfl, rfl, rfl⟩

theorem updateSearch_sameInputs (ctx : ActionContext R) (engine : RegexEngine R) :
    SameInputs ctx (ctx.updateSearch engine) := by
  unfold updateSearch
  split
  · exact .refl ctx
  · exact (searchResetState_sameInputs ctx).trans ⟨rfl, rfl, rfl⟩
  · next regex _ _ =>
      have hcompiled : SameInputs ctx { ctx with searchState.dfas := engine.new regex } :=
        ⟨rfl, rfl, rfl⟩
      exact hcompiled.trans (gotoMatch_sameInputs _ engine _)

/-- A search is left without a change of its inputs. -/
theorem cancelSearch_leaves (ctx : ActionContext R) :
    ∃ a, SameInputs ctx a ∧ ctx.cancelSearch = a.exitSearch := by
  refine ⟨_, ?_, rfl⟩
  have hforget (a : ActionContext R) : SameInputs a { a with searchState.dfas := none } :=
    ⟨rfl, rfl, rfl⟩
  refine .trans ?_ (hforget _)
  split
  · exact searchResetState_sameInputs ctx
  · split
    · next m _ =>
        have hstarted : SameInputs ctx (ctx.startSelection .simple m.start .left) := ⟨rfl, rfl, rfl⟩
        exact hstarted.trans (updateSelection_sameInputs _ _ _)
    · exact .refl ctx

theorem confirmSearch_leaves (ctx : ActionContext R) (engine : RegexEngine R) :
    ∃ a, SameInputs ctx a ∧ ctx.confirmSearch engine = a.exitSearch := by
  unfold confirmSearch
  split
  · exact cancelSearch_leaves ctx
  · split
    · exact ⟨_, gotoMatch_sameInputs ctx engine none, rfl⟩
    · exact ⟨_, .refl ctx, rfl⟩

end ActionContext
end Velacritty
