import Velacritty.SearchState

/-! A search in vi mode shows its matches, and can take the display back to where it was. -/
namespace Velacritty
open Fallible
variable {R : Type}

namespace Term
variable {t : Term}

def viewportClamp (t : Term) (p : Point) : Point :=
  let viewportStart := -(t.grid.displayOffset : Int)
  { p with line := min (viewportStart + t.bottommostLine) (max viewportStart p.line) }

@[simp] theorem scrollDisplay_mode (t : Term) (scroll : Scroll) : (t.scrollDisplay scroll).mode = t.mode := by
  simp only [scrollDisplay]
  split
  · simp [markFullyDamaged, sendEvent]
  · simp [sendEvent]

@[simp] theorem scrollDisplay_grid (t : Term) (scroll : Scroll) :
    (t.scrollDisplay scroll).grid = t.grid.scrollDisplay scroll := by
  simp only [scrollDisplay]
  split
  · simp [markFullyDamaged, sendEvent]
  · simp [sendEvent]

theorem scrollDisplay_viModeCursor (t : Term) (scroll : Scroll) :
    (t.scrollDisplay scroll).viModeCursor = (t.scrollDisplay scroll).viewportClamp t.viModeCursor := by
  have hbottom : (t.scrollDisplay scroll).bottommostLine = t.bottommostLine := by
    simp only [bottommostLine, dims, scrollDisplay_grid]
    rfl
  rw [viewportClamp, scrollDisplay_grid, hbottom]
  simp only [scrollDisplay]
  split
  · simp [markFullyDamaged, sendEvent]
    rfl
  · simp [sendEvent]
    rfl

theorem scrollToPoint_mode (t : Term) (point : Point) : (t.scrollToPoint point).mode = t.mode := by
  unfold scrollToPoint
  dsimp only
  split
  · exact scrollDisplay_mode t _
  · split
    · exact scrollDisplay_mode t _
    · rfl

theorem viGotoPoint_mode (t : Term) (point : Point) : (t.viGotoPoint point).mode = t.mode := by
  rw [viGotoPoint, viModeRecomputeSelection_mode]
  exact scrollToPoint_mode t point

end Term
namespace SearchOp

/-- What is done between the start of a search and its end. -/
def Previews : SearchOp R → Prop
  | startSearch _ | confirmSearch _ | cancelSearch => False
  | _ => True

end SearchOp

/-- Where a search has taken the display, away from the offset and the origin it started from. The
recorded change of the offset takes it back, through an offset that the history has lines for. -/
structure Strayed (offset : Nat) (origin : Point) (ctx : ActionContext R) : Prop where
  vi : ctx.terminal.mode.vi = true
  input : ∃ i, ctx.searchState.historyIndex = some i ∧ i < ctx.searchState.history.length
  origin : ctx.searchState.origin = origin
  delta : (ctx.terminal.grid.displayOffset : Int) + ctx.searchState.displayOffsetDelta = offset
  bounded : offset ≤ ctx.terminal.grid.historySize

/-- The display is back at the offset, and the vi mode cursor at the origin, as far as it is in the
viewport. -/
structure Returned (offset : Nat) (origin : Point) (ctx : ActionContext R) : Prop where
  offset : ctx.terminal.grid.displayOffset = offset
  cursor : ctx.terminal.viModeCursor = ctx.terminal.viewportClamp origin

namespace Strayed
variable {offset : Nat} {origin : Point} {ctx ctx' : ActionContext R}

theorem moved (h : Strayed offset origin ctx) (hsame : SameInputs ctx ctx')
    (hviewed : Term.Viewed ctx.terminal ctx'.terminal)
    (hmode : ctx'.terminal.mode.vi = ctx.terminal.mode.vi)
    (hdelta : (ctx'.terminal.grid.displayOffset : Int) + ctx'.searchState.displayOffsetDelta =
      ctx.terminal.grid.displayOffset + ctx.searchState.displayOffsetDelta) :
    Strayed offset origin ctx' := by
  have hhistory : ctx'.terminal.grid.historySize = ctx.terminal.grid.historySize :=
    congrArg Dimensions.historySize hviewed.dims
  refine ⟨hmode.trans h.vi, ?_, hsame.origin.trans h.origin, hdelta.trans h.delta, hhistory ▸ h.bounded⟩
  rw [hsame.history, hsame.historyIndex]
  exact h.input

/-- Another input is shown; the display did not move. -/
theorem typed (h : Strayed offset origin ctx) {i : Nat}
    (hindex : ctx'.searchState.historyIndex = some i) (hlt : i < ctx'.searchState.history.length)
    (horigin : ctx'.searchState.origin = ctx.searchState.origin)
    (hdelta : ctx'.searchState.displayOffsetDelta = ctx.searchState.displayOffsetDelta)
    (hgrid : ctx'.terminal.grid = ctx.terminal.grid)
    (hmode : ctx'.terminal.mode = ctx.terminal.mode) : Strayed offset origin ctx' := by
  refine ⟨?_, ⟨i, hindex, hlt⟩, horigin.trans h.origin, ?_, ?_⟩
  · rw [hmode]
    exact h.vi
  · rw [hgrid, hdelta]
    exact h.delta
  · rw [hgrid]
    exact h.bounded

theorem searchActive (h : Strayed offset origin ctx) : ctx.searchActive = true := by
  obtain ⟨i, hi, -⟩ := h.input
  rw [ActionContext.searchActive, hi]
  rfl

/-- During a search, an update of the selection leaves the vi mode cursor alone. -/
theorem updateSelection (h : Strayed offset origin ctx) (point : Point) (side : Side) :
    Strayed offset origin (ctx.updateSelection point side) := by
  obtain ⟨i, hi, hlt⟩ := h.input
  unfold ActionContext.updateSelection
  split
  · exact h
  · simp only [h.searchActive, Bool.not_true, Bool.and_false, Bool.false_eq_true, if_false]
    exact h.typed hi hlt rfl rfl rfl rfl

theorem scroll (h : Strayed offset origin ctx) (scroll : Scroll) :
    Strayed offset origin (ctx.scroll scroll) := by
  have htracked : Strayed offset origin (ActionContext.trackOffset
      { ctx with terminal := ctx.terminal.scrollDisplay scroll } ctx.terminal.grid.displayOffset) := by
    have hactive := h.searchActive
    rw [ActionContext.trackOffset, if_pos (by exact hactive)]
    refine h.moved ⟨rfl, rfl, rfl⟩ (Term.scrollDisplay_viewed (.refl _) scroll) ?_ ?_
    · exact congrArg TermMode.vi (Term.scrollDisplay_mode _ scroll)
    · dsimp only
      omega
  unfold ActionContext.scroll
  dsimp only
  unfold ActionContext.updateScrolled
  split
  · exact htracked.updateSelection _ _
  · split
    · exact htracked.updateSelection _ _
    · exact htracked

/-- A reset takes the display back, and the search goes on from there. -/
theorem searchResetState (h : Strayed offset origin ctx) :
    Strayed offset origin ctx.searchResetState ∧ Returned offset origin ctx.searchResetState := by
  obtain ⟨i, hi, hlt⟩ := h.input
  have hdelta := h.delta
  have hbounded := h.bounded
  let t : Term := { ctx.terminal with viModeCursor := ctx.searchState.origin }
  have hterm : ctx.searchResetState.terminal =
      t.scrollDisplay (.delta ctx.searchState.displayOffsetDelta) := by
    unfold ActionContext.searchResetState
    rw [if_pos (by exact h.vi)]
  have hzero : ctx.searchResetState.searchState.displayOffsetDelta = 0 := by
    unfold ActionContext.searchResetState
    rw [if_pos (by exact h.vi)]
  have hoffset : ctx.searchResetState.terminal.grid.displayOffset = offset := by
    rw [hterm, Term.scrollDisplay_grid]
    change min (max ((ctx.terminal.grid.displayOffset : Int) + ctx.searchState.displayOffsetDelta) 0).toNat
      ctx.terminal.grid.historySize = offset
    omega
  refine ⟨h.moved (ActionContext.searchResetState_sameInputs ctx) ?_ ?_ ?_, hoffset, ?_⟩
  · rw [hterm]
    exact (Term.Viewed.refl ctx.terminal).update rfl |>.trans (Term.scrollDisplay_viewed (.refl t) _)
  · rw [hterm, Term.scrollDisplay_mode]
  · rw [hoffset, hzero, hdelta, Int.add_zero]
  · rw [hterm, Term.scrollDisplay_viModeCursor]
    exact congrArg _ h.origin

theorem gotoMatch (h : Strayed offset origin ctx) (engine : RegexEngine R) (limit : Option Nat) :
    Strayed offset origin (ctx.gotoMatch engine limit) := by
  unfold ActionContext.gotoMatch
  split
  · exact h
  · simp only [h.vi, if_true]
    split
    · next regexMatch _ =>
        refine h.moved ⟨rfl, rfl, rfl⟩ (Term.viGotoPoint_viewed _ regexMatch.start) ?_ ?_
        · exact congrArg TermMode.vi (Term.viGotoPoint_mode _ _)
        · dsimp only
          omega
    · split
      · exact h.searchResetState.1
      · exact h.moved ⟨rfl, rfl, rfl⟩ (.refl _) rfl rfl

theorem updateSearch (h : Strayed offset origin ctx) (engine : RegexEngine R) :
    Strayed offset origin (ctx.updateSearch engine) := by
  unfold ActionContext.updateSearch
  split
  · exact h
  · exact h.searchResetState.1.moved ⟨rfl, rfl, rfl⟩ (.refl _) rfl rfl
  · next regex _ _ =>
      have hcompiled : Strayed offset origin { ctx with searchState.dfas := engine.new regex } :=
        h.moved ⟨rfl, rfl, rfl⟩ (.refl _) rfl rfl
      exact hcompiled.gotoMatch engine maxSearchWhileTyping

theorem searchInput (h : Strayed offset origin ctx) (engine : RegexEngine R) (c : Char) :
    Returns (ctx.searchInput engine c) (Strayed offset origin) := by
  obtain ⟨i, hi, hlt⟩ := h.input
  have hleft : Returns (ctx.leaveHistory i) fun a =>
      Strayed offset origin a ∧ a.searchState.historyIndex = some 0 ∧ 0 < a.searchState.history.length := by
    unfold ActionContext.leaveHistory
    split
    · next hzero =>
        subst hzero
        exact .pure ⟨h, hi, hlt⟩
    · refine Returns.bind (P := fun _ => True) ⟨_, List.getElem?_eq_getElem hlt, trivial⟩ ?_
      intro regex _
      have hpos : 0 < (ctx.searchState.history.set 0 regex).length := by
        rw [List.length_set]
        omega
      exact .pure ⟨h.typed rfl hpos rfl rfl rfl rfl, rfl, hpos⟩
  unfold ActionContext.searchInput
  rw [hi]
  refine hleft.bind fun a ⟨ha, hzero, hpos⟩ => ?_
  refine Returns.bind (P := fun _ => True) ⟨_, List.getElem?_eq_getElem hpos, trivial⟩ ?_
  intro regex _
  split
  · exact .pure ha
  · next regex' _ =>
      have hset : 0 < (a.searchState.history.set 0 regex').length := by
        rw [List.length_set]
        exact hpos
      have htyped : Strayed offset origin
          { a with searchState.history := a.searchState.history.set 0 regex' } :=
        ha.typed hzero hset rfl rfl rfl rfl
      refine .pure (updateSearch ?_ engine)
      split
      · exact htyped.typed hzero hset rfl rfl rfl rfl
      · exact htyped

theorem searchPopWord (h : Strayed offset origin ctx) (engine : RegexEngine R) :
    Strayed offset origin (ctx.searchPopWord engine) := by
  unfold ActionContext.searchPopWord
  split
  · exact h
  · next index hindex =>
      split
      · exact h
      · next regex hregex =>
          obtain ⟨hlt, -⟩ := List.getElem?_eq_some_iff.mp hregex
          have hset : index < (ctx.searchState.history.set index (popWord regex)).length := by
            rw [List.length_set]
            exact hlt
          refine updateSearch ?_ engine
          exact h.typed hindex hset rfl rfl rfl rfl

theorem searchHistoryPrevious (h : Strayed offset origin ctx) (engine : RegexEngine R) :
    Strayed offset origin (ctx.searchHistoryPrevious engine) := by
  unfold ActionContext.searchHistoryPrevious
  split
  · exact h
  · split
    · exact h
    · next hlast =>
        refine updateSearch ?_ engine
        exact h.typed rfl (Nat.lt_of_not_le hlast) rfl rfl rfl rfl

theorem searchHistoryNext (h : Strayed offset origin ctx) (engine : RegexEngine R) :
    Strayed offset origin (ctx.searchHistoryNext engine) := by
  obtain ⟨i, hi, hlt⟩ := h.input
  unfold ActionContext.searchHistoryNext
  split
  · exact h
  · exact h
  · next index hindex =>
      have heq : i = index + 1 := Option.some.inj (hi.symm.trans hindex)
      have hprev : index < ctx.searchState.history.length := by omega
      refine updateSearch ?_ engine
      exact h.typed rfl hprev rfl rfl rfl rfl

/-- Every operation of a preview records how it moves the display. -/
theorem step (h : Strayed offset origin ctx) {op : SearchOp R} (hop : op.Previews) :
    Returns (ctx.step op) (Strayed offset origin) := by
  cases op with
  | startSearch | confirmSearch | cancelSearch => exact hop.elim
  | searchInput engine c => exact h.searchInput engine c
  | searchPopWord engine => exact .pure (h.searchPopWord engine)
  | searchHistoryPrevious engine => exact .pure (h.searchHistoryPrevious engine)
  | searchHistoryNext engine => exact .pure (h.searchHistoryNext engine)
  | scroll scroll => exact .pure (h.scroll scroll)
  | gotoMatch engine limit => exact .pure (h.gotoMatch engine limit)

theorem run (h : Strayed offset origin ctx) {ops : List (SearchOp R)} (hops : ∀ op ∈ ops, op.Previews) :
    Returns (runOps ActionContext.step ctx ops) (Strayed offset origin) := by
  induction ops generalizing ctx with
  | nil => exact .pure h
  | cons op ops ih =>
      refine (h.step (hops op List.mem_cons_self)).bind fun a ha => ?_
      exact ih ha fun op' hop' => hops op' (List.mem_cons_of_mem _ hop')

end Strayed

namespace ActionContext
variable {ctx : ActionContext R}

theorem startSearch_strayed (hvi : ctx.terminal.mode.vi = true) (direction : Side)
    (hbounded : ctx.terminal.grid.OffsetBounded) :
    Strayed ctx.terminal.grid.displayOffset (ctx.searchOrigin direction) (ctx.startSearch direction) := by
  refine ⟨hvi, ⟨0, rfl, ?_⟩, rfl, ?_, hbounded⟩
  · unfold startSearch
    dsimp only
    split
    · next hempty => exact List.length_pos_iff.mpr fun hnil => by simp [hnil] at hempty
    · simp [maxSearchHistorySize]
  · unfold startSearch
    simp [hvi]

/-- A search in vi mode can always be taken back if and only if the viewport it starts from is not
above the history. -/
theorem search_reversible_iff (hvi : ctx.terminal.mode.vi = true) (direction : Side) :
    (∀ ops : List (SearchOp R), (∀ op ∈ ops, op.Previews) →
      Returns (runOps step (ctx.startSearch direction) ops) fun ctx' =>
        Returned ctx.terminal.grid.displayOffset (ctx.searchOrigin direction) ctx'.searchResetState) ↔
    ctx.terminal.grid.OffsetBounded := by
  constructor
  · intro h
    obtain ⟨hoffset, -⟩ := (h [] (by simp)).of_eq rfl
    have hgrid : (ctx.startSearch direction).searchResetState.terminal.grid =
        ctx.terminal.grid.scrollDisplay (.delta 0) := by
      unfold searchResetState
      rw [if_pos (by exact hvi), Term.scrollDisplay_grid]
      simp [startSearch, hvi]
    rw [hgrid] at hoffset
    simp only [Grid.scrollDisplay, Int.add_zero] at hoffset
    rw [Grid.OffsetBounded]
    omega
  · intro hbounded ops hops
    exact ((startSearch_strayed hvi direction hbounded).run hops).mono fun ctx' h => h.searchResetState.2

/-- The only match is in the history; it is typed, shown and scrolled away from. -/
theorem search_reversible_history : ∃ t : Term, t.Reachable .ascii .initial 4 2 ∧
    t.mode.vi = true ∧ t.grid.displayOffset = 0 ∧ t.grid.historySize = 1 ∧
    Returns (runOps step ((initial t).startSearch .left)
      [.searchInput ⟨fun _ => some (), fun _ _ _ _ _ _ => some ⟨⟨-1, 0⟩, ⟨-1, 1⟩⟩⟩ 'a', .scroll .bottom,
        .scroll .pageUp]) fun ctx' =>
      Returned 0 ((initial (R := Unit) t).searchOrigin .left) ctx'.searchResetState := by
  have hrun : Term.Reachable .ascii .initial 4 2 _ :=
    .step (.step (.step .refl
      (a := .resize 2 2) (And.intro (by decide) (by decide)) rfl)
      (a := .handler (.scrollUp 1)) trivial rfl)
      (a := .toggleViMode) trivial rfl
  refine ⟨_, hrun, rfl, rfl, rfl, ?_⟩
  refine (search_reversible_iff (R := Unit) rfl .left).mpr (.of_zero rfl) _ fun op hop => ?_
  simp only [List.mem_cons, List.not_mem_nil, or_false] at hop
  rcases hop with rfl | rfl | rfl <;> exact trivial

/-- Lines scrolled below a fixed one leave the viewport above the history; a search in vi mode
brings it down. -/
theorem search_irreversible : ¬ ∀ (t : Term) (direction : Side) (ops : List (SearchOp Unit)),
    t.Reachable .ascii .initial 5 2 → t.mode.vi = true → (∀ op ∈ ops, op.Previews) →
    Returns (runOps step ((initial t).startSearch direction) ops) fun ctx' =>
      Returned t.grid.displayOffset ((initial (R := Unit) t).searchOrigin direction) ctx'.searchResetState := by
  intro h
  have hrun : Term.Reachable .ascii .initial 5 2 _ :=
    .step (.step (.step (.step (.step (.step .refl
      (a := .resize 3 2) (And.intro (by decide) (by decide)) rfl)
      (a := .handler (.scrollUp 1)) trivial rfl)
      (a := .scrollDisplay (.delta 1)) trivial rfl)
      (a := .handler (.setScrollingRegion 2 none)) (Nat.le_succ 1) rfl)
      (a := .handler (.scrollUp 1)) trivial rfl)
      (a := .toggleViMode) trivial rfl
  have hoffset := ((h _ .right [] hrun rfl (by simp)).of_eq rfl).offset
  cases hoffset

end ActionContext
end Velacritty
