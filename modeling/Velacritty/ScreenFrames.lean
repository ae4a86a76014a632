import Velacritty.TermSteps

/-! What an operation leaves alone: the hidden screen, the sizes and limits of the one
that is shown, and the scroll region. -/
namespace Velacritty
open Fallible

theorem Grid.pinViewport_displayOffset_le (g : Grid Cell) (positions : Nat) :
    (g.pinViewport positions).displayOffset ≤ max g.displayOffset g.maxScrollLimit := by
  unfold pinViewport
  split
  · exact Nat.le_trans (Nat.min_le_right _ _) (Nat.le_max_right _ _)
  · exact Nat.le_max_left _ _

namespace Term
variable {t t' a : Term} {S : Point → Prop} {env : Env}

/-- Only the content of the shown screen, its cursor and its viewport changed. -/
structure Framed (t t' : Term) : Prop where
  inactiveGrid : t'.inactiveGrid = t.inactiveGrid
  altScreen : t'.mode.altScreen = t.mode.altScreen
  lines : t'.grid.lines = t.grid.lines
  columns : t'.grid.columns = t.grid.columns
  maxScrollLimit : t'.grid.maxScrollLimit = t.grid.maxScrollLimit
  autoScrollEnabled : t'.grid.autoScrollEnabled = t.grid.autoScrollEnabled
  displayOffset : t'.grid.displayOffset ≤ max t.grid.displayOffset t.grid.maxScrollLimit
  regionStart : t'.regionStart = t.regionStart
  regionEnd : t'.regionEnd = t.regionEnd

theorem Framed.refl (t : Term) : Framed t t :=
  ⟨rfl, rfl, rfl, rfl, rfl, rfl, Nat.le_max_left _ _, rfl, rfl⟩

theorem framed_withCursors (t : Term) (cursor savedCursor : Cursor Cell) :
    Framed t { t with grid := { t.grid with cursor, savedCursor } } :=
  ⟨rfl, rfl, rfl, rfl, rfl, rfl, Nat.le_max_left _ _, rfl, rfl⟩

theorem Framed.trans (h : Framed t a) (h' : Framed a t') : Framed t t' := by
  refine ⟨h'.inactiveGrid.trans h.inactiveGrid, h'.altScreen.trans h.altScreen,
    h'.lines.trans h.lines, h'.columns.trans h.columns, h'.maxScrollLimit.trans h.maxScrollLimit,
    h'.autoScrollEnabled.trans h.autoScrollEnabled, ?_, h'.regionStart.trans h.regionStart,
    h'.regionEnd.trans h.regionEnd⟩
  have hfirst := h.displayOffset
  have hsecond := h'.displayOffset
  rw [h.maxScrollLimit] at hsecond
  omega

theorem Edited.framed (h : Edited S t t') : Framed t t' :=
  ⟨h.inactiveGrid, by rw [h.mode], h.lines, h.columns, h.maxScrollLimit, h.autoScrollEnabled,
    h.displayOffset ▸ Nat.le_max_left _ _, h.regionStart, h.regionEnd⟩

theorem Quiet.framed (h : t.Quiet t') : Framed t t' := by
  have hgrid := h.grid
  refine ⟨h.inactiveGrid, h.altScreen, (congrArg Grid.lines hgrid :), (congrArg Grid.columns hgrid :),
    (congrArg Grid.maxScrollLimit hgrid :), (congrArg Grid.autoScrollEnabled hgrid :), ?_,
    h.regionStart, h.regionEnd⟩
  have hoffset : t'.grid.displayOffset = t.grid.displayOffset := (congrArg Grid.displayOffset hgrid :)
  exact hoffset ▸ Nat.le_max_left _ _

theorem framed_of_sameScreen (h : t.grid.SameScreen t'.grid)
    (hoffset : t'.grid.displayOffset ≤ max t.grid.displayOffset t.grid.maxScrollLimit)
    (hrest : t' = { t with
      grid := t'.grid, viModeCursor := t'.viModeCursor, selection := t'.selection
      damageState := { t.damageState with full := true } }) : Framed t t' :=
  ⟨(congrArg Term.inactiveGrid hrest :), (congrArg (fun t => t.mode.altScreen) hrest :), h.lines,
    h.columns, h.maxScrollLimit, h.autoScrollEnabled, hoffset, (congrArg Term.regionStart hrest :),
    (congrArg Term.regionEnd hrest :)⟩

theorem ScrolledUp.framed {origin : Int} {lines : Nat} (h : ScrolledUp origin lines t t') (ht : t.WF)
    (hlo : 0 ≤ origin) (hhi : origin ≤ t.regionEnd) : Framed t t' := by
  obtain ⟨-, -, -, hoff⟩ := (Grid.scrollUp_returns ht.grid (ht.inRegion hlo hhi)
    fun _ => scrollSize_le ht lines).of_eq h.grid
  refine framed_of_sameScreen h.same ?_ h.rest
  rw [hoff]
  split
  · exact Nat.le_max_left _ _
  · exact t.grid.pinViewport_displayOffset_le _

theorem ScrolledDown.framed {origin : Int} (h : ScrolledDown origin t t') : Framed t t' :=
  framed_of_sameScreen h.same.toSameScreen (h.same.displayOffset ▸ Nat.le_max_left _ _) h.rest

theorem Cleared.framed (h : Cleared t t') (ht : t.WF) : Framed t t' := by
  cases h with
  | redone h => exact h.toEdited.framed
  | viewport h _ =>
      obtain ⟨-, -, positions, -, -, hoff⟩ := (Grid.clearViewport_returns ht.grid).of_eq h.grid
      refine framed_of_sameScreen h.same ?_ h.rest
      rw [hoff]
      exact t.grid.pinViewport_displayOffset_le _
  | history h _ =>
      obtain ⟨-, -, -, hoff⟩ := (Grid.clearHistory_returns ht.grid).of_eq h.grid
      refine framed_of_sameScreen h.same ?_ h.rest
      rw [hoff]
      exact Nat.zero_le _

theorem Linefed.framed (h : Linefed t t') (ht : t.WF) : Framed t t' := by
  cases h with
  | scrolled _ h => exact h.framed ht ht.region.start_nonneg ht.region.start_le
  | moved _ h _ => exact h.toEdited.framed
  | stuck _ _ h => exact h ▸ .refl t

theorem Wrapped.framed (h : Wrapped t t') (ht : t.WF) : Framed t t' := by
  cases h with
  | off _ h => exact h ▸ .refl t
  | @scrolled a b _ _ ha hb h _ =>
      have hle : t.regionStart ≤ a.regionEnd := ha.toEdited.regionEnd ▸ ht.region.start_le
      exact ha.toEdited.framed.trans
        ((hb.framed (ha.toEdited.wf ht) ht.region.start_nonneg hle).trans h.framed)
  | moved _ _ h _ _ _ => exact h.framed
  | stuck _ _ _ h _ _ _ => exact h.framed

theorem Inputted.framed {c : Char} (h : Inputted env c t t') (ht : t.WF) : Framed t t' := by
  cases h with
  | ignored _ h => exact h ▸ .refl t
  | joined _ _ h _ => exact h.toEdited.framed
  | @printed width a b _ _ ha hb h =>
      have hap : a.WF ∧ Framed t a := by
        rcases ha with ⟨-, rfl⟩ | ⟨-, ha⟩
        · exact ⟨ht, .refl _⟩
        · exact ⟨ha.wf ht, ha.framed ht⟩
      have hbp : b.WF ∧ Framed t b := by
        rcases hb with rfl | ⟨-, hb⟩
        · exact hap
        · exact ⟨hb.toEdited.wf hap.1, hap.2.trans hb.toEdited.framed⟩
      refine hbp.2.trans ?_
      cases h with
      | swept _ h => exact h.edited.framed
      | dropped _ _ h => exact h ▸ framed_withCursors b _ _
      | wrapped _ _ hd _ _ _ _ _ _ he h =>
          exact hd.framed.trans ((he.framed (hd.wf hbp.1)).trans h.edited.framed)

/-- Setting the scroll region changes nothing else of the frame. -/
theorem Regioned.framed {top : Nat} {bottom : Option Nat} (h : Regioned top bottom t t') :
    Framed { t with regionStart := t'.regionStart, regionEnd := t'.regionEnd } t' := by
  cases h with
  | invalid _ h => exact h ▸ .refl t
  | home _ _ _ _ _ _ h _ =>
      have hframed := h.toEdited.framed
      exact ⟨hframed.inactiveGrid, hframed.altScreen, hframed.lines, hframed.columns,
        hframed.maxScrollLimit, hframed.autoScrollEnabled, hframed.displayOffset, rfl, rfl⟩

/-- How a call of the parser treats the frame. -/
inductive Reframed (t t' : Term) (op : HandlerOp) : Prop
  | framed (h : Framed t t')
  | regioned {top : Nat} {bottom : Option Nat} {a : Term}
      (hop : op = .setScrollingRegion top bottom ∨ top = 1 ∧ bottom = none)
      (ha : Regioned top bottom t a) (h : Framed a t')
  | restarted (hop : op = .resetState) (h : Restarted t t')
  | swapped (hop : t.Swaps op) (h : Swapped t t')

theorem Stepped.reframed {op : HandlerOp} (h : Stepped env t t' op) (ht : t.WF) : Reframed t t' op := by
  cases h with
  | same h => exact .framed (h ▸ .refl t)
  | quiet h => exact .framed h.framed
  | inputted h => exact .framed (h.framed ht)
  | freed ha h _ => exact .framed (ha.framed.trans h.toEdited.framed)
  | raised h _ _ => exact .framed h.toEdited.framed
  | wrapped _ h => exact .framed (h.framed ht)
  | tabbed _ h => exact .framed h.edited.framed
  | tabbedBack _ h _ _ => exact .framed h.toEdited.framed
  | tabbedForward _ h _ _ _ => exact .framed h.toEdited.framed
  | linefed _ h => exact .framed (h.framed ht)
  | newline ha h _ => exact .framed ((ha.framed ht).trans h.toEdited.framed)
  | scrolledUp h => exact .framed (h.framed ht ht.region.start_nonneg ht.region.start_le)
  | scrolledDown _ h => exact .framed h.framed
  | deletedLines _ hhi h =>
      exact .framed (h.framed ht ht.grid.cursor.line_nonneg (Int.le_of_lt hhi))
  | redrawn h =>
      obtain ⟨S, h, -⟩ := h
      exact .framed h.toEdited.framed
  | redone h => exact .framed h.toEdited.framed
  | saved h => exact .framed (h ▸ framed_withCursors t _ _)
  | restored h _ => exact .framed h.toEdited.framed
  | cleared h => exact .framed (h.framed ht)
  | restarted h => exact .restarted rfl h
  | regioned h => exact .regioned (.inl rfl) h (.refl t')
  | regionedRedone ha h => exact .regioned (.inr ⟨rfl, rfl⟩) ha h.toEdited.framed
  | swapped hop h => exact .swapped hop h

end Term
end Velacritty
