import Velacritty.GridRuns

/-! The viewport shows existing lines only. -/
namespace Velacritty
open Fallible

namespace Grid
variable {T : Type} {g : Grid T}

/-- Where `display_iter` can be: before the first visible line, or on a visible one. -/
structure Displaying (g : Grid T) (it : GridIterator T) : Prop where
  grid : it.grid = g
  stop : it.stop = g.displayIter.stop
  column_lt : it.point.column < g.columns
  line : -(g.displayOffset : Int) ≤ it.point.line ∨
    it.point.line = -(g.displayOffset : Int) - 1 ∧ it.point.column = g.dims.lastColumn

theorem displayIter_displaying (hc : 1 ≤ g.columns) : g.Displaying g.displayIter :=
  ⟨rfl, rfl, Nat.sub_lt hc Nat.one_pos, .inr ⟨rfl, rfl⟩⟩

/-- The next visible cell exists, and is on a line of the storage. -/
theorem next_returns (h : g.WF) (hb : g.OffsetBounded) {it : GridIterator T}
    (hit : g.Displaying it) :
    Returns it.next fun r => (r.1.isSome → g.Displaying r.2) ∧
      ∀ p cell, r.1 = some (p, cell) →
        g.dims.topmostLine ≤ p.line ∧ p.line ≤ g.dims.bottommostLine := by
  have hc := h.columns_pos
  obtain ⟨grid, ⟨line, column⟩, stop⟩ := it
  obtain ⟨hgrid, hstop, hcol, hline⟩ := hit
  simp only at hgrid hstop hcol hline
  subst hgrid
  have hlast : grid.dims.lastColumn = grid.columns - 1 := rfl
  have htop : grid.dims.topmostLine ≤ -(grid.displayOffset : Int) := by
    have hb' : grid.displayOffset ≤ grid.dims.historySize := hb
    simp only [Dimensions.topmostLine]
    omega
  have hstopline : stop.line ≤ grid.dims.bottommostLine := by
    rw [hstop]
    exact Int.min_le_right _ _
  have hstopcol : stop.column = grid.columns - 1 := by rw [hstop]; rfl
  have hbottom : grid.dims.bottommostLine = (grid.lines : Int) - 1 := rfl
  unfold GridIterator.next
  split
  · exact .pure ⟨fun h => absurd h Bool.false_ne_true, fun _ _ h => by cases h⟩
  · next hend =>
      rw [Point.le_def] at hend
      simp only at hend
      -- The point moves in reading order, so it does not move past the end.
      by_cases hwrap : grid.dims.lastColumn ≤ column
      · simp only [hwrap, if_true]
        refine (cell_returns h (by omega : grid.dims.topmostLine ≤ line + 1) (by omega) hc).bind
          fun cell _ => .pure ⟨fun _ => ⟨rfl, hstop, hc, .inl (by simp only; omega)⟩, ?_⟩
        rintro p cell' heq
        obtain ⟨rfl, -⟩ := Prod.mk.inj (Option.some.inj heq)
        exact ⟨by simp only; omega, by simp only; omega⟩
      · simp only [hwrap, if_false]
        refine (cell_returns h (by omega : grid.dims.topmostLine ≤ line) (by omega)
          (show column + 1 < grid.columns by omega)).bind
          fun cell _ => .pure ⟨fun _ => ⟨rfl, hstop, by simp only; omega, .inl (by simp only; omega)⟩, ?_⟩
        rintro p cell' heq
        obtain ⟨rfl, -⟩ := Prod.mk.inj (Option.some.inj heq)
        exact ⟨by simp only; omega, by simp only; omega⟩

theorem advance_displaying (h : g.WF) (hb : g.OffsetBounded) {it : GridIterator T}
    (hit : Reaches GridIterator.advance (fun _ _ => True) g.displayIter it) : g.Displaying it := by
  refine hit.invariant (displayIter_displaying h.columns_pos) fun it _ it' hd _ hs => ?_
  simp only [GridIterator.advance, Option.bind_eq_bind, Option.bind_eq_some_iff] at hs
  obtain ⟨r, hr, hs⟩ := hs
  split at hs
  · next hsome => exact Option.some.inj hs ▸ ((next_returns h hb hd).of_eq hr).1 hsome
  · cases hs

variable [GridCell T]

/-- In every run whose scrolls are safe, the viewport stays inside of the history, and
iterating over it finds a cell on an existing line every time. -/
theorem run_viewport {lines columns max : Nat} (hl : 1 ≤ lines) (hc : 1 ≤ columns)
    (h : Reaches GridOp.step (fun g op => op.Admissible 1 g ∧ op.OffsetSafe g)
      (new lines columns max) g) :
    g.displayOffset ≤ g.historySize ∧ g.historySize ≤ g.maxScrollLimit ∧
      ∀ it, Reaches GridIterator.advance (fun _ _ => True) g.displayIter it →
        Returns it.next fun r => ∀ p cell, r.1 = some (p, cell) →
          g.dims.topmostLine ≤ p.line ∧ p.line ≤ g.dims.bottommostLine := by
  have hinv : g.WF ∧ g.OffsetBounded := by
    refine h.invariant (P := fun g => g.WF ∧ g.OffsetBounded) ⟨new_wf hl hc max, .of_zero rfl⟩
      fun s op s' hs hop hstep => ?_
    exact ⟨(step_wf (Nat.le_refl 1) hs.1 hop.1).2 s' hstep,
      (step_offsetBounded_iff (Nat.le_refl 1) hs.1 hs.2 hop.1 s' hstep).mpr hop.2⟩
  obtain ⟨hwf, hb⟩ := hinv
  refine ⟨hb, ?_, fun it hit => ?_⟩
  · have := hwf.history_le
    have hhist : g.historySize = g.raw.len - g.lines := g.historySize_eq
    omega
  · exact (next_returns hwf hb (advance_displaying hwf hb hit)).mono fun r hr => hr.2

/-- Without scrollback there is room for no offset at all, so that scrolling the middle
of a screen with auto-scroll disabled is safe. -/
theorem run_viewport_locked :
    ∃ g : Grid Cell, Reaches GridOp.step (fun g op => op.Admissible 1 g ∧ op.OffsetSafe g)
      (new 4 2 0) g ∧ g.autoScrollEnabled = false ∧ g.displayOffset ≤ g.historySize := by
  have hrun : Reaches GridOp.step (fun g op => op.Admissible 1 g ∧ op.OffsetSafe g)
      (new 4 2 0 : Grid Cell) _ :=
    .step (.step .refl (a := .setAutoScrollEnabled false) ⟨trivial, trivial⟩ rfl)
      (a := .scrollUp 1 3 1) ⟨⟨⟨by decide, by decide, by decide⟩, by decide⟩,
        .inr (.inr (.inr (by decide)))⟩ rfl
  exact ⟨_, hrun, by decide, (run_viewport (by decide) (by decide) hrun).1⟩

/-- With auto-scroll disabled, scrolling a region below the top of a fresh screen moves
the viewport above the empty history, where there is no line to show. -/
theorem viewport_leaves_history :
    ∃ g : Grid Cell, Reaches GridOp.step (fun g op => op.Admissible 1 g) (new 4 2 100) g ∧
      g.historySize < g.displayOffset ∧ g.displayIter.next.isNone := by
  refine ⟨_, .step (.step .refl (a := .setAutoScrollEnabled false) trivial rfl)
    (a := .scrollUp 1 3 1) ⟨⟨by decide, by decide, by decide⟩, by decide⟩ rfl, by decide, by decide⟩

end Grid
end Velacritty
