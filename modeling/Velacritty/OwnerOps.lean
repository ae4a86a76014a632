import Velacritty.ScreenOps

/-! Operations on both screens: resets, swaps, options and sizes, and the display. -/
namespace Velacritty
open Fallible

/-- Two well-formed grids of one size make a well-formed terminal, whatever else
changed, if the region and the tabs fit. -/
theorem Term.WF.withGrids {t t' : Term} (h : t.WF) (hgrid : t'.grid.WF) (hinactive : t'.inactiveGrid.WF)
    (hlines : t'.grid.lines = t.grid.lines) (hcolumns : t'.grid.columns = t.grid.columns)
    (hlines' : t'.inactiveGrid.lines = t.grid.lines)
    (hcolumns' : t'.inactiveGrid.columns = t.grid.columns)
    (hregion : Grid.InRegion t.grid.lines t'.regionStart t'.regionEnd) (hpos : 1 ≤ t'.regionEnd)
    (htabs : t'.tabs.length = t.grid.columns) (hdamage : t.damageState.Grows t'.damageState) :
    t'.WF := by
  refine ⟨hgrid, hinactive, hlines'.trans hlines.symm, hcolumns'.trans hcolumns.symm, ?_, ?_, hpos,
    htabs.trans hcolumns.symm, ?_, ?_⟩
  · rw [hcolumns]
    exact h.two_le
  · rw [hlines]
    exact hregion
  · rw [hdamage.length, hlines, h.damage]
  · rw [hdamage.lastCursor, hlines, hcolumns]
    exact h.lastCursor

namespace Term
variable {t t' a : Term}

/-! ### Resets and swaps -/

/-- Both screens are reset, and the primary one is shown. -/
structure Restarted (t t' : Term) : Prop where
  wf : t'.WF
  rest : t' = { t with
    activeCharset := .g0, cursorStyle := none, grid := t'.grid, inactiveGrid := t'.inactiveGrid
    regionStart := 0, regionEnd := t'.grid.lines, tabs := t'.tabs, titleStack := [], title := none
    selection := none, viModeCursor := default, keyboardModeStack := [], inactiveKeyboardModeStack := []
    mode := { TermMode.initial with vi := t.mode.vi }, events := t'.events
    damageState := { t.damageState with full := true } }
  grid : (if t.mode.altScreen then t.inactiveGrid else t.grid).reset = some t'.grid
  inactiveGrid : (if t.mode.altScreen then t.grid else t.inactiveGrid).reset = some t'.inactiveGrid
  cursor : t'.grid.cursor = Grid.defaultCursor
  savedCursor : t'.grid.savedCursor = Grid.defaultCursor
  inactiveCursor : t'.inactiveGrid.cursor = Grid.defaultCursor
  inactiveSaved : t'.inactiveGrid.savedCursor = Grid.defaultCursor
  displayOffset : t'.grid.displayOffset = 0
  inactiveOffset : t'.inactiveGrid.displayOffset = 0

theorem Restarted.full (h : Restarted t t') : t'.damageState.full = true :=
  (congrArg (fun t => t.damageState.full) h.rest :)

theorem Restarted.viModeCursor (h : Restarted t t') : t'.viModeCursor = default :=
  (congrArg Term.viModeCursor h.rest :)

theorem length_newTabStops (columns : Nat) : (newTabStops columns).length = columns := by
  simp only [newTabStops, List.length_map, List.length_range]

theorem resetState_returns (h : t.WF) : Returns t.resetState (Restarted t) := by
  obtain ⟨s, hs, hswf, hrest, hgrid, hinactive⟩ : ∃ s : Term,
      s = (if t.mode.altScreen then { t with grid := t.inactiveGrid, inactiveGrid := t.grid } else t) ∧
        s.WF ∧ s = { t with grid := s.grid, inactiveGrid := s.inactiveGrid } ∧
        s.grid = (if t.mode.altScreen then t.inactiveGrid else t.grid) ∧
        s.inactiveGrid = if t.mode.altScreen then t.grid else t.inactiveGrid := by
    refine ⟨_, rfl, ?_⟩
    split
    · exact ⟨h.withGrids h.inactiveGrid h.grid h.inactive_lines h.inactive_columns rfl rfl h.region
        h.region_pos h.tabs (.refl _), rfl, rfl, rfl⟩
    · exact ⟨h, rfl, rfl, rfl⟩
  simp only [resetState, ← hs]
  obtain ⟨g, hg, hgwf, hglines, hgcolumns, -, -, hgoff, hgcursor, hgsaved⟩ := Grid.reset_returns hswf.grid
  obtain ⟨i, hi, hiwf, hilines, hicolumns, -, -, hioff, hicursor, hisaved⟩ :=
    Grid.reset_returns hswf.inactiveGrid
  simp only [hg, hi, Option.bind_eq_bind, Option.bind_some]
  refine .pure ⟨hswf.withGrids hgwf hiwf hglines hgcolumns (hilines.trans hswf.inactive_lines)
    (hicolumns.trans hswf.inactive_columns) ⟨Int.le_refl 0, Int.natCast_nonneg _, ?_⟩ ?_ ?_
    (TermDamageState.markFull_grows _), ?_, hgrid ▸ hg, hinactive ▸ hi, hgcursor, hgsaved, hicursor,
    hisaved, hgoff, hioff⟩
  · exact Int.ofNat_le.mpr (Nat.le_of_eq hglines)
  · exact Int.ofNat_le.mpr (hglines ▸ hswf.grid.lines_pos)
  · exact (length_newTabStops _).trans hgcolumns
  · rw [hrest]
    rfl

/-- The two screens changed places, and their keyboard modes with them; the alternate
screen starts at the cursor. -/
structure Swapped (t t' : Term) : Prop where
  wf : t'.WF
  rest : t' = { t with
    grid := t'.grid, inactiveGrid := t'.inactiveGrid
    keyboardModeStack := t.inactiveKeyboardModeStack
    inactiveKeyboardModeStack := t.keyboardModeStack
    mode := { t.mode with
      altScreen := !t.mode.altScreen
      keyboard := t.inactiveKeyboardModeStack.getLast?.getD .noMode }
    selection := none, damageState := { t.damageState with full := true } }
  toPrimary : t.mode.altScreen = true → t'.grid = t.inactiveGrid ∧ t'.inactiveGrid = t.grid
  toAlternate : t.mode.altScreen = false →
    Grid.SameSize { t.inactiveGrid with cursor := t.grid.cursor } t'.grid ∧
      t'.inactiveGrid = { t.grid with savedCursor := t.grid.cursor }

theorem Swapped.full (h : Swapped t t') : t'.damageState.full = true :=
  (congrArg (fun t => t.damageState.full) h.rest :)

theorem Swapped.vi (h : Swapped t t') : t'.mode.vi = t.mode.vi :=
  (congrArg (fun t => t.mode.vi) h.rest :)

theorem Swapped.viModeCursor (h : Swapped t t') : t'.viModeCursor = t.viModeCursor :=
  (congrArg Term.viModeCursor h.rest :)

theorem swapAlt_returns (h : t.WF) : Returns t.swapAlt (Swapped t) := by
  simp only [swapAlt]
  split
  · next halt =>
      refine .pure ⟨h.withGrids h.inactiveGrid h.grid h.inactive_lines h.inactive_columns rfl rfl
        h.region h.region_pos h.tabs (TermDamageState.markFull_grows _), rfl, fun _ => ⟨rfl, rfl⟩,
        fun hno => ?_⟩
      exact absurd (halt.symm.trans hno) (by decide)
  · next halt =>
      have hcursor : Grid.InScreen t.inactiveGrid.lines t.inactiveGrid.columns t.grid.cursor.point := by
        rw [h.inactive_lines, h.inactive_columns]
        exact h.grid.cursor
      have hinactive : Grid.WF { t.inactiveGrid with cursor := t.grid.cursor } :=
        ⟨h.inactiveGrid.raw, h.inactiveGrid.visible, h.inactiveGrid.columns_pos,
          h.inactiveGrid.history_le, hcursor, h.inactiveGrid.savedCursor⟩
      have hgrid : Grid.WF { t.grid with savedCursor := t.grid.cursor } :=
        ⟨h.grid.raw, h.grid.visible, h.grid.columns_pos, h.grid.history_le, h.grid.cursor,
          h.grid.cursor⟩
      have hpos : 1 ≤ t.inactiveGrid.lines := hinactive.lines_pos
      obtain ⟨g, hg, hsame⟩ := Grid.resetRegion_returns hinactive (Int.le_refl 0)
        (Int.ofNat_lt.mpr hpos) (Int.le_refl _)
      simp only [hg, Option.bind_eq_bind, Option.bind_some]
      refine .pure ⟨h.withGrids hsame.wf hgrid (hsame.lines.trans h.inactive_lines)
        (hsame.columns.trans h.inactive_columns) rfl rfl h.region h.region_pos h.tabs
        (TermDamageState.markFull_grows _), rfl, fun hyes => absurd hyes halt, fun _ => ⟨hsame, rfl⟩⟩

/-! ### Options and sizes -/

/-- The history of the primary screen got another limit. The keyboard modes are dropped
when their protocol is switched on or off. -/
structure Configured (options : Config) (t t' : Term) : Prop where
  wf : t'.WF
  rest : ∃ stack inactive keyboard, t' = { t with
    config := options, events := t'.events, grid := t'.grid, inactiveGrid := t'.inactiveGrid
    keyboardModeStack := stack, inactiveKeyboardModeStack := inactive
    mode := { t.mode with keyboard }, damageState := { t.damageState with full := true } } ∧
    if options.kittyKeyboard = t.config.kittyKeyboard then
      stack = t.keyboardModeStack ∧ inactive = t.inactiveKeyboardModeStack ∧ keyboard = t.mode.keyboard
    else stack = [] ∧ inactive = [] ∧ keyboard = .noMode
  alternate : t.mode.altScreen = true → t'.grid = t.grid ∧
    t.inactiveGrid.updateHistory options.scrollingHistory = some t'.inactiveGrid
  primary : t.mode.altScreen = false → t'.inactiveGrid = t.inactiveGrid ∧
    t.grid.updateHistory options.scrollingHistory = some t'.grid

theorem Configured.vi {options : Config} (h : Configured options t t') : t'.mode.vi = t.mode.vi := by
  obtain ⟨_, _, _, hrest, -⟩ := h.rest
  exact (congrArg (fun t => t.mode.vi) hrest :)

theorem Configured.viModeCursor {options : Config} (h : Configured options t t') :
    t'.viModeCursor = t.viModeCursor := by
  obtain ⟨_, _, _, hrest, -⟩ := h.rest
  exact (congrArg Term.viModeCursor hrest :)

theorem setOptions_returns (h : t.WF) (options : Config) :
    Returns (t.setOptions options) (Configured options t) := by
  simp only [setOptions]
  cases halt : t.mode.altScreen with
  | true =>
      obtain ⟨i, hi, hwf, hlines, hcolumns, -⟩ :=
        Grid.updateHistory_returns h.inactiveGrid options.scrollingHistory
      simp only [sendEvent, halt, hi, if_true, Option.bind_eq_bind, Option.bind_some]
      refine .pure ⟨?_, ?_, fun _ => ?_, fun hno => absurd (halt.symm.trans hno) (by decide)⟩
      · split <;> exact h.withGrids h.grid hwf rfl rfl (hlines.trans h.inactive_lines)
          (hcolumns.trans h.inactive_columns) h.region h.region_pos h.tabs
          (TermDamageState.markFull_grows _)
      · by_cases hkitty : options.kittyKeyboard = t.config.kittyKeyboard
        · simp only [hkitty, ne_eq, not_true_eq_false, if_false, if_true]
          exact ⟨_, _, _, rfl, rfl, rfl, rfl⟩
        · simp only [hkitty, ne_eq, not_false_eq_true, if_false, if_true]
          exact ⟨_, _, _, by simp only [halt]; rfl, rfl, rfl, rfl⟩
      · split <;> exact ⟨rfl, hi⟩
  | false =>
      obtain ⟨g, hg, hwf, hlines, hcolumns, -⟩ :=
        Grid.updateHistory_returns h.grid options.scrollingHistory
      simp only [sendEvent, halt, hg, Bool.false_eq_true, if_false, Option.bind_eq_bind, Option.bind_some]
      refine .pure ⟨?_, ?_, fun hyes => absurd (halt.symm.trans hyes) (by decide), fun _ => ?_⟩
      · split <;> exact h.withGrids hwf h.inactiveGrid hlines hcolumns h.inactive_lines
          h.inactive_columns h.region h.region_pos h.tabs (TermDamageState.markFull_grows _)
      · by_cases hkitty : options.kittyKeyboard = t.config.kittyKeyboard
        · simp only [hkitty, ne_eq, not_true_eq_false, if_false, if_true]
          exact ⟨_, _, _, rfl, rfl, rfl, rfl⟩
        · simp only [hkitty, ne_eq, not_false_eq_true, if_false, if_true]
          exact ⟨_, _, _, by simp only [halt]; rfl, rfl, rfl, rfl⟩
      · split <;> exact ⟨rfl, hg⟩

/-- Both grids were resized, only the primary one with reflow. -/
structure Resized (lines columns : Nat) (t t' : Term) : Prop where
  wf : t'.WF
  rest : t' = { t with
    grid := t'.grid, inactiveGrid := t'.inactiveGrid, viModeCursor := t'.viModeCursor
    selection := t'.selection, tabs := t'.tabs, regionStart := 0, regionEnd := t'.grid.lines
    damageState := .resize columns lines }
  grid : t.grid.resize (!t.mode.altScreen) lines columns = some t'.grid
  inactiveGrid : t.inactiveGrid.resize t.mode.altScreen lines columns = some t'.inactiveGrid
  line : ∃ line, t'.viModeCursor.line = max (min line (-(t'.grid.displayOffset : Int) + t'.bottommostLine))
    (-(t'.grid.displayOffset : Int))
  column : t'.viModeCursor.column ≤ t'.lastColumn

theorem Resized.vi {lines columns : Nat} (h : Resized lines columns t t') : t'.mode.vi = t.mode.vi :=
  (congrArg (fun t => t.mode.vi) h.rest :)

theorem length_resizeTabStops (tabs : List Bool) (columns : Nat) :
    (resizeTabStops tabs columns).length = columns := by
  simp only [resizeTabStops, List.length_append, List.length_take, List.length_drop,
    length_newTabStops]
  omega

theorem length_undamagedLines (columns lines : Nat) :
    (TermDamageState.undamagedLines columns lines).length = lines := by
  simp only [TermDamageState.undamagedLines, List.length_map, List.length_range]

theorem resize_allows (h : t.WF) {lines columns : Nat} (hl : 1 ≤ lines) (hc : 2 ≤ columns) :
    Allows (t.resize lines columns) fun t' =>
      t' = t ∧ t.grid.columns = columns ∨ Resized lines columns t t' := by
  unfold resize
  simp only
  split
  · next hsize => exact .pure (.inl ⟨rfl, hsize.1⟩)
  · intro t' ht'
    simp only [Option.bind_eq_bind, Option.bind_eq_some_iff, Option.some.injEq] at ht'
    obtain ⟨g, hg, i, hi, rfl⟩ := ht'
    have hcpos : 1 ≤ columns := Nat.le_trans (by decide) hc
    obtain ⟨hgwf, hglines, hgcolumns, -⟩ := (Grid.resize_returns _ h.grid hl hcpos).2 g hg
    obtain ⟨hiwf, hilines, hicolumns, -⟩ := (Grid.resize_returns _ h.inactiveGrid hl hcpos).2 i hi
    have hhome : Grid.InScreen lines columns (default : Point) :=
      ⟨Int.le_refl 0, Int.ofNat_lt.mpr hl, hcpos⟩
    right
    split
    · refine ⟨⟨hgwf, hiwf, hilines.trans hglines.symm, hicolumns.trans hgcolumns.symm, ?_,
        ⟨Int.le_refl 0, Int.natCast_nonneg _, Int.le_refl _⟩, ?_, ?_, ?_, ?_⟩, rfl, hg, hi, ⟨_, rfl⟩,
        Nat.min_le_right _ _⟩
      · exact hgcolumns ▸ hc
      · exact Int.ofNat_le.mpr hgwf.lines_pos
      · exact (length_resizeTabStops _ _).trans hgcolumns.symm
      · exact (length_undamagedLines _ _).trans hglines.symm
      · rw [hglines, hgcolumns]
        exact hhome
    · next hsame =>
        refine ⟨⟨hgwf, hiwf, hilines.trans hglines.symm, hicolumns.trans hgcolumns.symm, ?_,
          ⟨Int.le_refl 0, Int.natCast_nonneg _, Int.le_refl _⟩, ?_, ?_, ?_, ?_⟩, rfl, hg, hi, ⟨_, rfl⟩,
          Nat.min_le_right _ _⟩
        · exact hgcolumns ▸ hc
        · exact Int.ofNat_le.mpr hgwf.lines_pos
        · have heq : t.grid.columns = columns := not_not.mp hsame
          exact h.tabs.trans (heq.trans hgcolumns.symm)
        · exact (length_undamagedLines _ _).trans hglines.symm
        · rw [hglines, hgcolumns]
          exact hhome

end Term
end Velacritty
