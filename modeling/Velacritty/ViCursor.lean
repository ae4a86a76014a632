import Velacritty.TermSteps
import Velacritty.ViMotions

/-! The vi mode cursor stays on existing lines, no higher than the viewport, and what
breaks that. -/
namespace Velacritty
open Fallible

namespace Grid
variable {g g' : Grid Cell}

theorem pinViewport_pinned (g : Grid Cell) (positions : Nat) :
    (g.pinViewport positions).displayOffset = 0 ∧ g.displayOffset = 0 ∨
      (g.pinViewport positions).displayOffset = min (g.displayOffset + positions) g.maxScrollLimit := by
  unfold pinViewport
  split
  · exact .inr rfl
  · next h =>
      obtain ⟨hzero, -⟩ := not_or.mp h
      exact .inl ⟨not_not.mp hzero, not_not.mp hzero⟩

end Grid

namespace Term
variable {t t' a : Term} {S : Point → Prop} {env : Env}

/-- The point is an existing cell at or below the top of the viewport. -/
structure InView (t : Term) (p : Point) : Prop where
  existing : t.topmostLine ≤ p.line
  top : -(t.grid.displayOffset : Int) ≤ p.line
  line : p.line < t.grid.lines
  column : p.column < t.grid.columns

/-- In vi mode, its cursor is an existing cell no higher than the viewport. -/
def ViOk (t : Term) : Prop := t.mode.vi = true → t.InView t.viModeCursor

theorem InView.inGrid {p : Point} (hp : t.InView p) : t.InGrid p :=
  ⟨hp.existing, Int.le_sub_one_of_lt hp.line, hp.column⟩

theorem InView.still {p : Point} (hp : t.InView p) (hlines : t'.grid.lines = t.grid.lines)
    (hcolumns : t'.grid.columns = t.grid.columns)
    (hoffset : t'.grid.displayOffset = t.grid.displayOffset) (hlen : t'.grid.raw.len = t.grid.raw.len) :
    t'.InView p := by
  obtain ⟨hexisting, htop, hline, hcolumn⟩ := hp
  refine ⟨?_, hoffset ▸ htop, hlines ▸ hline, hcolumns ▸ hcolumn⟩
  rw [topmostLine_eq] at hexisting ⊢
  rwa [hlen, hlines]

theorem InView.of_grid {p : Point} (h : t.InView p) (hgrid : t'.grid = t.grid) : t'.InView p :=
  h.still (hgrid ▸ rfl) (hgrid ▸ rfl) (hgrid ▸ rfl) (hgrid ▸ rfl)

theorem ViOk.still (h : t.ViOk) (hlines : t'.grid.lines = t.grid.lines)
    (hcolumns : t'.grid.columns = t.grid.columns)
    (hoffset : t'.grid.displayOffset = t.grid.displayOffset) (hlen : t'.grid.raw.len = t.grid.raw.len)
    (hvi : t'.mode.vi = t.mode.vi) (hcursor : t'.viModeCursor = t.viModeCursor) : t'.ViOk := by
  intro hmode
  rw [hcursor]
  exact (h (hvi ▸ hmode)).still hlines hcolumns hoffset hlen

theorem Edited.viOk (h : Edited S t t') (hp : t.ViOk) : t'.ViOk :=
  hp.still h.lines h.columns h.displayOffset h.len (by rw [h.mode]) h.viModeCursor

theorem Quiet.viOk (h : t.Quiet t') (hp : t.ViOk) : t'.ViOk := by
  have hgrid := h.grid
  exact hp.still (congrArg Grid.lines hgrid :) (congrArg Grid.columns hgrid :)
    (congrArg Grid.displayOffset hgrid :) (congrArg (fun g => g.raw.len) hgrid :) h.vi h.viModeCursor

/-- Lines that scroll into the history take the vi mode cursor along, no further than the
viewport. -/
theorem ScrolledUp.viOk {origin : Int} {lines : Nat} (h : ScrolledUp origin lines t t') (ht : t.WF)
    (hlo : 0 ≤ origin) (hhi : origin ≤ t.regionEnd) (hp : t.ViOk) : t'.ViOk := by
  obtain ⟨hwf, hsame, hlen, hoff⟩ := (Grid.scrollUp_returns ht.grid (ht.inRegion hlo hhi)
    fun _ => scrollSize_le ht lines).of_eq h.grid
  intro hvi
  have hmode : t'.mode = t.mode := (congrArg Term.mode h.rest :)
  obtain ⟨hexisting, htop, hline, hcolumn⟩ := hp (hmode ▸ hvi)
  have hmax := ht.grid.history_le
  have hlines := hsame.lines
  have hle := ht.grid.lines_le
  have hstop := ht.region.stop_le
  have hpin := t.grid.pinViewport_pinned (t.scrollSize lines)
  rw [topmostLine_eq] at hexisting
  rw [h.viModeCursor]
  refine ⟨?_, ?_, ?_, ?_⟩
  · simp only [topmostLine_eq, scrolledUpLine, hlen, hoff, hlines]
    by_cases horigin : origin = 0
    · simp only [horigin, if_true, Grid.ScrollsAll, ne_eq, not_true_eq_false, and_false, if_false]
      split <;> omega
    · simp only [if_neg horigin]
      split <;> omega
  · simp only [scrolledUpLine, hoff]
    by_cases horigin : origin = 0
    · simp only [horigin, if_true, Grid.ScrollsAll, ne_eq, not_true_eq_false, and_false, if_false]
      split <;> omega
    · simp only [if_neg horigin]
      split <;> split <;> omega
  · simp only [scrolledUpLine, hlines]
    split <;> split <;> omega
  · rw [hsame.columns]
    exact hcolumn

theorem ScrolledDown.viOk {origin : Int} (h : ScrolledDown origin t t') (ht : t.WF) (hp : t.ViOk) :
    t'.ViOk := by
  have hstop := ht.region.stop_le
  intro hvi
  have hmode : t'.mode = t.mode := (congrArg Term.mode h.rest :)
  obtain ⟨hexisting, htop, hline, hcolumn⟩ := hp (hmode ▸ hvi)
  rw [topmostLine_eq] at hexisting
  refine ⟨?_, ?_, ?_, ?_⟩
  · rw [topmostLine_eq, h.same.len, h.same.lines]
    rcases h.line with heq | ⟨-, hle, -⟩ <;> omega
  · rw [h.same.displayOffset]
    rcases h.line with heq | ⟨-, hle, -⟩ <;> omega
  · rw [h.same.lines]
    rcases h.line with heq | ⟨-, -, hlt⟩ <;> omega
  · rw [h.same.columns, h.column]
    exact hcolumn

theorem Cleared.viOk (h : Cleared t t') (ht : t.WF) (hp : t.ViOk) : t'.ViOk := by
  cases h with
  | redone h => exact h.toEdited.viOk hp
  | viewport h hcursor =>
      obtain ⟨-, -, positions, -, hlen, hoff⟩ := (Grid.clearViewport_returns ht.grid).of_eq h.grid
      intro hvi
      have hmode : t'.mode = t.mode := (congrArg Term.mode h.rest :)
      obtain ⟨hexisting, htop, hline, hcolumn⟩ := hp (hmode ▸ hvi)
      have hpos := ht.grid.lines_pos
      have hmax := ht.grid.history_le
      have hle := ht.grid.lines_le
      have hpin := t.grid.pinViewport_pinned positions
      have hlines := h.same.lines
      have hbottom : t'.dims.bottommostLine = (t'.grid.lines : Int) - 1 := rfl
      have htopmost : t'.dims.topmostLine = -((t'.grid.raw.len - t'.grid.lines : Nat) : Int) := rfl
      rw [topmostLine_eq] at hexisting
      rw [hcursor]
      refine ⟨?_, ?_, ?_, ?_⟩
      · simp only [topmostLine_eq, lineGridClamp, hbottom, htopmost]
        omega
      · simp only [lineGridClamp, hbottom, htopmost]
        omega
      · simp only [lineGridClamp, hbottom, htopmost]
        omega
      · rw [h.same.columns]
        exact hcolumn
  | history h hcursor =>
      have hpos := ht.grid.lines_pos
      have hlines := h.same.lines
      intro hvi
      have hmode : t'.mode = t.mode := (congrArg Term.mode h.rest :)
      obtain ⟨-, -, -, hcolumn⟩ := hp (hmode ▸ hvi)
      have hbottom : t'.dims.bottommostLine = (t'.grid.lines : Int) - 1 := rfl
      rw [hcursor]
      refine ⟨?_, ?_, ?_, ?_⟩
      · simp only [topmostLine_eq, lineGridClamp, hbottom]
        omega
      · simp only [lineGridClamp, hbottom]
        omega
      · simp only [lineGridClamp, hbottom]
        omega
      · rw [h.same.columns]
        exact hcolumn

/-! ### Printing and feeding lines -/

theorem Linefed.viOk (h : Linefed t t') (ht : t.WF) (hp : t.ViOk) : t'.ViOk := by
  cases h with
  | scrolled _ h => exact h.viOk ht ht.region.start_nonneg ht.region.start_le hp
  | moved _ h _ => exact h.toEdited.viOk hp
  | stuck _ _ h => exact h ▸ hp

theorem Wrapped.viOk (h : Wrapped t t') (ht : t.WF) (hp : t.ViOk) : t'.ViOk := by
  cases h with
  | off _ h => exact h ▸ hp
  | @scrolled a b _ _ ha hb h _ =>
      have hawf := ha.toEdited.wf ht
      have hle : t.regionStart ≤ a.regionEnd := ha.toEdited.regionEnd ▸ ht.region.start_le
      exact h.viOk (hb.viOk hawf ht.region.start_nonneg hle (ha.toEdited.viOk hp))
  | moved _ _ h _ _ _ => exact h.viOk hp
  | stuck _ _ _ h _ _ _ => exact h.viOk hp

theorem Inputted.viOk {c : Char} (h : Inputted env c t t') (ht : t.WF) (hp : t.ViOk) : t'.ViOk := by
  cases h with
  | ignored _ h => exact h ▸ hp
  | joined _ _ h _ => exact h.toEdited.viOk hp
  | @printed width a b _ _ ha hb h =>
      have hap : a.WF ∧ a.ViOk := by
        rcases ha with ⟨-, rfl⟩ | ⟨-, ha⟩
        · exact ⟨ht, hp⟩
        · exact ⟨ha.wf ht, ha.viOk ht hp⟩
      have hbp : b.WF ∧ b.ViOk := by
        rcases hb with rfl | ⟨-, hb⟩
        · exact hap
        · exact ⟨hb.toEdited.wf hap.1, hb.toEdited.viOk hap.2⟩
      cases h with
      | swept _ h => exact h.edited.viOk hbp.2
      | dropped _ _ h => exact h ▸ hbp.2.still rfl rfl rfl rfl rfl rfl
      | wrapped _ _ hd _ _ _ _ _ _ he h =>
          exact h.edited.viOk (he.viOk (hd.wf hbp.1) (hd.viOk hbp.2))

end Term

/-! ### Steps -/

namespace TermOp

/-- A swap shows the other screen as it was scrolled last, with its own history: the vi
mode cursor has to be no higher. -/
def SwapSafe (t : Term) : Prop :=
  t.mode.vi = true → -(min t.inactiveGrid.displayOffset t.inactiveGrid.historySize : Nat) ≤
    t.viModeCursor.line

/-- Where an operation leaves the vi mode cursor on an existing cell that is no higher
than the viewport. -/
def ViSafe (t : Term) : TermOp → Prop
  | handler (.setPrivateMode (.named .swapScreenAndSetRestoreCursor)) =>
      t.mode.altScreen = false → SwapSafe t
  | handler (.unsetPrivateMode (.named .swapScreenAndSetRestoreCursor)) =>
      t.mode.altScreen = true → SwapSafe t
  | swapAlt => SwapSafe t
  | setOptions options => t.mode.vi = true → t.mode.altScreen = false →
      -(min t.grid.displayOffset options.scrollingHistory : Nat) ≤ t.viModeCursor.line
  | viMotion .right => t.mode.vi = true → t.RightSafe t.viModeCursor
  -- A viewport above the history is only looked at by these.
  | resize _ _ => t.mode.vi = true → t.grid.OffsetBounded
  | scrollDisplay .pageDown => t.mode.vi = true →
      t.grid.displayOffset < t.grid.historySize + 2 * t.screenLines
  | toggleViMode => t.mode.vi = false →
      t.bottommostLine - t.grid.displayOffset < t.grid.cursor.point.line → t.grid.OffsetBounded
  | _ => True

end TermOp

namespace Term
variable {t t' a : Term} {env : Env}

theorem Regioned.viOk {top : Nat} {bottom : Option Nat} (h : Regioned top bottom t t') (hp : t.ViOk) : t'.ViOk := by
  cases h with
  | invalid _ h => exact h ▸ hp
  | home _ _ _ _ _ _ h _ => exact h.toEdited.viOk (hp.still rfl rfl rfl rfl rfl rfl)

theorem Restarted.viOk (h : Restarted t t') : t'.ViOk := by
  have hpos := h.wf.grid.lines_pos
  intro _
  rw [h.viModeCursor]
  refine ⟨?_, ?_, Int.ofNat_lt.mpr hpos, h.wf.grid.columns_pos⟩
  · rw [topmostLine_eq]
    exact Int.neg_nonpos_of_nonneg (Int.natCast_nonneg _)
  · rw [h.displayOffset]
    exact Int.le_refl 0

theorem Swapped.viOk (h : Swapped t t') (ht : t.WF) (hp : t.ViOk) (hsafe : TermOp.SwapSafe t) :
    t'.ViOk := by
  obtain ⟨hoffset, hlen, hlines, hcolumns⟩ :
      t'.grid.displayOffset = t.inactiveGrid.displayOffset ∧
        t'.grid.raw.len = t.inactiveGrid.raw.len ∧ t'.grid.lines = t.inactiveGrid.lines ∧
        t'.grid.columns = t.inactiveGrid.columns := by
    cases halt : t.mode.altScreen with
    | true =>
        obtain ⟨hgrid, -⟩ := h.toPrimary halt
        rw [hgrid]
        exact ⟨rfl, rfl, rfl, rfl⟩
    | false =>
        obtain ⟨hsame, -⟩ := h.toAlternate halt
        exact ⟨hsame.displayOffset, hsame.len, hsame.lines, hsame.columns⟩
  intro hvi
  have hmode := h.vi ▸ hvi
  obtain ⟨-, -, hline, hcolumn⟩ := hp hmode
  have hview := hsafe hmode
  simp only [Grid.historySize_eq] at hview
  rw [h.viModeCursor]
  refine ⟨?_, ?_, ?_, ?_⟩
  · rw [topmostLine_eq, hlen, hlines]
    omega
  · rw [hoffset]
    omega
  · rw [hlines, ht.inactive_lines]
    exact hline
  · rw [hcolumns, ht.inactive_columns]
    exact hcolumn

theorem Stepped.viOk {op : HandlerOp} (h : Stepped env t t' op) (ht : t.WF) (hp : t.ViOk)
    (hsafe : TermOp.ViSafe t (.handler op)) : t'.ViOk := by
  cases h with
  | same h => exact h ▸ hp
  | quiet h => exact h.viOk hp
  | inputted h => exact h.viOk ht hp
  | freed ha h _ => exact h.toEdited.viOk (ha.viOk hp)
  | raised h _ _ => exact h.toEdited.viOk hp
  | wrapped _ h => exact h.viOk ht hp
  | tabbed _ h => exact h.edited.viOk hp
  | tabbedBack _ h _ _ => exact h.toEdited.viOk hp
  | tabbedForward _ h _ _ _ => exact h.toEdited.viOk hp
  | linefed _ h => exact h.viOk ht hp
  | newline ha h _ => exact h.toEdited.viOk (ha.viOk ht hp)
  | scrolledUp h => exact h.viOk ht ht.region.start_nonneg ht.region.start_le hp
  | scrolledDown _ h => exact h.viOk ht hp
  | deletedLines hlo hhi h =>
      exact h.viOk ht ht.grid.cursor.line_nonneg (Int.le_of_lt hhi) hp
  | redrawn h =>
      obtain ⟨S, h, -⟩ := h
      exact h.toEdited.viOk hp
  | redone h => exact h.toEdited.viOk hp
  | saved h => exact h ▸ hp.still rfl rfl rfl rfl rfl rfl
  | restored h _ => exact h.toEdited.viOk hp
  | cleared h => exact h.viOk ht hp
  | restarted h => exact h.viOk
  | regioned h => exact h.viOk hp
  | regionedRedone ha h => exact h.toEdited.viOk (ha.viOk hp)
  | swapped hop h =>
      rcases hop with ⟨rfl, halt⟩ | ⟨rfl, halt⟩
      · exact h.viOk ht hp (hsafe halt)
      · exact h.viOk ht hp (hsafe halt)

theorem Resized.viOk {lines columns : Nat} (h : Resized lines columns t t') (ht : t.WF)
    (hl : 1 ≤ lines) (hc : 2 ≤ columns) (hsafe : TermOp.ViSafe t (.resize lines columns)) : t'.ViOk := by
  have hcpos : 1 ≤ columns := Nat.le_of_succ_le hc
  have hpos := h.wf.grid.lines_pos
  have hcolpos := h.wf.grid.columns_pos
  have hbottom := bottommostLine_eq t'
  have hlast := lastColumn_eq t'
  intro hvi
  have hbound := ((Grid.resize_returns _ ht.grid hl hcpos).2 _ h.grid).2.2.2.2 (hsafe (h.vi ▸ hvi))
  have htopmost : t'.topmostLine = -(t'.grid.historySize : Int) := rfl
  simp only [Grid.OffsetBounded] at hbound
  obtain ⟨line, hline⟩ := h.line
  have hcolumn := h.column
  exact ⟨by omega, by omega, by omega, by omega⟩

theorem Configured.viOk {options : Config} (h : Configured options t t') (ht : t.WF) (hp : t.ViOk)
    (hsafe : TermOp.ViSafe t (.setOptions options)) : t'.ViOk := by
  intro hvi
  have hmode := h.vi ▸ hvi
  have hview := hp hmode
  rw [h.viModeCursor]
  cases halt : t.mode.altScreen with
  | true => exact hview.of_grid (h.alternate halt).1
  | false =>
      obtain ⟨-, hupdate⟩ := h.primary halt
      obtain ⟨-, hlines, hcolumns, hhist, hoff, -⟩ :=
        (Grid.updateHistory_returns ht.grid _).of_eq hupdate
      obtain ⟨hexisting, -, hline, hcolumn⟩ := hview
      have hlow := hsafe hmode halt
      have htopmost : t.topmostLine = -(t.grid.historySize : Int) := rfl
      have htopmost' : t'.topmostLine = -(t'.grid.historySize : Int) := rfl
      exact ⟨by omega, by omega, hlines ▸ hline, hcolumns ▸ hcolumn⟩

/-! ### The view -/

theorem viModeRecomputeSelection_same (t : Term) :
    t.viModeRecomputeSelection.grid = t.grid ∧ t.viModeRecomputeSelection.mode = t.mode ∧
      t.viModeRecomputeSelection.viModeCursor = t.viModeCursor := by
  unfold viModeRecomputeSelection
  split <;> exact ⟨rfl, rfl, rfl⟩

theorem scrollDisplay_same (t : Term) (scroll : Scroll) :
    (t.scrollDisplay scroll).grid = t.grid.scrollDisplay scroll ∧
      (t.scrollDisplay scroll).mode = t.mode ∧
      (t.scrollDisplay scroll).viModeCursor = { t.viModeCursor with
        line := min (-((t.grid.scrollDisplay scroll).displayOffset : Int) + t.bottommostLine)
          (max (-((t.grid.scrollDisplay scroll).displayOffset : Int)) t.viModeCursor.line) } := by
  simp only [scrollDisplay]
  split
  · simp only [markFullyDamaged, viModeRecomputeSelection_same]
    exact ⟨rfl, rfl, rfl⟩
  · simp only [viModeRecomputeSelection_same]
    exact ⟨rfl, rfl, rfl⟩

theorem scrollDisplay_viOk (ht : t.WF) (hp : t.ViOk) {scroll : Scroll}
    (hsafe : TermOp.ViSafe t (.scrollDisplay scroll)) : (t.scrollDisplay scroll).ViOk := by
  obtain ⟨hgrid, hmode, hcursor⟩ := t.scrollDisplay_same scroll
  intro hvi
  rw [hmode] at hvi
  obtain ⟨hexisting, htop, hline, hcolumn⟩ := hp hvi
  have hpos := ht.grid.lines_pos
  have hbottom := bottommostLine_eq t
  have hscreen : t.screenLines = t.grid.lines := rfl
  have hlines : (t.grid.scrollDisplay scroll).lines = t.grid.lines := rfl
  have hcolumns : (t.grid.scrollDisplay scroll).columns = t.grid.columns := rfl
  have htopmost : t.topmostLine = -(t.grid.historySize : Int) := rfl
  have htopmost' : (t.scrollDisplay scroll).topmostLine = -(t.grid.historySize : Int) := by
    rw [topmostLine_eq, hgrid]
    rfl
  rw [hcursor]
  refine ⟨?_, ?_, ?_, ?_⟩
  · rw [htopmost']
    cases scroll with
    | pageDown =>
        have hdown := hsafe hvi
        simp only [Grid.scrollDisplay]
        omega
    | _ =>
        simp only [Grid.scrollDisplay]
        omega
  · simp only [hgrid]
    omega
  · simp only [hgrid, hlines]
    omega
  · simp only [hgrid, hcolumns]
    exact hcolumn

theorem toggleViMode_viOk (ht : t.WF) (hsafe : TermOp.ViSafe t .toggleViMode) : t.toggleViMode.ViOk := by
  intro hmode
  obtain ⟨hlo, hhi, hcolumn⟩ := ht.grid.cursor
  have hpos := ht.grid.lines_pos
  cases hvi : t.mode.vi with
  | true => simp [toggleViMode, hvi, sendEvent] at hmode
  | false =>
      simp only [toggleViMode, hvi, Bool.not_false, if_true]
      have htopmost : t.topmostLine = -(t.grid.historySize : Int) := rfl
      split
      · next hbelow =>
          have hbound := hsafe hvi hbelow
          simp only [Grid.OffsetBounded] at hbound
          refine ⟨?_, Int.le_refl _, by simp only [sendEvent]; omega, ht.grid.columns_pos⟩
          exact Int.neg_le_neg (Int.ofNat_le.mpr hbound)
      · refine ⟨?_, by simp only [sendEvent]; omega, hhi, hcolumn⟩
        exact Int.le_trans (htopmost ▸ topmostLine_le_zero ht.grid) hlo

theorem scrollToPoint_inView (ht : t.WF) {p : Point} (hp : t.InGrid p) : (t.scrollToPoint p).InView p := by
  obtain ⟨hlo, hhi, hcolumn⟩ := hp
  have htop : t.topmostLine = -(t.grid.historySize : Int) := rfl
  have hbottom := bottommostLine_eq t
  have hpos := ht.grid.lines_pos
  have hlines : (t.screenLines : Int) = t.grid.lines := rfl
  have hline : p.line < t.grid.lines := by omega
  have hsame (scroll : Scroll) : (t.scrollDisplay scroll).topmostLine = t.topmostLine := by
    rw [topmostLine_eq, (t.scrollDisplay_same scroll).1]
    rfl
  simp only [scrollToPoint]
  split
  · next habove =>
      obtain ⟨hgrid, -, -⟩ := t.scrollDisplay_same (.delta (-(p.line + t.grid.displayOffset)))
      refine ⟨(hsame _).symm ▸ hlo, ?_, hgrid ▸ hline, hgrid ▸ hcolumn⟩
      rw [hgrid]
      simp only [Grid.scrollDisplay]
      omega
  · next habove =>
      split
      · next hbelow =>
          obtain ⟨hgrid, -, -⟩ := t.scrollDisplay_same
            (.delta (-(p.line + t.grid.displayOffset - t.screenLines + 1)))
          refine ⟨(hsame _).symm ▸ hlo, ?_, hgrid ▸ hline, hgrid ▸ hcolumn⟩
          rw [hgrid]
          simp only [Grid.scrollDisplay]
          omega
      · exact ⟨hlo, Int.not_lt.mp habove, hline, hcolumn⟩

theorem viGotoPoint_viOk (ht : t.WF) {p : Point} (hpoint : t.InGrid p) : (t.viGotoPoint p).ViOk := by
  intro _
  obtain ⟨hgrid, -, hcursor⟩ :=
    viModeRecomputeSelection_same { t.scrollToPoint p with viModeCursor := p }
  rw [viGotoPoint, hcursor]
  exact (scrollToPoint_inView ht hpoint).of_grid hgrid

theorem viMotion_viOk (ht : t.WF) (hp : t.ViOk) {motion : ViMotion}
    (hsafe : TermOp.ViSafe t (.viMotion motion)) : Allows (t.viMotion motion) ViOk := by
  unfold viMotion
  split
  · next hvi =>
      refine (motionTarget_inGrid ht (hp hvi).inGrid ?_).bind fun p hpoint =>
        .pure (viGotoPoint_viOk ht hpoint)
      rintro rfl
      exact hsafe hvi
  · exact .pure hp

theorem Collected.viOk {r : Term × TermDamage} (h : Collected t r) (hp : t.ViOk) : r.1.ViOk := by
  rw [h.rest]
  exact hp.still rfl rfl rfl rfl rfl rfl

theorem step_viOk (ht : t.WF) (hp : t.ViOk) {op : TermOp} (hop : op.Admissible t)
    (hsafe : op.ViSafe t) : Allows (op.step env t) ViOk := by
  cases op with
  | handler op => exact (HandlerOp.step_stepped env ht hop).mono fun _ h => h.viOk ht hp hsafe
  | resize lines columns =>
      refine (resize_allows ht hop.1 hop.2).mono fun t' h => ?_
      rcases h with ⟨rfl, -⟩ | h
      · exact hp
      · exact h.viOk ht hop.1 hop.2 hsafe
  | setOptions options => exact (setOptions_returns ht options).allows.mono fun _ h => h.viOk ht hp hsafe
  | swapAlt => exact (swapAlt_returns ht).allows.mono fun _ h => h.viOk ht hp hsafe
  | scrollDisplay scroll => exact .pure (scrollDisplay_viOk ht hp hsafe)
  | toggleViMode => exact .pure (toggleViMode_viOk ht hsafe)
  | viMotion motion => exact viMotion_viOk ht hp hsafe
  | viGotoPoint point => exact .pure (viGotoPoint_viOk ht hop)
  | setAutoScrollEnabled enabled => exact .pure (hp.still rfl rfl rfl rfl rfl rfl)
  | setSelection selection => exact .pure (hp.still rfl rfl rfl rfl rfl rfl)
  | damage =>
      intro t' ht'
      obtain ⟨r, hr, rfl⟩ := Option.map_eq_some_iff.mp ht'
      exact ((damage_returns ht).of_eq hr).viOk hp
  | resetDamage => exact .pure (hp.still rfl rfl rfl rfl rfl rfl)

/-- In every run of safe steps, the cursor of the vi mode is an existing cell, and no higher
than the viewport. -/
theorem run_viOk {config : Config} {lines columns : Nat} (hl : 1 ≤ lines) (hc : 2 ≤ columns)
    (h : Reaches (TermOp.step env) (fun t op => op.Admissible t ∧ op.ViSafe t)
      (new config lines columns) t) (hvi : t.mode.vi = true) :
    t.topmostLine ≤ t.viModeCursor.line ∧ -(t.grid.displayOffset : Int) ≤ t.viModeCursor.line ∧
      t.viModeCursor.column < t.columns ∧ (t.grid.cellAt t.viModeCursor).isSome ∧
      (pointToViewport t.grid.displayOffset t.viModeCursor).isSome := by
  have hinv : t.WF ∧ t.ViOk := by
    refine h.invariant (P := fun t => t.WF ∧ t.ViOk)
      ⟨new_wf config hl hc, fun hmode => nomatch hmode⟩ fun s op s' hs hop hstep => ?_
    exact ⟨(TermOp.step_stepped env hs.1 hop.1 _ hstep).wf hs.1, step_viOk hs.1 hs.2 hop.1 hop.2 _ hstep⟩
  obtain ⟨hexisting, htop, hline, hcolumn⟩ := hinv.2 hvi
  obtain ⟨cell, hcell, -⟩ := Grid.cellAt_returns hinv.1.grid hexisting hline hcolumn
  refine ⟨hexisting, htop, hcolumn, ?_, ?_⟩
  · rw [hcell]
    rfl
  · simp only [pointToViewport,
      toUsize_of_nonneg (show 0 ≤ t.viModeCursor.line + t.grid.displayOffset by omega)]
    rfl

/-- Moving up into a history that a narrowed line left. -/
theorem run_viOk_up : ∃ t : Term,
    Reaches (TermOp.step .ascii) (fun t op => op.Admissible t ∧ op.ViSafe t) (new .initial 1 3) t ∧
      t.viModeCursor.line = -1 ∧ (t.grid.cellAt t.viModeCursor).isSome := by
  have hrun : Reaches (TermOp.step .ascii) (fun t op => op.Admissible t ∧ op.ViSafe t)
      (new .initial 1 3) _ :=
    .step (.step (.step (.step (.step (.step .refl
      (a := .handler (.input 'a')) (And.intro trivial trivial) rfl)
      (a := .handler (.input 'b')) (And.intro trivial trivial) rfl)
      (a := .handler (.input 'c')) (And.intro trivial trivial) rfl)
      (a := .resize 1 2) (And.intro ⟨Nat.le_refl 1, Nat.le_refl 2⟩ fun hvi => nomatch hvi) rfl)
      (a := .toggleViMode) (And.intro trivial fun _ _ => .of_zero rfl) rfl)
      (a := .viMotion .up) (And.intro trivial trivial) rfl
  obtain ⟨-, -, -, hcell, -⟩ := run_viOk (by decide) (by decide) hrun rfl
  exact ⟨_, hrun, rfl, hcell⟩

/-- Showing the alternate screen leaves a vi mode cursor in the history above the screen. -/
theorem viModeCursor_leaves_grid : ∃ t : Term, Reachable .ascii .initial 1 3 t ∧ t.mode.vi = true ∧
    t.viModeCursor.line < t.topmostLine ∧ t.grid.cellAt t.viModeCursor = none ∧
    pointToViewport t.grid.displayOffset t.viModeCursor = none := by
  have hrun : Reachable .ascii .initial 1 3 _ :=
    .step (.step (.step (.step (.step (.step (.step .refl
      (a := .handler (.input 'a')) trivial rfl)
      (a := .handler (.input 'b')) trivial rfl)
      (a := .handler (.input 'c')) trivial rfl)
      (a := .resize 1 2) (And.intro (Nat.le_refl 1) (Nat.le_refl 2)) rfl)
      (a := .toggleViMode) trivial rfl)
      (a := .viMotion .up) trivial rfl)
      (a := .swapAlt) trivial rfl
  exact ⟨_, hrun, rfl, by decide, rfl, rfl⟩

end Term
end Velacritty
