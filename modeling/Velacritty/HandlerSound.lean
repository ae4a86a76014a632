import Velacritty.TermSound

/-! What each handler does to a well-formed terminal, in terms of its effects. -/
namespace Velacritty
open Fallible

/-! ### Tab stops -/

theorem nextTabStop_returns {tabs : List Bool} {columns column : Nat} (ht : tabs.length = columns)
    (hc : column < columns) :
    Returns (nextTabStop tabs columns column) fun c => column ≤ c ∧ c < columns := by
  refine loop_returns (fun c => columns - 1 - c) (P := fun c => column ≤ c ∧ c < columns)
    ⟨Nat.le_refl _, hc⟩ (by omega) fun c hc' => ?_
  by_cases hlast : c + 1 = columns
  · rw [if_pos hlast]
    exact .pure hc'
  · rw [if_neg hlast, List.getElem?_eq_getElem (show c + 1 < tabs.length by omega)]
    refine .pure ?_
    cases tabs[c + 1]
    · exact ⟨⟨by omega, by omega⟩, by omega⟩
    · exact ⟨by omega, by omega⟩

theorem prevTabStop_returns {tabs : List Bool} {column : Nat} {i : Nat} (hi : i ≤ tabs.length)
    (hc : i ≤ column) :
    Returns (prevTabStop tabs column i) fun c =>
      c = column ∧ (∀ k < i, tabs[k]? ≠ some true) ∨ c < i ∧ tabs[c]? = some true := by
  induction i with
  | zero => exact .pure (.inl ⟨rfl, fun k hk => absurd hk (Nat.not_lt_zero k)⟩)
  | succ i ih =>
      simp only [prevTabStop, List.getElem?_eq_getElem (show i < tabs.length by omega),
        Option.bind_eq_bind, Option.bind_some]
      split
      · next hstop =>
          refine .pure (.inr ⟨Nat.lt_succ_self i, ?_⟩)
          rw [List.getElem?_eq_getElem (show i < tabs.length by omega), hstop]
      · next hstop =>
          refine (ih (by omega) (by omega)).mono fun c hc => ?_
          rcases hc with ⟨rfl, hnone⟩ | ⟨hlt, hc⟩
          · refine .inl ⟨rfl, fun k hk => ?_⟩
            rcases Nat.lt_succ_iff_lt_or_eq.mp hk with hk | rfl
            · exact hnone k hk
            · rw [List.getElem?_eq_getElem (show k < tabs.length by omega)]
              exact fun h => hstop (Option.some.inj h)
          · exact .inr ⟨Nat.lt_succ_of_lt hlt, hc⟩

/-! ### Row updates -/

namespace Row
variable {T : Type} {r : Row T} {columns : Nat}

theorem modifyRange_returns (h : r.WF columns) {start stop : Nat} (hle : start ≤ stop)
    (hstop : stop ≤ columns) (f : T → T) :
    Returns (r.modifyRange start stop f) fun r' => r'.WF columns ∧
      ∀ c, ¬ (start ≤ c ∧ c < stop) → r'.get c = r.get c := by
  obtain ⟨hlen, hocc⟩ := h
  have hdef : r.modifyRange start stop f = some ⟨r.inner.take start ++
      ((r.inner.drop start).take (stop - start)).map f ++ r.inner.drop stop, max r.occ stop⟩ :=
    if_pos ⟨hle, by omega⟩
  refine ⟨_, hdef, ⟨?_, ?_⟩, modifyRange_get hdef⟩ <;>
    simp only [len, List.length_append, List.length_map, List.length_take, List.length_drop] at * <;>
    omega

theorem touch_wf (h : r.WF columns) : r.touch.WF columns := ⟨h.len_eq, Nat.le_refl _⟩

theorem swapAll_returns (h : r.WF columns) {a b : Nat} {offsets : List Nat}
    (ho : ∀ o ∈ offsets, a + o < columns ∧ b + o < columns) :
    Returns (r.swapAll a b offsets) fun r' => r'.WF columns := by
  refine Returns.foldlM h fun s hs o hmem => ?_
  obtain ⟨ha, hb⟩ := ho o hmem
  have hlen := hs.len_eq
  unfold len at hlen
  unfold swap
  rw [List.getElem?_eq_getElem (show b + o < s.inner.length by omega),
    List.getElem?_eq_getElem (show a + o < s.inner.length by omega)]
  refine .pure ⟨?_, ?_⟩ <;> simp only [len, List.length_set] <;> omega

end Row

namespace Term
variable {t t' a b : Term} {S : Point → Prop}

theorem modifyRow_eq {line : Int} {f : Row Cell → Option (Row Cell)} (h : t.modifyRow line f = some t') :
    ∃ raw, t.grid.raw.modify line f = some raw ∧ t' = { t with grid.raw := raw } := by
  simp only [modifyRow, Option.bind_eq_bind, Option.bind_eq_some_iff, Option.some.injEq] at h
  obtain ⟨raw, hraw, h⟩ := h
  exact ⟨raw, hraw, h.symm⟩

theorem modifyCell_eq {p : Point} {f : Cell → Cell} (h : t.modifyCell p f = some t') :
    ∃ raw, t.grid.raw.modify p.line (fun row => row.modify p.column f) = some raw ∧
      t' = { t with grid.raw := raw } := by
  simp only [modifyCell, Grid.modifyCell, Option.bind_eq_bind, Option.bind_eq_some_iff,
    Option.some.injEq] at h
  obtain ⟨_, ⟨raw, hraw, rfl⟩, h⟩ := h
  exact ⟨raw, hraw, h.symm⟩

/-- Going back goes to a tab stop, if there is one to go to. -/
theorem backwardTabs_returns {tabs : List Bool} {count column : Nat} (hc : column < tabs.length) :
    Returns (backwardTabs tabs count column) fun c =>
      c = column ∧ (count = 0 ∨ ∀ k < column, tabs[k]? ≠ some true) ∨
        c < column ∧ count ≠ 0 ∧ tabs[c]? = some true := by
  induction count generalizing column with
  | zero => exact .pure (.inl ⟨rfl, .inl rfl⟩)
  | succ count ih =>
      rw [backwardTabs]
      split
      · next hzero => exact .pure (.inl ⟨rfl, .inr fun k hk => absurd (hzero ▸ hk) (Nat.not_lt_zero k)⟩)
      · refine (prevTabStop_returns (Nat.le_of_lt hc) (Nat.le_refl _)).bind fun c hc' => ?_
        have hlt : c < tabs.length := hc'.elim (fun h => h.1 ▸ hc) fun h => Nat.lt_trans h.1 hc
        refine (ih hlt).mono fun c' hc'' => ?_
        rcases hc' with ⟨rfl, hnone⟩ | ⟨hlt', hstop⟩
        · rcases hc'' with ⟨rfl, -⟩ | ⟨hlt', -, hstop⟩
          · exact .inl ⟨rfl, .inr hnone⟩
          · exact .inr ⟨hlt', Nat.succ_ne_zero _, hstop⟩
        · rcases hc'' with ⟨rfl, -⟩ | ⟨hlt'', -, hstop'⟩
          · exact .inr ⟨hlt', Nat.succ_ne_zero _, hstop⟩
          · exact .inr ⟨Nat.lt_trans hlt'' hlt', Nat.succ_ne_zero _, hstop'⟩

theorem forwardTabs_returns {tabs : List Bool} {columns count column : Nat}
    (ht : tabs.length = columns) (hc : column < columns) :
    Returns (forwardTabs tabs columns count column) fun c => column ≤ c ∧ c < columns := by
  induction count generalizing column with
  | zero => exact .pure ⟨Nat.le_refl _, hc⟩
  | succ count ih =>
      rw [forwardTabs]
      split
      · exact .pure ⟨Nat.le_refl _, hc⟩
      · refine (nextTabStop_returns ht hc).bind fun c hc' => ?_
        refine (ih hc'.2).mono fun c' hc'' => ?_
        exact ⟨Nat.le_trans hc'.1 hc''.1, hc''.2⟩

/-! ### Moving the cursor -/

theorem goto_returns (h : t.WF) (line : Int) (col : Nat) :
    Returns (t.goto line col) fun t' => Moved t t' ∧ t'.grid.cursor.inputNeedsWrap = false := by
  have hlines := h.grid.lines_pos
  have hcolumns := h.grid.columns_pos
  have hregion := h.region.stop_le
  have hpos := h.region_pos
  obtain ⟨yOffset, maxY, hyo, hmax⟩ : ∃ yOffset maxY : Int,
      (if t.mode.origin then (t.regionStart, t.regionEnd - 1) else (0, t.bottommostLine)) =
        (yOffset, maxY) ∧ maxY < t.grid.lines := by
    split
    · exact ⟨_, _, rfl, by omega⟩
    · exact ⟨_, _, rfl, by rw [bottommostLine_eq]; omega⟩
  simp only [goto, hyo]
  refine (damageCursor_returns h.damage h.grid.cursor).bind fun a ha => ?_
  have hedit := (ha.1.drawn h.grid (S := fun _ => False)).toEdited
  have hwf := hedit.wf h
  have hlast : a.lastColumn = t.grid.columns - 1 := by rw [lastColumn_eq, hedit.columns]
  have hc : Grid.InScreen a.grid.lines a.grid.columns
      ⟨max (min (line + yOffset) maxY) 0, min col a.lastColumn⟩ := by
    rw [hedit.lines, hedit.columns]
    exact ⟨Int.le_max_right _ _, by simp only; omega, by simp only; omega⟩
  generalize (max (min (line + yOffset) maxY) 0) = line' at hc ⊢
  generalize min col a.lastColumn = column' at hc ⊢
  refine (damageCursor_returns (t := a.setCursorPoint line' column') hwf.damage hc).bind
    fun b hb => .pure ?_
  have hmoved := moved_of_withCursor { a.grid.cursor with point := ⟨line', column'⟩ } hwf hc hb.1
    (hb.1.damage.marks _ (ha.1.grid ▸ ha.2)) hb.2
  have hboth : Moved t b := ⟨hedit.trans hmoved.toEdited, hb.1.damage.marks _ ha.2, hmoved.target⟩
  exact ⟨hboth.withNeedsWrap false, rfl⟩

theorem moveForward_returns (h : t.WF) (cols : Nat) :
    Returns (t.moveForward cols) fun t' => Moved t t' ∧ t'.grid.cursor.inputNeedsWrap = false := by
  have hlo := h.grid.cursor.line_nonneg
  have hhi := h.grid.cursor.line_lt
  have hcol := h.grid.cursor.column_lt
  have hlast := lastColumn_eq t
  refine (damageColumns_returns h.damage h.grid.cursor _ _).bind fun a ha => .pure ?_
  obtain ⟨ha, hmarks⟩ := ha
  have hmoved := ha.moved { a.grid.cursor with
      point.column := min (t.grid.cursor.point.column + cols) t.lastColumn } h ?_
    (hmarks t.grid.cursor.point.column (Nat.le_refl _) (by omega)) ?_
  · exact ⟨hmoved.withNeedsWrap false, rfl⟩
  · rw [ha.grid]
    exact ⟨hlo, hhi, by simp only; omega⟩
  · rw [ha.grid]
    exact hmarks _ (by omega) (Nat.le_refl _)

theorem moveBackward_returns (h : t.WF) (cols : Nat) :
    Returns (t.moveBackward cols) fun t' => Moved t t' ∧ t'.grid.cursor.inputNeedsWrap = false := by
  have hlo := h.grid.cursor.line_nonneg
  have hhi := h.grid.cursor.line_lt
  have hcol := h.grid.cursor.column_lt
  refine (damageColumns_returns h.damage h.grid.cursor _ _).bind fun a ha => .pure ?_
  obtain ⟨ha, hmarks⟩ := ha
  have hmoved := ha.moved { a.grid.cursor with
      point.column := t.grid.cursor.point.column - cols } h ?_
    (hmarks t.grid.cursor.point.column (by omega) (Nat.le_refl _)) ?_
  · exact ⟨hmoved.withNeedsWrap false, rfl⟩
  · rw [ha.grid]
    exact ⟨hlo, hhi, by simp only; omega⟩
  · rw [ha.grid]
    exact hmarks _ (Nat.le_refl _) (by omega)

theorem carriageReturn_returns (h : t.WF) :
    Returns t.carriageReturn fun t' => Moved t t' ∧
      t'.grid.cursor = { t.grid.cursor with point.column := 0, inputNeedsWrap := false } := by
  have hlo := h.grid.cursor.line_nonneg
  have hhi := h.grid.cursor.line_lt
  have hpos := h.grid.columns_pos
  refine (damageColumns_returns h.damage h.grid.cursor _ _).bind fun a ha => .pure ?_
  obtain ⟨ha, hmarks⟩ := ha
  have hmoved := ha.moved { a.grid.cursor with point.column := 0 } h ?_
    (hmarks _ (Nat.zero_le _) (Nat.le_refl _)) ?_
  · exact ⟨hmoved.withNeedsWrap false, by rw [← ha.grid]; rfl⟩
  · rw [ha.grid]
    exact ⟨hlo, hhi, hpos⟩
  · rw [ha.grid]
    exact hmarks _ (Nat.le_refl _) (Nat.zero_le _)

theorem backspace_returns (h : t.WF) :
    Returns t.backspace fun t' => t' = t ∨ Moved t t' ∧ t'.grid.cursor.inputNeedsWrap = false := by
  have hlo := h.grid.cursor.line_nonneg
  have hhi := h.grid.cursor.line_lt
  have hcol := h.grid.cursor.column_lt
  unfold backspace
  split
  · next hpos =>
      have hc : Grid.InScreen t.grid.lines t.grid.columns
          ⟨t.grid.cursor.point.line, t.grid.cursor.point.column - 1⟩ := ⟨hlo, hhi, by simp only; omega⟩
      refine (damageColumns_returns (t := t.withCursor { t.grid.cursor with
        point.column := t.grid.cursor.point.column - 1, inputNeedsWrap := false }) h.damage hc _ _).mono
          fun b hb => .inr ⟨?_, ?_⟩
      · exact moved_of_withCursor _ h hc hb.1
          (hb.2 t.grid.cursor.point.column (by omega) (Nat.le_refl _))
          (hb.2 (t.grid.cursor.point.column - 1) (Nat.le_refl _) (by omega))
      · rw [hb.1.grid]
        rfl
  · exact .pure (.inl rfl)

/-- Tabs move to a column without touching a pending wrap. -/
theorem moveForwardTabs_returns (h : t.WF) (count : Nat) :
    Returns (t.moveForwardTabs count) fun t' => Moved t t' ∧
      ∃ column, t.grid.cursor.point.column ≤ column ∧ column < t.grid.columns ∧
        t'.grid.cursor = { t.grid.cursor with point.column := column } := by
  refine (forwardTabs_returns h.tabs h.grid.cursor.column_lt).bind fun column hcolumn => ?_
  obtain ⟨hle, hlt⟩ := hcolumn
  have hc : Grid.InScreen t.grid.lines t.grid.columns ⟨t.grid.cursor.point.line, column⟩ :=
    ⟨h.grid.cursor.line_nonneg, h.grid.cursor.line_lt, hlt⟩
  refine (damageColumns_returns (t := t.withCursor { t.grid.cursor with point.column := column })
    h.damage hc _ _).mono fun b hb => ⟨?_, column, hle, hlt, by rw [hb.1.grid]; rfl⟩
  exact moved_of_withCursor _ h hc hb.1 (hb.2 _ (Nat.le_refl _) hle) (hb.2 _ hle (Nat.le_refl _))

theorem moveBackwardTabs_returns (h : t.WF) (count : Nat) :
    Returns (t.moveBackwardTabs count) fun t' => Moved t t' ∧
      ∃ column, t'.grid.cursor = { t.grid.cursor with point.column := column } ∧
        (column = t.grid.cursor.point.column ∧
            (count = 0 ∨ ∀ k < t.grid.cursor.point.column, t.tabs[k]? ≠ some true) ∨
          column < t.grid.cursor.point.column ∧ count ≠ 0 ∧ t.tabs[column]? = some true) := by
  have hcol := h.grid.cursor.column_lt
  refine (backwardTabs_returns (h.tabs.symm ▸ hcol)).bind fun column hcolumn => ?_
  have hle : column ≤ t.grid.cursor.point.column :=
    hcolumn.elim (fun h => Nat.le_of_eq h.1) fun h => Nat.le_of_lt h.1
  have hc : Grid.InScreen t.grid.lines t.grid.columns ⟨t.grid.cursor.point.line, column⟩ :=
    ⟨h.grid.cursor.line_nonneg, h.grid.cursor.line_lt, Nat.lt_of_le_of_lt hle hcol⟩
  refine (damageColumns_returns (t := t.withCursor { t.grid.cursor with point.column := column })
    h.damage hc _ _).mono fun b hb => ⟨?_, column, by rw [hb.1.grid]; rfl, hcolumn⟩
  exact moved_of_withCursor _ h hc hb.1 (hb.2 _ hle (Nat.le_refl _)) (hb.2 _ (Nat.le_refl _) hle)

theorem restoreCursorPosition_returns (h : t.WF) :
    Returns t.restoreCursorPosition fun t' => Moved t t' ∧ t'.grid.cursor = t.grid.savedCursor := by
  have heq : t.restoreCursorPosition =
      t.damageCursor >>= fun a => (a.withCursor a.grid.savedCursor).damageCursor := rfl
  obtain ⟨a, ha, hda, -⟩ := damageCursor_returns h.damage h.grid.cursor
  obtain ⟨b, hb, hmoved, hgrid⟩ := damageBoth_returns _ h h.grid.savedCursor
  refine ⟨b, ?_, hmoved, by rw [hgrid]⟩
  rw [heq, ha, Option.bind_eq_bind, Option.bind_some]
  rw [ha, Option.bind_eq_bind, Option.bind_some] at hb
  rw [hda.grid]
  exact hb

/-! ### Scrolling -/

/-- How many lines a scroll by `lines` moves. -/
def scrollSize (t : Term) (lines : Nat) : Nat := min lines (t.regionEnd - t.regionStart).toNat

/-- Where scrolling up from `origin` leaves the vi mode cursor. -/
def scrolledUpLine (origin regionEnd : Int) (displayOffset lines : Nat) (line : Int) : Int :=
  let top := if origin = 0 then -(displayOffset : Int) else origin
  if top ≤ line ∧ line < regionEnd then max (line - lines) top else line

structure ScrolledUp (origin : Int) (lines : Nat) (t t' : Term) : Prop where
  rest : t' = { t with
    grid := t'.grid, viModeCursor := t'.viModeCursor, selection := t'.selection
    damageState := { t.damageState with full := true } }
  grid : t.grid.scrollUp origin t.regionEnd (t.scrollSize lines) = some t'.grid
  viModeCursor : t'.viModeCursor = { t.viModeCursor with
    line := scrolledUpLine origin t.regionEnd t'.grid.displayOffset (t.scrollSize lines)
      t.viModeCursor.line }
  same : t.grid.SameScreen t'.grid
  wf : t'.WF

theorem WF.inRegion (h : t.WF) {origin : Int} (hlo : 0 ≤ origin) (hhi : origin ≤ t.regionEnd) :
    Grid.InRegion t.grid.lines origin t.regionEnd := ⟨hlo, hhi, h.region.stop_le⟩

theorem scrollSize_le (h : t.WF) (lines : Nat) : (t.scrollSize lines : Int) ≤ t.regionEnd := by
  have hstart := h.region.start_nonneg
  have hle := h.region.start_le
  unfold scrollSize
  omega

/-- Another grid of the same size, and a full damage, keep the terminal well formed. -/
theorem WF.withGrid (h : t.WF) {g : Grid Cell} (hg : g.WF) (hsame : t.grid.SameScreen g)
    (ht : t' = { t with
      grid := g, viModeCursor := t'.viModeCursor, selection := t'.selection
      damageState := { t.damageState with full := true } }) : t'.WF := by
  rw [ht]
  refine ⟨hg, h.inactiveGrid, ?_, ?_, ?_, ?_, h.region_pos, ?_, ?_, ?_⟩ <;>
    simp only [hsame.lines, hsame.columns]
  · exact h.inactive_lines
  · exact h.inactive_columns
  · exact h.two_le
  · exact h.region
  · exact h.tabs
  · exact h.damage
  · exact h.lastCursor

theorem scrollUpRelative_returns (h : t.WF) {origin : Int} (hlo : 0 ≤ origin)
    (hhi : origin ≤ t.regionEnd) (lines : Nat) :
    Returns (t.scrollUpRelative origin lines) (ScrolledUp origin lines t) := by
  have hsize := scrollSize_le h lines
  have hle := h.region.start_le
  obtain ⟨g, hg, hwf, hsame, -⟩ := Grid.scrollUp_returns h.grid (h.inRegion hlo hhi)
    fun _ : origin = 0 => hsize
  simp only [scrollSize] at hg
  simp only [scrollUpRelative, toUsize_of_nonneg (show 0 ≤ t.regionEnd - t.regionStart by omega), hg,
    Option.bind_eq_bind, Option.bind_some]
  refine .pure ?_
  generalize htop : (if origin = 0 then -(g.displayOffset : Int) else origin) = top
  split
  · next hin =>
      refine ⟨rfl, hg, ?_, hsame, h.withGrid hwf hsame rfl⟩
      simp only [markFullyDamaged, scrolledUpLine, htop, if_pos hin]
      rfl
  · next hout =>
      refine ⟨rfl, hg, ?_, hsame, h.withGrid hwf hsame rfl⟩
      simp only [markFullyDamaged, scrolledUpLine, htop, if_neg hout]

theorem scrollUp_returns (h : t.WF) (lines : Nat) :
    Returns (t.scrollUp lines) (ScrolledUp t.regionStart lines t) :=
  scrollUpRelative_returns h h.region.start_nonneg h.region.start_le lines

/-- The lines from `origin` to the end of the scroll region moved down. -/
structure ScrolledDown (origin : Int) (t t' : Term) : Prop where
  rest : t' = { t with
    grid := t'.grid, viModeCursor := t'.viModeCursor, selection := t'.selection
    damageState := { t.damageState with full := true } }
  same : t.grid.SameSize t'.grid
  column : t'.viModeCursor.column = t.viModeCursor.column
  line : t'.viModeCursor.line = t.viModeCursor.line ∨
    origin ≤ t.viModeCursor.line ∧ t.viModeCursor.line ≤ t'.viModeCursor.line ∧
      t'.viModeCursor.line < t.regionEnd
  wf : t'.WF

theorem scrollDownRelative_returns (h : t.WF) {origin : Int} (hlo : 0 ≤ origin)
    (hhi : origin ≤ t.regionEnd) (lines : Nat) :
    Returns (t.scrollDownRelative origin lines) (ScrolledDown origin t) := by
  have hle := h.region.start_le
  simp only [scrollDownRelative, toUsize_of_nonneg (show 0 ≤ t.regionEnd - t.regionStart by omega),
    toUsize_of_nonneg (show 0 ≤ t.regionEnd - origin by omega), Option.bind_eq_bind, Option.bind_some]
  generalize min (min lines (t.regionEnd - t.regionStart).toNat) (t.regionEnd - origin).toNat = n
  split
  · next hin =>
      refine (Grid.scrollDown_returns h.grid (h.inRegion hlo hhi) n).bind fun g hg => .pure ?_
      exact ⟨rfl, hg, rfl, .inr ⟨hin.1, by simp only [markFullyDamaged]; omega,
        by simp only [markFullyDamaged]; omega⟩, h.withGrid hg.wf hg.toSameScreen rfl⟩
  · refine (Grid.scrollDown_returns h.grid (h.inRegion hlo hhi) n).bind fun g hg => .pure ?_
    exact ⟨rfl, hg, rfl, .inl rfl, h.withGrid hg.wf hg.toSameScreen rfl⟩

theorem scrollDown_returns (h : t.WF) (lines : Nat) :
    Returns (t.scrollDown lines) (ScrolledDown t.regionStart t) :=
  scrollDownRelative_returns h h.region.start_nonneg h.region.start_le lines

/-- A linefeed scrolls at the end of the region, stops at the bottom of the screen
outside of it, and else moves down. -/
inductive Linefed (t t' : Term) : Prop
  | scrolled (hline : t.grid.cursor.point.line + 1 = t.regionEnd)
      (h : ScrolledUp t.regionStart 1 t t')
  | moved (hline : t.grid.cursor.point.line + 1 ≠ t.regionEnd) (h : Moved t t')
      (hcursor : t'.grid.cursor = { t.grid.cursor with point.line := t.grid.cursor.point.line + 1 })
  | stuck (hline : t.grid.cursor.point.line + 1 ≠ t.regionEnd)
      (hbottom : t.grid.cursor.point.line + 1 = t.grid.lines) (h : t' = t)

theorem linefeed_returns (h : t.WF) : Returns t.linefeed (Linefed t) := by
  have hhi := h.grid.cursor.line_lt
  have hlo := h.grid.cursor.line_nonneg
  unfold linefeed
  simp only
  split
  · next hline => exact (scrollUp_returns h 1).mono fun t' ht' => .scrolled hline ht'
  · next hline =>
      split
      · next hlt =>
          have hc : Grid.InScreen t.grid.lines t.grid.columns
              ⟨t.grid.cursor.point.line + 1, t.grid.cursor.point.column⟩ :=
            ⟨by simp only; omega, hlt, h.grid.cursor.column_lt⟩
          obtain ⟨a, ha, hda, -⟩ := damageCursor_returns h.damage h.grid.cursor
          obtain ⟨b, hb, hmoved, hgrid⟩ := damageBoth_returns
            { t.grid.cursor with point.line := t.grid.cursor.point.line + 1 } h hc
          rw [ha, Option.bind_eq_bind, Option.bind_some] at hb ⊢
          refine ⟨b, ?_, .moved hline hmoved (by rw [hgrid])⟩
          rw [← hb, ← hda.grid]
          rfl
      · next hge =>
          have hlines : t.screenLines = t.grid.lines := rfl
          exact .pure (.stuck hline (by omega) rfl)

theorem reverseIndex_returns (h : t.WF) :
    Returns t.reverseIndex fun t' => ScrolledDown t.regionStart t t' ∨
      Moved t t' ∧ t'.grid.cursor.point.column = t.grid.cursor.point.column ∧
        t'.grid.cursor.inputNeedsWrap = t.grid.cursor.inputNeedsWrap := by
  have hhi := h.grid.cursor.line_lt
  have hlo := h.grid.cursor.line_nonneg
  unfold reverseIndex
  split
  · exact (scrollDown_returns h 1).mono fun t' ht' => .inl ht'
  · have hc : Grid.InScreen t.grid.lines t.grid.columns
        ⟨max (t.grid.cursor.point.line - 1) 0, t.grid.cursor.point.column⟩ :=
      ⟨Int.le_max_right _ _, by simp only; omega, h.grid.cursor.column_lt⟩
    obtain ⟨a, ha, hda, -⟩ := damageCursor_returns h.damage h.grid.cursor
    obtain ⟨b, hb, hmoved, hgrid⟩ := damageBoth_returns
      { t.grid.cursor with point.line := max (t.grid.cursor.point.line - 1) 0 } h hc
    rw [ha, Option.bind_eq_bind, Option.bind_some] at hb ⊢
    refine ⟨b, ?_, .inr ⟨hmoved, by rw [hgrid], by rw [hgrid]⟩⟩
    rw [← hb, ← hda.grid]
    rfl

/-! ### Editing a line -/

/-- Cells were drawn that the damage covers. -/
def Redrawn (t t' : Term) : Prop := ∃ S, Drawn S t t' ∧ ∀ p, S p → t'.damageState.Marks p

theorem redraw_returns (h : t.WF) (left right : Nat) (columns : Nat → Prop)
    (f : Row Cell → Option (Row Cell)) (hcols : ∀ c, columns c → c < t.grid.columns → left ≤ c ∧ c ≤ right)
    (hf : ∀ r, r.WF t.grid.columns → Returns (f r) fun r' => r'.WF t.grid.columns ∧
      ∀ c, ¬ columns c → r'.get c = r.get c) :
    Returns (t.damageColumns left right >>= fun a => a.modifyRow t.grid.cursor.point.line f)
      (Redrawn t) := by
  have htop := h.topmostLine_le
  have hlo := h.grid.cursor.line_nonneg
  refine (damageColumns_returns h.damage h.grid.cursor left right).bind fun a ha => ?_
  obtain ⟨ha, hmarks⟩ := ha
  have hdrawn := ha.drawn (S := fun p => p.line = t.grid.cursor.point.line ∧
    columns p.column ∧ p.column < t.grid.columns) h.grid
  have hwf := hdrawn.toEdited.wf h
  have hdims := hdrawn.toEdited.dims
  refine (modifyRow_returns hwf ?_ ?_ (fun c => columns c ∧ c < t.grid.columns) ?_).mono
    fun b hb => ⟨_, hdrawn.trans hb.1, ?_⟩
  · simp only [topmostLine] at htop ⊢
    rw [hdims]
    omega
  · rw [hdrawn.toEdited.lines]
    exact h.grid.cursor.line_lt
  · intro r hr
    rw [hdrawn.toEdited.columns] at hr ⊢
    refine (hf r hr).mono fun r' hr' => ⟨hr'.1, fun c hc => ?_⟩
    by_cases hlt : c < t.grid.columns
    · exact hr'.2 c fun hcol => hc ⟨hcol, hlt⟩
    · have hlen := hr.len_eq
      have hlen' := hr'.1.len_eq
      simp only [Row.get, Row.len] at *
      rw [List.getElem?_eq_none (by omega), List.getElem?_eq_none (by omega)]
  · rintro ⟨line, column⟩ ⟨hl, hc, hlt⟩
    obtain ⟨hleft, hright⟩ := hcols column hc hlt
    obtain rfl : line = t.grid.cursor.point.line := hl
    rw [hb.2]
    exact hmarks column hleft hright

theorem insertBlank_returns (h : t.WF) (count : Nat) : Returns (t.insertBlank count) (Redrawn t) := by
  have hcol := h.grid.cursor.column_lt
  have hcolumns : t.columns = t.grid.columns := rfl
  simp only [insertBlank, hcolumns, usub_of_le (Nat.le_of_lt hcol), Option.bind_eq_bind,
    Option.bind_some]
  generalize hn : min count (t.grid.columns - t.grid.cursor.point.column) = n
  obtain ⟨a, ha, hda, -⟩ :=
    damageColumns_returns h.damage h.grid.cursor 0 (t.grid.columns - 1)
  have hredraw := redraw_returns h 0 (t.grid.columns - 1) (fun _ => True)
    (fun row => do
      let row ← row.touch.swapAll t.grid.cursor.point.column (t.grid.cursor.point.column + n)
        (List.range (t.grid.columns - (t.grid.cursor.point.column + n))).reverse
      row.modifyRange t.grid.cursor.point.column (t.grid.cursor.point.column + n) fun _ => t.bgCell)
    (fun c _ hc => ⟨Nat.zero_le _, by omega⟩) fun r hr => ?_
  · simp only [ha, Option.bind_eq_bind, Option.bind_some, Term.columns, hda.grid] at hredraw ⊢
    exact hredraw
  · refine (Row.swapAll_returns (Row.touch_wf hr) fun o ho => ?_).bind fun r' hr' => ?_
    · rw [List.mem_reverse, List.mem_range] at ho
      omega
    · refine (Row.modifyRange_returns hr' (Nat.le_add_right _ _) (by omega) _).mono fun r'' hr'' => ?_
      exact ⟨hr''.1, fun c hc => absurd trivial hc⟩

theorem deleteChars_returns (h : t.WF) (count : Nat) : Returns (t.deleteChars count) (Redrawn t) := by
  have hcol := h.grid.cursor.column_lt
  simp only [deleteChars, Term.columns]
  generalize hn : min count t.grid.columns = n
  generalize hstop : min (t.grid.cursor.point.column + n) (t.grid.columns - 1) = stop
  obtain ⟨a, ha, hda, -⟩ :=
    damageColumns_returns h.damage h.grid.cursor 0 (t.grid.columns - 1)
  have hredraw := redraw_returns h 0 (t.grid.columns - 1) (fun _ => True)
    (fun row => do
      let row ← row.touch.swapAll stop t.grid.cursor.point.column (List.range (t.grid.columns - stop))
      row.modifyRange (t.grid.columns - n) t.grid.columns fun _ => t.bgCell)
    (fun c _ hc => ⟨Nat.zero_le _, by omega⟩) fun r hr => ?_
  · simp only [ha, Option.bind_eq_bind, Option.bind_some, hda.grid] at hredraw ⊢
    exact hredraw
  · refine (Row.swapAll_returns (Row.touch_wf hr) fun o ho => ?_).bind fun r' hr' => ?_
    · rw [List.mem_range] at ho
      omega
    · refine (Row.modifyRange_returns hr' (Nat.sub_le _ _) (Nat.le_refl _) _).mono fun r'' hr'' => ?_
      exact ⟨hr''.1, fun c hc => absurd trivial hc⟩

theorem eraseChars_returns (h : t.WF) (count : Nat) : Returns (t.eraseChars count) (Redrawn t) := by
  have hcol := h.grid.cursor.column_lt
  simp only [eraseChars, Term.columns]
  generalize hstop : min (t.grid.cursor.point.column + count) t.grid.columns = stop
  obtain ⟨a, ha, hda, -⟩ := damageColumns_returns h.damage h.grid.cursor t.grid.cursor.point.column stop
  have hredraw := redraw_returns h t.grid.cursor.point.column stop
    (fun c => t.grid.cursor.point.column ≤ c ∧ c < stop)
    (fun row => row.modifyRange t.grid.cursor.point.column stop fun _ => t.bgCell)
    (fun c hc _ => ⟨hc.1, Nat.le_of_lt hc.2⟩) fun r hr =>
      Row.modifyRange_returns hr (by omega) (by omega) _
  simp only [ha, Option.bind_eq_bind, Option.bind_some, hda.grid] at hredraw ⊢
  exact hredraw

theorem Redrawn.deselect (h : Redrawn t t') (top bottom : Option Int) :
    Redrawn t (t'.deselect top bottom) := by
  obtain ⟨S, ⟨⟨hrest, hgrid, hwf, hlen, hcells, hdamage⟩, hcursor⟩, hmarks⟩ := h
  refine ⟨S, ⟨⟨?_, hgrid, hwf, hlen, hcells, hdamage⟩, hcursor⟩, hmarks⟩
  rw [hrest]
  rfl

theorem clearColumns_returns (h : t.WF) {left right : Nat} (hlt : left < right)
    (hle : right ≤ t.grid.columns) : Returns (t.clearColumns left right) (Redrawn t) := by
  obtain ⟨a, ha, hda, -⟩ := damageColumns_returns h.damage h.grid.cursor left (right - 1)
  have hredraw := redraw_returns h left (right - 1) (fun c => left ≤ c ∧ c < right)
    (fun row => row.modifyRange left right fun _ => t.bgCell)
    (fun c hc _ => ⟨hc.1, by omega⟩) fun r hr =>
      Row.modifyRange_returns hr (Nat.le_of_lt hlt) hle _
  simp only [clearColumns]
  simp only [ha, Option.bind_eq_bind, Option.bind_some, hda.grid] at hredraw ⊢
  exact hredraw.bind fun b hb => .pure (hb.deselect _ _)

theorem clearLine_returns (h : t.WF) (mode : LineClearMode) :
    Returns (t.clearLine mode) fun t' => t' = t ∨ Redrawn t t' := by
  have hcol := h.grid.cursor.column_lt
  have hpos := h.grid.columns_pos
  cases mode with
  | right =>
      simp only [clearLine]
      split
      · exact .pure (.inl rfl)
      · exact (clearColumns_returns h hcol (Nat.le_refl _)).mono fun _ => .inr
  | left => exact (clearColumns_returns h (Nat.succ_pos _) hcol).mono fun _ => .inr
  | all => exact (clearColumns_returns h hpos (Nat.le_refl _)).mono fun _ => .inr

end Term
end Velacritty
