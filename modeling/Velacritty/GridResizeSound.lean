import Velacritty.GridResize
import Velacritty.GridSound

/-! Resizing is safe: every loop returns, and the resized grid is well formed again
although rows have other lengths while they are reflowed. -/
namespace Velacritty
open Fallible
variable {T : Type}

namespace Grid

/-- A viewport that shows existing lines only. -/
def OffsetBounded (g : Grid T) : Prop := g.displayOffset ≤ g.historySize

variable [GridCell T] {g : Grid T}

omit [GridCell T] in
theorem pinViewport_displayOffset (g : Grid T) (positions : Nat) :
    (g.pinViewport positions).displayOffset = g.displayOffset ∨
      (g.pinViewport positions).displayOffset =
        min (g.displayOffset + positions) g.maxScrollLimit := by
  unfold pinViewport
  split
  · exact .inr rfl
  · exact .inl rfl

/-- The lines that were added to the screen are not part of its text yet. -/
theorem WF.grown (h : g.WF) {target : Nat} (ht : g.lines ≤ target) :
    Returns (g.raw.growVisibleLines target) fun raw => WF { g with raw, lines := target } ∧
      historySize { g with raw, lines := target } = g.historySize := by
  have hlines := h.lines_le
  have hmax := h.history_le
  have hvis := h.visible
  have hcur := h.cursor
  have hsaved := h.savedCursor
  refine (Storage.growVisibleLines_returns h.raw (by omega)).mono fun raw hraw => ?_
  obtain ⟨hrawwf, hrawvis, hrawlen⟩ := hraw
  refine ⟨⟨hrawwf, hrawvis, h.columns_pos, by simp only; omega, ?_, ?_⟩, ?_⟩
  · exact ⟨hcur.line_nonneg, Int.lt_of_lt_of_le hcur.line_lt (Int.ofNat_le.mpr ht), hcur.column_lt⟩
  · exact ⟨hsaved.line_nonneg, Int.lt_of_lt_of_le hsaved.line_lt (Int.ofNat_le.mpr ht),
      hsaved.column_lt⟩
  · simp only [historySize_eq]
    omega

theorem growLines_returns (h : g.WF) {target : Nat} (ht : g.lines ≤ target) :
    Returns (g.growLines target) fun g' => g'.WF ∧ g'.lines = target ∧ g'.columns = g.columns ∧
      g.SameLimits g' ∧ (g.OffsetBounded → g'.OffsetBounded) ∧
      g'.cursor = { g.cursor with
        point.line := g.cursor.point.line + min g.historySize (target - g.lines) } ∧
      g'.savedCursor = { g.savedCursor with
        point.line := g.savedCursor.point.line + min g.historySize (target - g.lines) } := by
  have hlines := h.lines_le
  have hmax := h.history_le
  have hcur := h.cursor
  have hsaved := h.savedCursor
  unfold growLines
  rw [usub_of_le ht]
  refine (h.grown ht).bind fun raw hraw => ?_
  obtain ⟨hgrown, hhist⟩ := hraw
  have hgrownle := hgrown.lines_le
  simp only [hhist, Option.bind_eq_bind]
  refine Returns.bind (P := fun a : Grid T => a.WF ∧ SameScreen { g with raw, lines := target } a ∧
    (g.OffsetBounded → a.OffsetBounded)) ?_ fun a ha => ?_
  · split
    · refine (scrollUp_returns hgrown ⟨Int.le_refl 0, by simp only; omega, Int.le_refl _⟩
        fun _ => by simp only; omega).mono fun a ha => ?_
      obtain ⟨hwf, hsame, hlen, hoff⟩ := ha
      refine ⟨hwf, hsame, fun hb => ?_⟩
      have hal := hsame.lines
      rw [if_pos rfl] at hlen
      rw [if_neg fun hall => hall.2 rfl] at hoff
      rcases pinViewport_displayOffset { g with raw, lines := target }
          (target - g.lines - min g.historySize (target - g.lines)) with hpin | hpin <;>
        simp only [OffsetBounded, historySize_eq] at * <;> omega
    · refine .pure ⟨hgrown, .refl _, fun hb => ?_⟩
      simp only [OffsetBounded, hhist]
      exact hb
  · obtain ⟨hwf, hsame, hoff⟩ := ha
    have hal := hsame.lines
    have hac := hsame.columns
    simp only at hal hac
    have hmoved : WF { a with
        savedCursor.point.line := a.savedCursor.point.line + min g.historySize (target - g.lines)
        cursor.point.line := a.cursor.point.line + min g.historySize (target - g.lines)
        displayOffset := a.displayOffset - (target - g.lines) } := by
      refine ⟨hwf.raw, hwf.visible, hwf.columns_pos, hwf.history_le, ⟨?_, ?_, ?_⟩, ⟨?_, ?_, ?_⟩⟩ <;>
        simp only [hsame.cursor, hsame.savedCursor, hal, hac]
      · have := hcur.line_nonneg
        omega
      · have := hcur.line_lt
        omega
      · exact hcur.column_lt
      · have := hsaved.line_nonneg
        omega
      · have := hsaved.line_lt
        omega
      · exact hsaved.column_lt
    refine (decreaseScrollLimit_returns hmoved _).mono fun b hb => ?_
    obtain ⟨hbwf, hbsame, hbhist, hboff⟩ := hb
    refine ⟨hbwf, hbsame.lines.trans hal, hbsame.columns.trans hac,
      ⟨hbsame.maxScrollLimit.trans hsame.maxScrollLimit,
        hbsame.autoScrollEnabled.trans hsame.autoScrollEnabled⟩, fun hbound => ?_, ?_, ?_⟩
    · have hab := hoff hbound
      rw [OffsetBounded, hbhist]
      simp only [OffsetBounded, historySize_eq] at *
      rcases hboff with ⟨hzero, hboff⟩ | hboff <;> omega
    · rw [hbsame.cursor]
      simp only [hsame.cursor]
    · rw [hbsame.savedCursor]
      simp only [hsame.savedCursor]

theorem shrinkLines_returns (h : g.WF) {target : Nat} (hpos : 1 ≤ target) (ht : target ≤ g.lines) :
    Returns (g.shrinkLines target) fun g' => g'.WF ∧ g'.lines = target ∧ g'.columns = g.columns ∧
      g.SameLimits g' ∧ (g.OffsetBounded → g'.OffsetBounded) ∧
      g'.cursor = { g.cursor with point.line := min g.cursor.point.line ((target : Int) - 1) } ∧
      g'.savedCursor =
        { g.savedCursor with point.line := min g.savedCursor.point.line ((target : Int) - 1) } := by
  have hcur := h.cursor
  have hlo := hcur.line_nonneg
  have hhi := hcur.line_lt
  have hsaved := h.savedCursor
  unfold shrinkLines
  rw [toUsize_of_nonneg hlo]
  refine Returns.bind (P := fun a : Grid T => a.WF ∧ a.lines = g.lines ∧ a.columns = g.columns ∧
    g.SameLimits a ∧ a.savedCursor = g.savedCursor ∧
    a.cursor = { g.cursor with point.line := min g.cursor.point.line ((target : Int) - 1) } ∧
    (g.OffsetBounded → a.OffsetBounded)) ?_ fun a ha => ?_
  · split
    · refine (scrollUp_returns h ⟨Int.le_refl 0, by omega, Int.le_refl _⟩ fun _ => by omega).bind
        fun a ha => .pure ?_
      obtain ⟨hwf, hsame, hlen, hoff⟩ := ha
      have hal := hsame.lines
      have hac := hsame.columns
      have hcursor : InScreen a.lines a.columns
          ⟨min a.cursor.point.line ((target : Int) - 1), a.cursor.point.column⟩ := by
        rw [hsame.cursor, hal, hac]
        exact ⟨by simp only; omega, by simp only; omega, hcur.column_lt⟩
      refine ⟨⟨hwf.raw, hwf.visible, hwf.columns_pos, hwf.history_le, hcursor, hwf.savedCursor⟩,
        hal, hac, ⟨hsame.maxScrollLimit, hsame.autoScrollEnabled⟩, hsame.savedCursor, by simp only [hsame.cursor], fun hb => ?_⟩
      have hlines := h.lines_le
      have hmax := h.history_le
      rw [if_pos rfl] at hlen
      rw [if_neg fun hall => hall.2 rfl] at hoff
      rcases pinViewport_displayOffset g (g.cursor.point.line.toNat + 1 - target) with hpin | hpin <;>
        simp only [OffsetBounded, historySize_eq] at * <;> omega
    · next hno =>
        refine .pure ⟨h, rfl, rfl, ⟨rfl, rfl⟩, rfl, ?_, id⟩
        rw [Int.min_eq_left (by omega)]
  · obtain ⟨hwf, hal, hac, ham, hasaved, hacursor, hoff⟩ := ha
    have haline : a.cursor.point.line < target := by
      rw [hacursor]
      simp only
      omega
    have hvis := hwf.visible
    have hinner := hwf.raw.len_le
    have hle := hwf.lines_le
    simp only [usub_of_le (show target ≤ a.lines by omega), Option.bind_eq_bind, Option.bind_some]
    refine (Storage.rotate_returns hwf.raw (by omega)).bind fun b hb => ?_
    obtain ⟨hbwf, hbvis, hblen⟩ := hb
    refine (Storage.shrinkVisibleLines_returns hbwf hpos (by omega)).bind fun c hc => .pure ?_
    obtain ⟨hcwf, hcvis, hclen⟩ := hc
    have hmax := hwf.history_le
    have hacur := hwf.cursor
    have hasave := hwf.savedCursor
    refine ⟨⟨hcwf, hcvis, hwf.columns_pos, by simp only; omega,
      ⟨hacur.line_nonneg, haline, hacur.column_lt⟩, ⟨?_, ?_, hasave.column_lt⟩⟩, rfl, hac, ⟨ham.1, ham.2⟩,
      fun hb => ?_, hacursor, by rw [← hasaved]⟩
    · have := hasave.line_nonneg
      simp only
      omega
    · simp only
      omega
    · have := hoff hb
      simp only [OffsetBounded, historySize_eq] at *
      omega

/-! ### Reflow -/

/-- The grid while its rows are reflowed: the cursor moves inside of the lines on
screen, and nothing but the viewport moves with it. -/
structure Reflowing (g g' : Grid T) : Prop where
  savedCursor : g'.savedCursor = g.savedCursor
  raw : g'.raw = g.raw
  columns : g'.columns = g.columns
  lines : g'.lines = g.lines
  limits : g.SameLimits g'
  line_nonneg : 0 ≤ g'.cursor.point.line
  line_lt : g'.cursor.point.line < g'.lines

omit [GridCell T] in
theorem Reflowing.moved {g g' : Grid T} (h : g.Reflowing g') {cursor : Cursor T} {offset : Nat}
    (hlo : 0 ≤ cursor.point.line) (hhi : cursor.point.line < g'.lines) :
    g.Reflowing { g' with cursor, displayOffset := offset } :=
  ⟨h.savedCursor, h.raw, h.columns, h.lines, ⟨h.limits.1, h.limits.2⟩, hlo, hhi⟩

omit [GridCell T] in
/-- Rows of the right width and number make up a storage again. -/
theorem Reflowing.adoptRows_raw {raw : Storage T} {g' : Grid T} {rows : List (Row T)}
    (h : Reflowing { g with raw } g') (hg : 1 ≤ g.lines) (hvis : raw.visibleLines = g.lines)
    (hrows : ∀ r ∈ rows, r.WF g.columns) (hlo : g.lines ≤ rows.length)
    (hhi : rows.length ≤ g.lines + g.maxScrollLimit) :
    (g'.adoptRows rows).raw.WF g'.columns ∧ (g'.adoptRows rows).raw.visibleLines = g'.lines ∧
      (g'.adoptRows rows).raw.len ≤ g'.lines + g'.maxScrollLimit := by
  obtain ⟨-, hraw, hcols, hlines, ⟨hmax, -⟩, -, -⟩ := h
  simp only at hraw hcols hlines hmax
  simp only [adoptRows, hraw, hcols, hlines, hmax]
  exact ⟨Storage.replaceInner_wf (hvis.symm ▸ hg) (hvis.symm ▸ hlo) hrows, hvis, hhi⟩

omit [GridCell T] in
theorem adoptRows_offsetBounded (rows : List (Row T)) : (g.adoptRows rows).OffsetBounded :=
  Nat.min_le_right _ _

omit [GridCell T] in
theorem cursorBufferLine_returns (hlo : 0 ≤ g.cursor.point.line)
    (hhi : g.cursor.point.line < g.lines) :
    Returns g.cursorBufferLine fun i => (i : Int) = g.lines - g.cursor.point.line - 1 := by
  unfold cursorBufferLine
  rw [toUsize_of_nonneg hlo, Option.bind_eq_bind, Option.bind_some,
    usub_of_le (by omega), Option.bind_some, usub_of_le (by omega)]
  exact .pure (by omega)

end Grid

/-! ### Growing -/

section Grow
variable [GridCell T] {columns : Nat} {row : Row T} {st : GrowState T} {g : Grid T}

theorem shouldReflow_spec {reflow : Bool} (h : shouldReflow reflow columns row = true) :
    reflow = true ∧ 0 < row.len ∧ row.len < columns := by
  simp only [shouldReflow, Bool.and_eq_true, decide_eq_true_eq] at h
  exact ⟨h.1.1.1, h.1.1.2, h.1.2⟩

theorem unwrapRow_spec (row : Row T) :
    (unwrapRow row).len ≤ row.len ∧ (unwrapRow row).occ ≤ (unwrapRow row).len := by
  simp only [unwrapRow]
  split
  · refine ⟨?_, Row.occ_shrink_le (Nat.le_of_eq ?_) _⟩
    · rw [Row.len_shrink, Row.len_modifyLast]
      exact Nat.min_le_left _ _
    · rw [Row.occ_modifyLast, Row.len_modifyLast]
  · rw [Row.occ_modifyLast, Row.len_modifyLast]
    exact ⟨Nat.le_refl _, Nat.le_refl _⟩

theorem pullCells_returns {lastRow : Row T} (hlt : lastRow.len < columns)
    (hrow : 0 < row.len) (hle : row.len ≤ columns) (hocc : row.occ ≤ row.len) :
    Returns (pullCells columns lastRow row) fun r =>
      (r.1.len ≤ columns ∧ r.1.occ ≤ r.1.len) ∧ (r.2.1.len ≤ columns ∧ r.2.1.occ ≤ r.2.1.len) := by
  obtain ⟨hlen, hlastocc⟩ := unwrapRow_spec lastRow
  unfold pullCells
  generalize unwrapRow lastRow = kept at *
  simp only [usub_of_le (show kept.len ≤ columns by omega), Option.bind_eq_bind, Option.bind_some,
    usub_of_le (show 1 ≤ min row.len (columns - kept.len) by omega)]
  refine Returns.bind (Row.get_returns (by omega)) fun cell _ => ?_
  split
  · rw [usub_of_le (by omega), Option.bind_some]
    refine (Row.frontSplitOff_returns (by omega) hocc).bind fun p hp => .pure ?_
    obtain ⟨hcells, hrest, hrestocc⟩ := hp
    refine ⟨⟨?_, Row.append_occ hlastocc _⟩, ?_, hrestocc⟩
    · simp only [Row.len_append, List.length_append, List.length_singleton, hcells]
      omega
    · simp only
      omega
  · refine (Row.frontSplitOff_returns (Nat.min_le_left _ _) hocc).bind fun p hp => .pure ?_
    obtain ⟨hcells, hrest, hrestocc⟩ := hp
    refine ⟨⟨?_, Row.append_occ hlastocc _⟩, ?_, hrestocc⟩
    · simp only [Row.len_append, hcells]
      omega
    · simp only
      omega

theorem reflowTarget_spec {d : Dimensions} {p : Point} (hc : 1 ≤ d.columns) (hlo : 0 ≤ p.line)
    (hhi : p.line < d.screenLines) (numWrapped : Nat) (rowClear : Bool) :
    (reflowTarget d p numWrapped rowClear).1.line ≤ p.line ∧
      (reflowTarget d p numWrapped rowClear).1.column < d.columns := by
  obtain ⟨hlo', hle, hcol⟩ := Point.sub_cursor hc hlo hhi numWrapped
  simp only [reflowTarget]
  split
  · obtain ⟨-, hle', hcol'⟩ := Point.sub_cursor hc hlo' (by omega) 1
    exact ⟨Int.le_trans hle' hle, hcol'⟩
  · exact ⟨hle, hcol⟩

omit [GridCell T] in
theorem reflowCursor_returns (hc : 1 ≤ columns) (hlo : 0 ≤ g.cursor.point.line)
    (hhi : g.cursor.point.line < g.lines) (numWrapped : Nat) (rowClear : Bool) :
    Returns (reflowCursor g columns numWrapped rowClear) fun r =>
      ∃ nw column, column < columns ∧
        r.1 = { g with cursor.inputNeedsWrap := nw, cursor.point.column := column } := by
  obtain ⟨hle, hcol⟩ := reflowTarget_spec (d := ⟨0, g.lines, columns⟩) hc hlo hhi numWrapped rowClear
  unfold reflowCursor
  generalize reflowTarget ⟨0, g.lines, columns⟩ g.cursor.point numWrapped rowClear = target at *
  simp only [toUsize_of_nonneg (show 0 ≤ g.cursor.point.line - target.1.line by omega)]
  exact .pure ⟨_, _, hcol, rfl⟩

/-- What holds of the loop variables of `grow_columns` in every round. -/
structure GrowState.WF (g : Grid T) (columns : Nat) (st : GrowState T) : Prop where
  grid : g.Reflowing st.grid
  column_lt : st.grid.cursor.point.column < columns
  rows : ∀ r ∈ st.reversed, r.len ≤ columns ∧ r.occ ≤ r.len

theorem growRow_returns (h : st.WF g columns) (hrow : 0 < row.len) (hle : row.len ≤ columns)
    (hocc : row.occ ≤ row.len) (reflow : Bool) (i : Nat) :
    Returns (growRow reflow columns i row st) fun st' =>
      st'.WF g columns ∧ st'.reversed.length ≤ st.reversed.length + 1 := by
  obtain ⟨hgrid, hcol, hrows⟩ := h
  have hlo := hgrid.line_nonneg
  have hhi := hgrid.line_lt
  unfold growRow
  split
  · next hnil =>
      refine .pure ⟨⟨hgrid, hcol, fun r hr => ?_⟩, by simp only [List.length_singleton]; omega⟩
      rw [List.mem_singleton.mp hr]
      exact ⟨hle, hocc⟩
  · next lastRow above hrev =>
      have hlen : st.reversed.length = above.length + 1 := by rw [hrev, List.length_cons]
      rw [hrev] at hrows
      have habove : ∀ r ∈ above, r.len ≤ columns ∧ r.occ ≤ r.len :=
        fun r hr => hrows r (List.mem_cons_of_mem _ hr)
      split
      · next hshould =>
          obtain ⟨-, -, hlt⟩ := shouldReflow_spec hshould
          refine (pullCells_returns hlt hrow hle hocc).bind fun p hp => ?_
          obtain ⟨last', row', numWrapped⟩ := p
          obtain ⟨hlast', hrow'⟩ := hp
          have hdrop : ∀ r ∈ last' :: above, r.len ≤ columns ∧ r.occ ≤ r.len := by
            rw [List.forall_mem_cons]
            exact ⟨hlast', habove⟩
          have hpush : ∀ r ∈ row' :: last'.modifyLast (setWrapline true) :: above,
              r.len ≤ columns ∧ r.occ ≤ r.len := by
            rw [List.forall_mem_cons, List.forall_mem_cons]
            refine ⟨hrow', ⟨?_, ?_⟩, habove⟩
            · rw [Row.len_modifyLast]
              exact hlast'.1
            · rw [Row.len_modifyLast, Row.occ_modifyLast]
          refine (Grid.cursorBufferLine_returns hlo hhi).bind fun cbl hcbl => ?_
          split
          · refine (reflowCursor_returns (by omega) hlo hhi numWrapped row'.isClear).bind
              fun q hq => ?_
            obtain ⟨grid, lineDelta⟩ := q
            obtain ⟨nw, column, hcolumn, hgrid'⟩ := hq
            simp only at hgrid'
            subst hgrid'
            have hmoved : g.Reflowing { st.grid with
                cursor.inputNeedsWrap := nw, cursor.point.column := column } :=
              hgrid.moved hlo hhi
            simp only
            split
            · exact .pure ⟨⟨hmoved, hcolumn, hdrop⟩, by simp only [List.length_cons]; omega⟩
            · exact .pure ⟨⟨hmoved, hcolumn, hpush⟩, by simp only [List.length_cons]; omega⟩
          · split
            · refine .pure ⟨⟨hgrid.moved ?_ ?_, hcol, hdrop⟩, by simp only [List.length_cons]; omega⟩
              · simp only
                split <;> omega
              · simp only
                split <;> omega
            · exact .pure ⟨⟨hgrid, hcol, hpush⟩, by simp only [List.length_cons]; omega⟩
      · refine .pure ⟨⟨hgrid, hcol, ?_⟩, by simp only [List.length_cons]; omega⟩
        simp only [hrev, List.forall_mem_cons] at hrows ⊢
        exact ⟨⟨hle, hocc⟩, hrows⟩

theorem growRows_returns {oldColumns : Nat} (hpos : 1 ≤ oldColumns) (hle : oldColumns ≤ columns)
    (reflow : Bool) {rows : List (Row T)} (hrows : ∀ r ∈ rows, r.WF oldColumns)
    (h : st.WF g columns) :
    Returns (growRows reflow columns rows st) fun st' =>
      st'.WF g columns ∧ st'.reversed.length ≤ st.reversed.length + rows.length := by
  induction rows generalizing st with
  | nil => exact .pure ⟨h, Nat.le_refl _⟩
  | cons row rest ih =>
      rw [List.forall_mem_cons] at hrows
      have hrow := hrows.1
      refine (growRow_returns h (by have := hrow.len_eq; omega : 0 < row.len)
        (hrow.len_eq.trans_le hle) hrow.occ_le reflow rest.length).bind fun t ht => ?_
      refine (ih hrows.2 ht.1).mono fun u hu => ⟨hu.1, ?_⟩
      have hlen := hu.2
      have hlen' := ht.2
      rw [List.length_cons]
      omega

theorem fillViewport_wf (h : st.WF g columns) :
    (fillViewport columns st).WF g columns ∧ g.lines ≤ (fillViewport columns st).reversed.length ∧
      (fillViewport columns st).reversed.length = max st.reversed.length g.lines := by
  obtain ⟨hgrid, hcol, hrows⟩ := h
  have hlo := hgrid.line_nonneg
  have hhi := hgrid.line_lt
  have hlines := hgrid.lines
  unfold fillViewport
  split
  · refine ⟨⟨hgrid.moved ?_ ?_, hcol, fun r hr => ?_⟩, ?_, ?_⟩
    · exact Int.le_max_right _ _
    · simp only
      omega
    · rcases List.mem_append.mp hr with hr | hr
      · rw [List.eq_of_mem_replicate hr]
        exact ⟨Nat.le_of_eq (Row.new_wf columns).len_eq, (Row.new_wf columns).occ_le⟩
      · exact hrows r hr
    · simp only [List.length_append, List.length_replicate]
      omega
    · simp only [List.length_append, List.length_replicate]
      omega
  · exact ⟨⟨hgrid, hcol, hrows⟩, by omega, by omega⟩

omit [GridCell T] in
theorem pullDown_returns (h : st.WF g columns) (hlen : g.lines ≤ st.reversed.length) :
    Returns (pullDown st) fun st' => st'.WF g columns ∧ g.lines ≤ st'.reversed.length ∧
      st'.reversed.length ≤ st.reversed.length := by
  obtain ⟨hgrid, hcol, hrows⟩ := h
  have hlo := hgrid.line_nonneg
  have hhi := hgrid.line_lt
  have hlines := hgrid.lines
  unfold pullDown
  split
  · refine (Grid.cursorBufferLine_returns hlo hhi).bind fun cbl hcbl => ?_
    rw [usub_of_le (by omega)]
    simp only [Option.bind_eq_bind, Option.bind_some]
    rw [usub_of_le (by omega), Option.bind_some]
    refine .pure ⟨⟨hgrid.moved ?_ ?_, hcol, fun r hr => hrows r (List.mem_of_mem_drop hr)⟩, ?_, ?_⟩
    · exact Int.le_max_right _ _
    · simp only
      omega
    · simp only [List.length_drop]
      omega
    · simp only [List.length_drop]
      omega
  · exact .pure ⟨⟨hgrid, hcol, hrows⟩, hlen, Nat.le_refl _⟩

omit [GridCell T] in
theorem Grid.WF.unwrapCursor (h : g.WF) (columns : Nat) (reflow : Bool) :
    Reflowing { g with columns } (unwrapCursor { g with columns } reflow) ∧
      (unwrapCursor { g with columns } reflow).cursor.point.column ≤ g.columns := by
  obtain ⟨hlo, hhi, hcol⟩ := h.cursor
  unfold Grid.unwrapCursor
  split
  · exact ⟨⟨rfl, rfl, rfl, rfl, ⟨rfl, rfl⟩, hlo, hhi⟩, hcol⟩
  · exact ⟨⟨rfl, rfl, rfl, rfl, ⟨rfl, rfl⟩, hlo, hhi⟩, Nat.le_of_lt hcol⟩

omit [GridCell T] in
theorem Grid.Reflowing.withRaw {g' : Grid T} (h : g.Reflowing g') {raw : Storage T} :
    Reflowing { g with raw } { g' with raw } :=
  ⟨h.savedCursor, rfl, h.columns, h.lines, ⟨h.limits.1, h.limits.2⟩, h.line_nonneg, h.line_lt⟩

theorem Grid.growColumns_returns (h : g.WF) (hc : g.columns < columns) (reflow : Bool) :
    Returns (g.growColumns reflow columns) fun g' => g'.WF ∧ g'.lines = g.lines ∧
      g'.columns = columns ∧ g.SameLimits g' ∧ g'.OffsetBounded := by
  obtain ⟨hunwrap, hcol⟩ := h.unwrapCursor columns reflow
  have hlines := h.lines_le
  have hmax := h.history_le
  have hgvis := h.visible
  have hsaved := h.savedCursor
  unfold growColumns
  simp only
  generalize unwrapCursor { g with columns } reflow = u at *
  have hlen' : u.raw.len = g.raw.len := congrArg Storage.len hunwrap.raw
  have huvis : u.raw.visibleLines = g.raw.visibleLines := congrArg Storage.visibleLines hunwrap.raw
  refine (Storage.takeAll_returns (hunwrap.raw.symm ▸ h.raw)).bind fun p hp => ?_
  obtain ⟨rows, raw⟩ := p
  obtain ⟨hlen, hrows, hvis⟩ := hp
  have hstart : GrowState.WF { g with columns, raw } columns ⟨{ u with raw }, [], 0⟩ :=
    ⟨hunwrap.withRaw, Nat.lt_of_le_of_lt hcol hc, fun r hr => absurd hr List.not_mem_nil⟩
  refine (growRows_returns h.columns_pos (Nat.le_of_lt hc) reflow
    (fun r hr => hrows r (List.mem_reverse.mp hr)) hstart).bind fun st hst => ?_
  obtain ⟨hst, hcount⟩ := hst
  obtain ⟨hfill, hfull, hfilled⟩ := fillViewport_wf hst
  refine (pullDown_returns hfill hfull).bind fun st' hst' => .pure ?_
  obtain ⟨⟨hgrid, hcolumn, hbounds⟩, hfull', hle⟩ := hst'
  simp only [List.length_reverse, List.length_nil] at hlen hvis hcount hfilled hfull'
  generalize hgrown : st'.reversed.map (Row.grow · columns) = rows'
  have hgrownlen : rows'.length = st'.reversed.length := hgrown ▸ List.length_map ..
  have hgrownwf : ∀ r ∈ rows', r.WF columns := by
    intro r hr
    rw [← hgrown] at hr
    obtain ⟨r', hr', rfl⟩ := List.mem_map.mp hr
    exact Row.grow_wf (hbounds r' hr').2 (hbounds r' hr').1
  have hraw := Reflowing.adoptRows_raw (g := { g with columns }) hgrid h.lines_pos
    (hvis.trans (huvis.trans hgvis)) hgrownwf (by simp only; omega) (by simp only; omega)
  refine ⟨⟨hraw.1, hraw.2.1, ?_, hraw.2.2, ⟨hgrid.line_nonneg, hgrid.line_lt, ?_⟩, ?_⟩,
    hgrid.lines, hgrid.columns, ⟨hgrid.limits.maxScrollLimit, hgrid.limits.autoScrollEnabled⟩,
    adoptRows_offsetBounded _⟩
  · exact hgrid.columns.symm ▸ Nat.le_trans h.columns_pos (Nat.le_of_lt hc)
  · exact hgrid.columns.symm ▸ hcolumn
  · simp only [adoptRows, hgrid.savedCursor, hgrid.lines, hgrid.columns]
    exact ⟨hsaved.line_nonneg, hsaved.line_lt, Nat.lt_trans hsaved.column_lt hc⟩

end Grow

/-! ### Shrinking -/

section Shrink
variable [GridCell T] {reflow : Bool} {columns i : Nat} {row : Row T} {g u : Grid T}

omit [GridCell T] in
theorem wrappedCells_returns (hlo : 0 ≤ g.cursor.point.line) (hhi : g.cursor.point.line < g.lines)
    (removed : Option (List T)) :
    Returns (wrappedCells reflow columns i removed g) fun wrapped => ∀ cells, wrapped = some cells →
      removed = some cells ∨
        cells = [] ∧ (i : Int) = g.lines - g.cursor.point.line - 1 ∧ columns < g.cursor.point.column := by
  have hcursor : Returns (do
      let cursorBufferLine ← g.cursorBufferLine
      some (if reflow = true ∧ i = cursorBufferLine ∧ columns < g.cursor.point.column then some []
        else (none : Option (List T)))) fun wrapped => ∀ cells, wrapped = some cells →
      removed = some cells ∨
        cells = [] ∧ (i : Int) = g.lines - g.cursor.point.line - 1 ∧ columns < g.cursor.point.column := by
    refine (Grid.cursorBufferLine_returns hlo hhi).bind fun cbl hcbl => .pure fun cells hcells => ?_
    split at hcells
    · next hc => exact .inr ⟨(Option.some.inj hcells).symm, hc.2.1 ▸ hcbl, hc.2.2⟩
    · cases hcells
  unfold wrappedCells
  split
  · exact .pure fun cells hcells => .inl hcells
  · exact hcursor

/-- The row that stays has the new width, and at most a fullwidth character joins
the cells that leave. -/
def WrapSplit.WF (columns count : Nat) : WrapSplit T → Prop
  | .wrapped row cells => row.WF columns ∧ cells.length ≤ count + 1
  | .spacerOnly row => row.WF columns

theorem splitWrapped_returns (hc : 1 ≤ columns) (hrow : row.WF columns) (wrapped : List T) :
    Returns (splitWrapped columns row wrapped) (WrapSplit.WF columns wrapped.length) := by
  have hlt : columns - 1 < columns := Nat.sub_lt hc Nat.one_pos
  unfold splitWrapped
  simp only [usub_of_le hc, Option.bind_eq_bind, Option.bind_some]
  refine Returns.bind (P := fun p : Row T × List T =>
    p.1.WF columns ∧ p.2.length ≤ wrapped.length + 1) ?_ fun p hp => ?_
  · split
    · refine (Row.get_returns (by rw [hrow.len_eq]; exact hlt)).bind fun wide _ => ?_
      refine (Row.modify_returns hrow hlt _).bind fun row' hrow' => .pure ⟨hrow', ?_⟩
      rw [List.length_cons]
    · exact .pure ⟨hrow, Nat.le_succ _⟩
  · obtain ⟨row', cells⟩ := p
    obtain ⟨hrow', hcells⟩ := hp
    simp only at hrow' hcells ⊢
    split
    · split
      · exact (Row.modify_returns hrow' hlt _).bind fun row'' hrow'' => .pure hrow''
      · refine .pure ⟨hrow', ?_⟩
        rw [length_updateLast, List.length_dropLast]
        omega
    · exact .pure ⟨hrow', hcells⟩

theorem startWrappedRow_returns (h : g.Reflowing u) (cells : List T) :
    Returns (startWrappedRow columns i cells u) fun r =>
      r.1.len = max columns cells.length ∧ r.1.occ ≤ r.1.len ∧ g.Reflowing r.2 ∧
        r.2.cursor.point.column ≤ u.cursor.point.column ∧
        ((i : Int) = u.lines - u.cursor.point.line - 1 → columns ≤ u.cursor.point.column →
          r.2.cursor.point.column = u.cursor.point.column - columns) := by
  have hlo := h.line_nonneg
  have hhi := h.line_lt
  unfold startWrappedRow
  refine (Grid.cursorBufferLine_returns hlo hhi).bind fun cbl hcbl => .pure ⟨?_, ?_, ?_, ?_, ?_⟩
  · simp only [Row.fromVec, Row.len_mk, List.length_append, List.length_replicate]
    omega
  · simp only [Row.fromVec, Row.len_mk, List.length_append, List.length_replicate]
    omega
  · refine h.moved ?_ ?_
    · simp only
      split <;> omega
    · simp only
      split <;> omega
  · simp only
    split <;> omega
  · intro hi hcol
    exact if_pos ⟨by omega, hcol⟩

/-- What holds of the loop variables of `shrink_columns` after `count` rows. -/
structure ShrinkState.WF (g : Grid T) (columns count : Nat) (st : ShrinkState T) : Prop where
  grid : g.Reflowing st.grid
  rows : ∀ r ∈ st.newRaw, r.WF columns
  count_le : count ≤ st.newRaw.length

variable {count : Nat} {st : ShrinkState T}

omit [GridCell T] in
theorem ShrinkState.WF.push (h : st.WF g columns count) (hrow : row.WF columns) {u : Grid T}
    (hu : g.Reflowing u) (buffered : Option (List T)) :
    ShrinkState.WF g columns (count + 1) ⟨u, row :: st.newRaw, buffered⟩ := by
  refine ⟨hu, ?_, Nat.succ_le_succ h.count_le⟩
  rw [List.forall_mem_cons]
  exact ⟨hrow, h.rows⟩

omit [GridCell T] in
theorem Row.modifyLast_wf {r : Row T} (h : r.WF columns) (f : T → T) : (r.modifyLast f).WF columns :=
  ⟨(len_modifyLast r f).trans h.len_eq, by rw [occ_modifyLast, len_modifyLast]⟩

/-- Each round pushes a row; with two columns at least, what is left gets shorter or
the cursor comes closer. -/
theorem shrinkStep_returns (hc : 1 ≤ columns) (h : st.WF g columns count) (hlen : columns ≤ row.len)
    (hocc : row.occ ≤ row.len) :
    Returns (shrinkStep reflow columns i (row, st)) (Sum.elim (ShrinkState.WF g columns (count + 1))
      fun p => (p.2.WF g columns count ∧ columns ≤ p.1.len ∧ p.1.occ ≤ p.1.len) ∧
        (2 ≤ columns → p.1.len + p.2.grid.cursor.point.column <
          row.len + st.grid.cursor.point.column)) := by
  have hlo := h.grid.line_nonneg
  have hhi := h.grid.line_lt
  have hkept : (row.shrink columns).1.WF columns :=
    ⟨by rw [Row.len_shrink, Nat.min_eq_right hlen], Row.occ_shrink_le hocc columns⟩
  have hremoved : ∀ cells, (row.shrink columns).2 = some cells →
      columns + cells.length ≤ row.len ∧ cells ≠ [] := fun cells hcells => Row.length_removed hcells
  simp only [shrinkStep]
  generalize row.shrink columns = shrunk at *
  obtain ⟨kept, removed⟩ := shrunk
  refine (wrappedCells_returns hlo hhi removed).bind fun wrapped hwrapped => ?_
  cases wrapped with
  | none => exact .pure (h.push hkept h.grid _)
  | some wrapped =>
      refine (splitWrapped_returns hc hkept wrapped).bind fun r hr => ?_
      cases r with
      | spacerOnly row' => exact .pure (h.push hr h.grid _)
      | wrapped row' cells =>
          obtain ⟨hrow', hcells⟩ := hr
          have hpushed := Row.modifyLast_wf hrow' (setWrapline true)
          simp only
          split
          · exact .pure (h.push hpushed h.grid _)
          · refine (startWrappedRow_returns h.grid cells).bind fun q hq => .pure ?_
            obtain ⟨next, u⟩ := q
            obtain ⟨hnext, hnextocc, hu, hcol, hcursor⟩ := hq
            have hwf := h.push hpushed hu st.buffered
            refine ⟨⟨⟨hwf.grid, hwf.rows, Nat.le_of_succ_le hwf.count_le⟩, ?_, hnextocc⟩, fun h2 => ?_⟩
            · rw [hnext]
              exact Nat.le_max_left _ _
            · simp only at hnext hcol hcursor ⊢
              rcases hwrapped wrapped rfl with hrem | ⟨rfl, hline, hbeyond⟩
              · obtain ⟨hle, hne⟩ := hremoved wrapped hrem
                have := List.length_pos_of_ne_nil hne
                omega
              · have := hcursor hline (Nat.le_of_lt hbeyond)
                rw [List.length_nil] at hcells
                omega

theorem shrinkRow_returns (hc : 1 ≤ columns) (h : st.WF g columns count) (hlen : columns ≤ row.len)
    (hocc : row.occ ≤ row.len) :
    ReturnsIf (2 ≤ columns) (shrinkRow reflow columns i row st)
      (ShrinkState.WF g columns (count + 1)) := by
  refine loop_returnsIf (fun p : Row T × ShrinkState T => p.1.len + p.2.grid.cursor.point.column)
    (P := fun p => p.2.WF g columns count ∧ columns ≤ p.1.len ∧ p.1.occ ≤ p.1.len)
    ⟨h, hlen, hocc⟩ (fun _ => Nat.lt_succ_self _) fun p hp => ?_
  exact shrinkStep_returns hc hp.1 hp.2.1 hp.2.2

omit [GridCell T] in
theorem prependBuffered_returns (h : st.WF g columns count) (hocc : row.occ ≤ row.len) :
    Returns (prependBuffered i row st) fun p => p.2.WF g columns count ∧ row.len ≤ p.1.len ∧
      p.1.occ ≤ p.1.len := by
  unfold prependBuffered
  split
  · exact .pure ⟨h, Nat.le_refl _, hocc⟩
  · next cells _ =>
      refine (Grid.cursorBufferLine_returns h.grid.line_nonneg h.grid.line_lt).bind
        fun cbl hcbl => .pure ?_
      refine ⟨⟨h.grid.moved h.grid.line_nonneg h.grid.line_lt, h.rows, h.count_le⟩, ?_, ?_⟩
      · simp only [Row.len_appendFront]
        omega
      · exact Row.appendFront_occ hocc cells

theorem shrinkRows_returns {oldColumns : Nat} (hc : 1 ≤ columns) (hle : columns ≤ oldColumns)
    {rows : List (Row T)} (hrows : ∀ r ∈ rows, r.WF oldColumns) (h : st.WF g columns count) :
    ReturnsIf (2 ≤ columns) (shrinkRows reflow columns rows st)
      (ShrinkState.WF g columns (count + rows.length)) := by
  induction rows generalizing st count with
  | nil => exact .pure h
  | cons row rest ih =>
      rw [List.forall_mem_cons] at hrows
      have hrow := hrows.1
      refine (prependBuffered_returns h hrow.occ_le).returnsIf.bind fun p hp => ?_
      obtain ⟨hst, hlen, hocc⟩ := hp
      rw [hrow.len_eq] at hlen
      refine (shrinkRow_returns hc hst (Nat.le_trans hle hlen) hocc).bind fun t ht => ?_
      refine (ih hrows.2 ht).mono fun u hu => ?_
      rw [List.length_cons]
      rwa [Nat.add_assoc, Nat.add_comm 1] at hu

theorem Grid.settleCursor_returns (hc : 1 ≤ columns) (hcols : g.columns = columns)
    (hraw : g.raw.WF columns) (hvis : g.raw.visibleLines = g.lines)
    (hlo : 0 ≤ g.cursor.point.line) (hhi : g.cursor.point.line < g.lines) :
    Returns (g.settleCursor reflow columns) fun g' =>
      ∃ cursor, g' = { g with cursor } ∧ InScreen g.lines columns cursor.point := by
  have hle := hraw.visible_le
  have hlt : columns - 1 < columns := Nat.sub_lt hc Nat.one_pos
  unfold settleCursor
  simp only [usub_of_le hc, Option.bind_eq_bind, Option.bind_some]
  split
  · exact .pure ⟨_, rfl, hlo, hhi, by simp only; omega⟩
  · refine Returns.bind (P := fun pending => pending = true → g.cursor.point.column = columns) ?_
      fun pending hpending => ?_
    · split
      · next heq =>
          have hline : g.raw.HasLine g.cursor.point.line := by
            rw [Storage.HasLine, hvis]
            omega
          refine Returns.bind (P := fun _ => True) ?_ fun cell _ => .pure fun _ => heq
          refine (Storage.get_returns hraw hline).bind fun row hrow => ?_
          exact Row.get_returns (by rw [hrow.len_eq]; exact hlt)
      · exact .pure fun h => absurd h (by decide)
    · split
      · next hp => exact .pure ⟨_, rfl, hlo, hhi, by simp only; have := hpending hp; omega⟩
      · refine .pure ⟨{ g.cursor with point := g.cursor.point.gridClamp g.dims .cursor }, rfl, ?_⟩
        have hclamp : g.cursor.point.gridClamp g.dims .cursor =
          ⟨g.cursor.point.line, min g.cursor.point.column g.dims.lastColumn⟩ :=
            Point.gridClamp_of_screen hlo hhi
        simp only [hclamp]
        refine ⟨hlo, hhi, ?_⟩
        simp only [Dimensions.lastColumn, dims, hcols]
        omega

theorem Grid.shrinkColumns_returns (h : g.WF) (hpos : 1 ≤ columns) (hc : columns ≤ g.columns) :
    ReturnsIf (2 ≤ columns) (g.shrinkColumns reflow columns) fun g' => g'.WF ∧ g'.lines = g.lines ∧
      g'.columns = columns ∧ g.SameLimits g' ∧ g'.OffsetBounded := by
  obtain ⟨hunwrap, -⟩ := h.unwrapCursor columns reflow
  have hlines := h.lines_le
  have hgvis := h.visible
  have hsaved := h.savedCursor
  unfold shrinkColumns
  simp only
  generalize unwrapCursor { g with columns } reflow = u at *
  have hlen' : u.raw.len = g.raw.len := congrArg Storage.len hunwrap.raw
  have huvis : u.raw.visibleLines = g.raw.visibleLines := congrArg Storage.visibleLines hunwrap.raw
  refine (Storage.takeAll_returns (hunwrap.raw.symm ▸ h.raw)).returnsIf.bind fun p hp => ?_
  obtain ⟨rows, raw⟩ := p
  obtain ⟨hlen, hrows, hvis⟩ := hp
  have hstart : ShrinkState.WF { g with columns, raw } columns 0 ⟨{ u with raw }, [], none⟩ :=
    ⟨hunwrap.withRaw, fun r hr => absurd hr List.not_mem_nil, Nat.le_refl _⟩
  refine (shrinkRows_returns hpos hc (fun r hr => hrows r (List.mem_reverse.mp hr)) hstart).bind
    fun st hst => ?_
  obtain ⟨hgrid, hwf, hcount⟩ := hst
  have hgl : st.grid.lines = g.lines := hgrid.lines
  have hgm : st.grid.maxScrollLimit = g.maxScrollLimit := hgrid.limits.maxScrollLimit
  simp only [List.length_reverse, Nat.zero_add] at hlen hvis hcount
  generalize hkept : st.newRaw.take (st.grid.maxScrollLimit + st.grid.lines) = kept
  have hkeptlen : kept.length = min (g.maxScrollLimit + g.lines) st.newRaw.length := by
    rw [← hkept, List.length_take, hgl, hgm]
  have hkeptwf : ∀ r ∈ kept, r.WF columns := by
    rw [← hkept]
    exact fun r hr => hwf r (List.mem_of_mem_take hr)
  have hraw := Reflowing.adoptRows_raw (g := { g with columns }) hgrid h.lines_pos
    (hvis.trans (huvis.trans hgvis)) hkeptwf (by simp only; omega) (by simp only; omega)
  have hwidth : (st.grid.adoptRows kept).raw.WF columns := by
    rw [show columns = st.grid.columns from hgrid.columns.symm]
    exact hraw.1
  refine (Grid.settleCursor_returns (g := st.grid.adoptRows kept) hpos hgrid.columns hwidth
    hraw.2.1 hgrid.line_nonneg hgrid.line_lt).returnsIf.bind fun g' hg' => .pure ?_
  obtain ⟨cursor, rfl, hcursor⟩ := hg'
  refine ⟨⟨hraw.1, hraw.2.1, hgrid.columns.symm ▸ hpos, hraw.2.2, hgrid.columns.symm ▸ hcursor, ?_⟩,
    hgrid.lines, hgrid.columns, ⟨hgrid.limits.maxScrollLimit, hgrid.limits.autoScrollEnabled⟩,
    adoptRows_offsetBounded _⟩
  simp only [adoptRows, hgrid.savedCursor, hgrid.lines, hgrid.columns]
  exact ⟨hsaved.line_nonneg, hsaved.line_lt, by simp only; omega⟩

/-- Resizing the rows and columns keeps the grid well formed, and returns if at least
two columns are left for fullwidth characters. -/
theorem Grid.resize_returns (reflow : Bool) (h : g.WF) {lines : Nat} (hl : 1 ≤ lines) (hc : 1 ≤ columns) :
    ReturnsIf (2 ≤ columns) (g.resize reflow lines columns) fun g' => g'.WF ∧ g'.lines = lines ∧
      g'.columns = columns ∧ g.SameLimits g' ∧
      (g.OffsetBounded → g'.OffsetBounded) := by
  have hstart : WF { g with cursor.template := default } :=
    ⟨h.raw, h.visible, h.columns_pos, h.history_le, h.cursor, h.savedCursor⟩
  unfold resize
  refine ReturnsIf.bind (P := fun a : Grid T => a.WF ∧ a.lines = lines ∧ a.columns = g.columns ∧
    g.SameLimits a ∧ (g.OffsetBounded → a.OffsetBounded)) ?_ fun a ha => ?_
  · split
    · next hlt =>
        refine ((growLines_returns hstart (Nat.le_of_lt hlt)).mono fun a ha => ?_).returnsIf
        obtain ⟨hwf, hal, hac, ham, hoff, _⟩ := ha
        exact ⟨hwf, hal, hac, ⟨ham.maxScrollLimit, ham.autoScrollEnabled⟩, hoff⟩
    · next hge =>
        split
        · next hlt =>
            refine ((shrinkLines_returns hstart hl (Nat.le_of_lt hlt)).mono fun a ha => ?_).returnsIf
            obtain ⟨hwf, hal, hac, ham, hoff, _⟩ := ha
            exact ⟨hwf, hal, hac, ⟨ham.maxScrollLimit, ham.autoScrollEnabled⟩, hoff⟩
        · next hle => exact .pure ⟨hstart, Nat.le_antisymm (Nat.not_lt.mp hle) (Nat.not_lt.mp hge),
            rfl, ⟨rfl, rfl⟩, id⟩
  · obtain ⟨hwf, hal, hac, ham, hoff⟩ := ha
    refine ReturnsIf.bind (P := fun b : Grid T => b.WF ∧ b.lines = lines ∧ b.columns = columns ∧
      g.SameLimits b ∧ (g.OffsetBounded → b.OffsetBounded)) ?_
        fun b hb => .pure ?_
    · split
      · next hlt =>
          refine (growColumns_returns hwf hlt reflow).returnsIf.mono fun b hb => ?_
          exact ⟨hb.1, hb.2.1.trans hal, hb.2.2.1, ham.trans hb.2.2.2.1, fun _ => hb.2.2.2.2⟩
      · next hge =>
          split
          · next hlt =>
              refine (shrinkColumns_returns hwf hc (Nat.le_of_lt hlt)).mono fun b hb => ?_
              exact ⟨hb.1, hb.2.1.trans hal, hb.2.2.1, ham.trans hb.2.2.2.1, fun _ => hb.2.2.2.2⟩
          · next hle => exact .pure ⟨hwf, hal,
              Nat.le_antisymm (Nat.not_lt.mp hle) (Nat.not_lt.mp hge), ham, hoff⟩
    · obtain ⟨hbwf, hbl, hbc, hbm, hboff⟩ := hb
      exact ⟨⟨hbwf.raw, hbwf.visible, hbwf.columns_pos, hbwf.history_le, hbwf.cursor,
        hbwf.savedCursor⟩, hbl, hbc, ⟨hbm.maxScrollLimit, hbm.autoScrollEnabled⟩, hboff⟩

end Shrink
end Velacritty
