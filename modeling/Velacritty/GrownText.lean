import Velacritty.GrowText

/-! Growing a grid: its text, and the place of its cursor. -/
namespace Velacritty
open Fallible
open Flow (Piece Reading feed trim)
variable {columns : Nat}

/-! ### After the rows -/

section After
variable {st : GrowState Cell}

/-- Blank rows fill the screen below, and the cursor stays on its row. -/
theorem fillViewport_spec (columns : Nat) (hlo : 0 ≤ st.grid.cursor.point.line) :
    (fillViewport columns st).reversed =
        List.replicate (st.grid.lines - st.reversed.length) (Row.new columns) ++ st.reversed ∧
      (fillViewport columns st).cursorLineDelta = st.cursorLineDelta ∧
      (fillViewport columns st).grid = { st.grid with
        cursor.point.line :=
          max (st.grid.cursor.point.line - (st.grid.lines - st.reversed.length : Nat)) 0 } := by
  unfold fillViewport
  split
  · exact ⟨rfl, rfl, rfl⟩
  · next h =>
      rw [Nat.sub_eq_zero_of_le (Nat.le_of_not_lt h)]
      refine ⟨rfl, rfl, ?_⟩
      rw [Int.natCast_zero, Int.sub_zero, Int.max_eq_left hlo]

/-- The `k` newest rows are deleted, as long as they are below the cursor and the screen
stays full. -/
structure PulledDown (st d : GrowState Cell) (k : Nat) : Prop where
  reversed : d.reversed = st.reversed.drop k
  grid : d.grid = { st.grid with
    cursor.point.line := max (st.grid.cursor.point.line - (st.cursorLineDelta - k : Nat)) 0 }
  le_delta : k ≤ st.cursorLineDelta
  le_below : (k : Int) ≤ st.grid.below
  full : st.grid.lines + k ≤ st.reversed.length
  most : k = st.cursorLineDelta ∨ (k : Int) = st.grid.below ∨ st.grid.lines + k = st.reversed.length

theorem pullDown_spec (hlo : 0 ≤ st.grid.cursor.point.line)
    (hhi : st.grid.cursor.point.line < st.grid.lines) (hlen : st.grid.lines ≤ st.reversed.length) :
    Allows (pullDown st) fun d => ∃ k, PulledDown st d k := by
  unfold pullDown
  split
  · intro d hd
    simp only [Option.bind_eq_bind, Option.bind_eq_some_iff, usub_eq_some, Option.some.injEq] at hd
    obtain ⟨cbl, hcbl, spare, ⟨-, rfl⟩, kept, ⟨hle, rfl⟩, rfl⟩ := hd
    have hbelow : (cbl : Int) = st.grid.below := (Grid.cursorBufferLine_returns hlo hhi).of_eq hcbl
    refine ⟨min st.cursorLineDelta (min cbl (st.reversed.length - st.grid.lines)), ?_, ?_, ?_, ?_, ?_, ?_⟩
    · simp only
      congr 1
      omega
    · simp only
      congr 4
      omega
    all_goals omega
  · next hzero =>
      rw [not_not] at hzero
      refine .pure ⟨0, rfl, ?_, Nat.zero_le _, ?_, hlen, .inl hzero.symm⟩
      · rw [hzero, Nat.sub_zero, Int.natCast_zero, Int.sub_zero, Int.max_eq_left hlo]
      · simp only [Grid.below]
        omega

end After

namespace Grid
variable {g g' : Grid Cell}

/-- The cursor is on the top line of the screen, and all of its row joins the last row of
the history. -/
def SwallowsCursor (g : Grid Cell) (columns : Nat) : Prop :=
  g.cursor.point.line = 0 ∧ g.pendingAbove % columns ≠ 0 ∧
    g.pendingAbove % columns + g.columns ≤ columns

instance (g : Grid Cell) (columns : Nat) : Decidable (g.SwallowsCursor columns) :=
  inferInstanceAs (Decidable (_ ∧ _ ∧ _))

/-- The cursor is in the part of its row that joins the row above, and other rows are
below it. -/
structure LiftsCursor (g : Grid Cell) (columns : Nat) : Prop where
  line_pos : 0 < g.cursor.point.line
  line_lt : g.cursor.point.line + 1 < g.lines
  pending : g.pendingAbove % columns ≠ 0
  before : g.pendingAbove % columns + g.cursor.pastColumn < columns

/-- No wrap flag inside of a row above the cursor's comes to the end of a grown row. -/
def GrowsClean (g : Grid Cell) (columns : Nat) : Prop :=
  EachRow (fun n row => row.GrowsClean columns n) (readRows []) g.rowsAbove

instance (g : Grid Cell) (columns : Nat) : Decidable (g.GrowsClean columns) :=
  inferInstanceAs (Decidable (EachRow _ _ _))

theorem Readable.growsClean (hr : g.Readable) (columns : Nat) : g.GrowsClean columns := by
  refine EachRow.of_forall (fun row hrow n k hk => ?_) _
  rw [hr.strayEnd row (List.mem_of_mem_take hrow)] at hk
  cases hk

/-- What growing starts with, and how it comes to the cursor's row. -/
structure GrownStart (g : Grid Cell) (columns : Nat) (above below : List (Row Cell)) (row : Row Cell)
    (a : GrowState Cell) : Prop where
  rows : g.textRows = above ++ row :: below
  above_eq : above = g.rowsAbove
  shaped : ∀ r ∈ above ++ row :: below, r.Shaped g.columns
  reflowed : Reflowed columns a.reversed
  reads : readRows a.reversed.reverse = readRows above
  lines : a.grid.lines = g.lines
  line : a.grid.cursor.point.line = g.cursor.point.line
  column : a.grid.cursor.point.column = g.cursor.pastColumn
  needsWrap : a.grid.cursor.inputNeedsWrap = false
  delta : a.cursorLineDelta = 0

theorem Grown.start_text {rows above below : List (Row Cell)} {row : Row Cell} {a b c d : GrowState Cell}
    (h : Grown g columns rows above below row a b c d g') (hg : g.WF) (hn : g.Narrow)
    (hlt : g.columns < columns) (hclean : g.GrowsClean columns) :
    GrownStart g columns above below row a := by
  obtain ⟨raw, htake⟩ := h.takeAll
  obtain ⟨hrows, -⟩ := hg.raw.filled.takeAll.of_eq htake
  simp only at hrows
  subst hrows
  have hsplit := h.split
  have hshaped : ∀ r ∈ above ++ row :: below, r.Shaped g.columns := by
    rw [← hsplit]
    exact hn.rows hg
  obtain ⟨hunwrap, -⟩ := hg.unwrapCursor columns true
  obtain ⟨raw', offset, hstart⟩ := h.start
  have habove : above = g.rowsAbove := by
    obtain ⟨n, hn, hlen, hrowsAbove⟩ := hg.rowsAbove
    have hlength : n = below.length := by
      have := h.length_below
      omega
    have hrows : g.raw.rows = below.reverse ++ row :: above.reverse := by
      rw [← List.reverse_reverse g.raw.rows, hsplit, List.reverse_append, List.reverse_cons,
        List.append_assoc, List.singleton_append]
    have hreverse : below.reverse.length = below.length := List.length_reverse
    rw [hrowsAbove, hrows, hlength, ← hreverse, ← List.drop_drop,
      List.drop_left, List.drop_one, List.tail_cons, List.reverse_reverse]
  obtain ⟨hreflowed, hreads⟩ := growPushed_foldlM_reads Reflowed.nil
    (fun r hr => hshaped r (List.mem_append_left _ hr)) hg.columns_pos (Nat.le_of_lt hlt) _ h.grown_above
  refine ⟨hsplit, habove, hshaped, hreflowed, hreads (habove ▸ hclean), ?_, ?_, ?_, ?_, h.start_delta⟩
  · rw [hstart]
    exact hunwrap.lines
  · rw [hstart]
    unfold unwrapCursor
    split <;> rfl
  · rw [hstart]
    exact unwrapCursor_pastColumn { g with columns }
  · rw [hstart]
    exact unwrapCursor_needsWrap { g with columns }

theorem GrownStart.cursor {above below : List (Row Cell)} {row : Row Cell} {a b : GrowState Cell}
    (h : GrownStart g columns above below row a) (hg : g.WF) (hlt : g.columns < columns)
    (hb : GrownAt columns row a b) : GrownCursor columns row a b := by
  obtain ⟨hlo, hhi, hcol⟩ := hg.cursor
  have hcolumn : a.grid.cursor.point.column ≤ g.columns := by
    rw [h.column, Cursor.pastColumn]
    split <;> omega
  refine hb.cursor h.reflowed (h.shaped row ?_) hlt (h.line.symm ▸ hlo) ?_ hcolumn h.needsWrap
  · exact List.mem_append_right _ List.mem_cons_self
  · rw [h.line, h.lines]
    exact hhi

theorem GrownStart.pending {above below : List (Row Cell)} {row : Row Cell} {a : GrowState Cell}
    (h : GrownStart g columns above below row a) {last : Row Cell} {rest : List (Row Cell)}
    (hrev : a.reversed = last :: rest) (hshould : shouldReflow true columns last = true) :
    g.pendingAbove % columns = last.len := by
  have hreflowed := h.reflowed
  rw [hrev] at hreflowed
  rw [pendingAbove, ← h.above_eq, ← h.reads, hrev]
  exact hreflowed.pending_mod hshould

theorem GrownStart.not_swallowed {above below : List (Row Cell)} {row : Row Cell} {a : GrowState Cell}
    (h : GrownStart g columns above below row a) (hslip : ¬ g.SwallowsCursor columns) :
    ¬ Swallowed columns g.columns a := by
  rintro ⟨hline, last, rest, hrev, hshould, hle⟩
  have hpending := h.pending hrev hshould
  have hpos := (shouldReflow_iff.mp hshould).1
  exact hslip ⟨h.line ▸ hline, by omega, by omega⟩

/-- What the rows of a grid have become, before the screen is filled. -/
structure GrownEnd (g : Grid Cell) (columns : Nat) (b c : GrowState Cell) : Prop where
  reflowed : Reflowed columns c.reversed
  reads : g.Readable → readRows c.reversed.reverse = readRows g.textRows
  lines : c.grid.lines = g.lines
  delta : c.cursorLineDelta = b.cursorLineDelta
  needsWrap : c.grid.cursor.inputNeedsWrap = b.grid.cursor.inputNeedsWrap
  column : c.grid.cursor.point.column = b.grid.cursor.point.column
  news : ∃ news, c.reversed = news ++ b.reversed.tail ∧ 1 ≤ news.length ∧
    c.grid.below = (news.length : Int) - 1 ∧ g.cursor.point.line ≤ c.grid.cursor.point.line

theorem Grown.end_text {rows above below : List (Row Cell)} {row : Row Cell} {a b c d : GrowState Cell}
    (h : Grown g columns rows above below row a b c d g') (hg : g.WF)
    (hlt : g.columns < columns) (ha : GrownStart g columns above below row a)
    (hslip : ¬ g.SwallowsCursor columns) : GrownEnd g columns b c := by
  have hcursor := ha.cursor hg hlt h.cursor
  have hrow : row.Shaped g.columns := ha.shaped row (List.mem_append_right _ List.mem_cons_self)
  have hbelow : ∀ r ∈ below, r.Shaped g.columns :=
    fun r hr => ha.shaped r (List.mem_append_right _ (List.mem_cons_of_mem _ hr))
  have hle := Nat.le_of_lt hlt
  obtain ⟨hb, hbreads⟩ := hcursor.reads ha.reflowed hrow hg.columns_pos hle (ha.not_swallowed hslip)
  obtain ⟨hc, hcreads⟩ := growPushed_foldlM_reads hb hbelow hg.columns_pos hle _ h.grown_below
  obtain ⟨offset, line, hafter⟩ := h.after
  have hbgrid : b.grid.lines = a.grid.lines ∧ b.grid.cursor.point.line = a.grid.cursor.point.line := by
    cases h.cursor with
    | pushed _ hb => rw [hb]; exact ⟨rfl, rfl⟩
    | pulled _ _ _ _ hgrid _ => rw [hgrid]; exact ⟨rfl, rfl⟩
  obtain ⟨newest, rest, hbrev⟩ : ∃ newest rest, b.reversed = newest :: rest := by
    cases hcursor with
    | pushed _ hb => exact ⟨row, _, by rw [hb]⟩
    | merged _ _ _ _ _ _ hkept => exact ⟨_, _, hkept⟩
    | lifted _ _ _ _ _ _ hkept => exact ⟨_, _, hkept⟩
    | stayed _ _ _ _ hkept => exact ⟨_, _, hkept⟩
    | stuck _ _ _ _ _ hkept => exact ⟨_, _, hkept⟩
  have hgrown := h.grown_below
  rw [hbrev] at hgrown
  obtain ⟨news, hnews, hpos, hlen⟩ := growPushed_foldlM_shape _ hgrown
  have hline := h.after_line
  have hlength := h.length_below
  rw [hbgrid.2, ha.line, hnews, hbrev, List.length_append, List.length_cons] at hline
  have hclines : c.grid.lines = g.lines := by
    rw [hafter]
    exact hbgrid.1.trans ha.lines
  refine ⟨hc, ?_, hclines, h.after_delta, by rw [hafter], by rw [hafter], news, ?_, hpos, ?_, ?_⟩
  · intro hr
    have hclean : ∀ r ∈ row :: below, ∀ n, r.GrowsClean columns n := by
      intro r hr' n k hk
      rw [hr.strayEnd r (by rw [ha.rows]; exact List.mem_append_right _ hr')] at hk
      cases hk
    rw [List.forall_mem_cons] at hclean
    rw [hcreads (EachRow.of_forall hclean.2 _), hbreads (hclean.1 _), ha.reads, ← readRows_concat, ha.rows]
    rw [readRows, readRows, ← Flow.read_append, ← List.map_append, List.append_assoc,
      List.singleton_append]
  · rw [hnews, hbrev, List.tail_cons]
  · simp only [Grid.below] at hlength ⊢
    rw [hclines, hline]
    omega
  · rw [hline]
    omega

/-- Rows of the new width, and the `k` newest of them deleted. -/
structure GrownDone (g : Grid Cell) (columns : Nat) (b c d : GrowState Cell) (k : Nat) : Prop where
  reversed : d.reversed =
    (List.replicate (g.lines - c.reversed.length) (Row.new columns) ++ c.reversed).drop k
  le_delta : k ≤ b.cursorLineDelta
  room : k ≠ 0 → g.cursor.point.line + 1 < g.lines
  needsWrap : d.grid.cursor.inputNeedsWrap = b.grid.cursor.inputNeedsWrap
  column : d.grid.cursor.point.column = b.grid.cursor.point.column
  below : b.cursorLineDelta ≤ 1 →
    (b.cursorLineDelta = 1 → 0 < g.cursor.point.line ∧ b.reversed.tail ≠ []) →
    d.grid.below = (g.lines - c.reversed.length : Nat) + c.grid.below + (b.cursorLineDelta - k : Nat)

theorem GrownEnd.done {b c d : GrowState Cell} (hc : GrownEnd g columns b c) (hg : g.WF)
    (hd : pullDown (fillViewport columns c) = some d) : ∃ k, GrownDone g columns b c d k := by
  obtain ⟨news, hnews, hpos, hbelow, hline⟩ := hc.news
  have hlo := hg.cursor.line_nonneg
  have hlines := hc.lines
  have hlen : c.reversed.length = news.length + b.reversed.tail.length := by
    rw [hnews, List.length_append]
  obtain ⟨hrev, hdelta, hgrid⟩ := fillViewport_spec columns (by omega : 0 ≤ c.grid.cursor.point.line)
  generalize fillViewport columns c = f at *
  rw [hlines] at hrev hgrid
  have hflen : f.reversed.length = g.lines - c.reversed.length + c.reversed.length := by
    rw [hrev, List.length_append, List.length_replicate]
  have hflines : f.grid.lines = g.lines := by
    rw [hgrid]
    exact hlines
  simp only [Grid.below, hlines] at hbelow
  have hfline : f.grid.cursor.point.line =
      c.grid.cursor.point.line - (g.lines - c.reversed.length : Nat) := by
    rw [hgrid]
    simp only
    omega
  obtain ⟨k, hk⟩ := pullDown_spec (by omega) (by omega) (by omega) d hd
  have hfull := hk.full
  have hmost := hk.most
  have hle := hk.le_below
  have hledelta := hk.le_delta
  rw [hdelta, hc.delta] at hmost hledelta
  simp only [Grid.below, hflines] at hmost hle
  rw [hflines] at hfull
  refine ⟨k, ?_, hledelta, ?_, ?_, ?_, ?_⟩
  · rw [hk.reversed, hrev]
  · intro hne
    omega
  · rw [hk.grid, hgrid]
    exact hc.needsWrap
  · rw [hk.grid, hgrid]
    exact hc.column
  · intro hone hlifted
    have htail : b.cursorLineDelta = 1 → 0 < b.reversed.tail.length :=
      fun h => List.length_pos_iff.mpr (hlifted h).2
    have hup : b.cursorLineDelta = 1 → 0 < g.cursor.point.line := fun h => (hlifted h).1
    simp only [Grid.below, hk.grid, hflines, hlines, hdelta, hc.delta]
    omega

/-- Growing keeps the text, except for a row below the cursor that makes room for a
cursor that moves up. -/
theorem growColumns_text (hg : g.WF) (hr : g.Readable) (hlt : g.columns < columns)
    (hslip : ¬ g.SwallowsCursor columns) :
    Allows (g.growColumns true columns) fun g' => ∃ deleted,
      logicalLines (g'.textRows ++ deleted) = logicalLines g.textRows ∧
      (deleted ≠ [] → deleted.length = 1 ∧ g.LiftsCursor columns) := by
  intro g' hg'
  obtain ⟨rows, above, below, row, a, b, c, d, h⟩ := growColumns_grown hg columns g' hg'
  have ha := h.start_text hg hr.narrow hlt (hr.growsClean columns)
  have hcursor := ha.cursor hg hlt h.cursor
  have hc := h.end_text hg hlt ha hslip
  obtain ⟨k, hd⟩ := hc.done hg h.filled
  have hblank : ∀ n, (List.replicate n (Row.new columns : Row Cell)).map (Row.grow · columns) =
      List.replicate n (Row.new columns) := fun n => by
    rw [List.map_replicate, Row.grow, if_pos (Nat.le_of_eq (Row.new_wf columns).len_eq.symm)]
  generalize hall : List.replicate (g.lines - c.reversed.length) (Row.new columns) ++ c.reversed = all
  have hrev := hd.reversed
  rw [hall] at hrev
  refine ⟨((all.take k).map (Row.grow · columns)).reverse, ?_, fun hne => ?_⟩
  · have hrows : (all.map (Row.grow · columns)).reverse =
        (c.reversed.map (Row.grow · columns)).reverse ++
          List.replicate (g.lines - c.reversed.length) (Row.new columns) := by
      rw [← hall, List.map_append, hblank, List.reverse_append, List.reverse_replicate]
    rw [h.result, adoptRows_textRows, hrev, ← List.reverse_append, ← List.map_append,
      List.take_append_drop, hrows, hc.reflowed.logicalLines_grow]
    exact congrArg (fun s => (Flow.close Cell.isEmpty s).rdropWhile List.isEmpty) (hc.reads hr)
  · have hpos : k ≠ 0 := by
      rintro rfl
      exact hne rfl
    have hle := hd.le_delta
    cases hcursor with
    | pushed hno hb =>
        rw [hb, ha.delta] at hle
        omega
    | merged _ _ _ _ _ _ _ hdelta =>
        rw [hdelta, ha.delta] at hle
        omega
    | stayed _ _ _ _ _ hdelta =>
        rw [hdelta, ha.delta] at hle
        omega
    | stuck _ _ _ _ _ _ hdelta =>
        rw [hdelta, ha.delta] at hle
        omega
    | lifted hrev' hshould hp hleft hline hbefore hkept hdelta =>
        rw [hdelta, ha.delta] at hle
        have hpending := ha.pending hrev' hshould
        have hlen := (shouldReflow_iff.mp hshould).1
        have hfree := hp.free
        have hlo := hg.cursor.line_nonneg
        rw [ha.line] at hline
        rw [ha.column] at hbefore
        refine ⟨?_, ⟨by omega, hd.room hpos, by omega, by omega⟩⟩
        rw [List.length_reverse, List.length_map, List.length_take]
        have hnonempty : all ≠ [] := by
          rintro rfl
          simp at hne
        have := List.length_pos_of_ne_nil hnonempty
        omega

/-! ### The place of the cursor -/

/-- The cursor is on the top line of the screen, and its text joins the last row of the
history, or nothing is left of its row. -/
def StrandsCursor (g : Grid Cell) (columns : Nat) : Prop :=
  g.cursor.point.line = 0 ∧ g.pendingAbove % columns ≠ 0 ∧
    (g.pendingAbove % columns + g.cursor.pastColumn < columns ∨
      g.pendingAbove % columns + g.cursor.pastColumn = columns ∧
        ∀ row ∈ g.cursorRow, ∀ cell ∈ row.inner.drop g.cursor.pastColumn, cell.isEmpty = true)

theorem GrownStart.cursorRow {above below : List (Row Cell)} {row : Row Cell} {a : GrowState Cell}
    (h : GrownStart g columns above below row a) (hg : g.WF) : g.cursorRow = some row := by
  obtain ⟨row', below', hrow, -, hrows⟩ := hg.cursorRow
  rw [h.rows, h.above_eq] at hrows
  rw [hrow, (List.cons.inj (List.append_cancel_left hrows)).1]

theorem SwallowsCursor.strands (h : g.SwallowsCursor columns) (hg : g.WF) (hn : g.Narrow) :
    g.StrandsCursor columns := by
  obtain ⟨hline, hpending, hle⟩ := h
  have hpast := hg.pastColumn_le
  refine ⟨hline, hpending, ?_⟩
  rcases Nat.lt_or_eq_of_le (Nat.le_trans (Nat.add_le_add_left hpast _) hle) with hlt | heq
  · exact .inl hlt
  · refine .inr ⟨heq, fun row hrow cell hcell => ?_⟩
    have hlen := (hn.rows hg row (List.mem_of_getElem? hrow)).len_eq
    rw [List.drop_of_length_le (by unfold Row.len at hlen; omega)] at hcell
    exact absurd hcell List.not_mem_nil

theorem GrownStart.not_stuck {above below : List (Row Cell)} {row : Row Cell} {a : GrowState Cell}
    (h : GrownStart g columns above below row a) (hg : g.WF) (hslip : ¬ g.StrandsCursor columns) :
    ¬ Stuck columns row a := by
  rintro ⟨hline, last, last', row', rest, n, hrev, hshould, hp, hbefore⟩
  have hpending := h.pending hrev hshould
  have hpos := (shouldReflow_iff.mp hshould).1
  have hfree := hp.free
  rw [h.line] at hline
  rw [h.column] at hbefore
  refine hslip ⟨hline, by omega, ?_⟩
  rcases hbefore with hlt | ⟨heq, hclear⟩
  · exact .inl (by omega)
  · refine .inr ⟨by omega, fun r hr => ?_⟩
    rw [h.cursorRow hg] at hr
    cases hr
    rw [heq, ← hp.left]
    exact Row.isClear_iff.mp hclear

theorem growColumns_place (hg : g.WF) (hn : g.Narrow) (hlt : g.columns < columns)
    (hclean : g.GrowsClean columns) (hslip : ¬ g.StrandsCursor columns) :
    Allows (g.growColumns true columns) fun g' => g'.cursorPlace = g.cursorPlace := by
  intro g' hg'
  have hg'wf := ((growColumns_returns hg hlt true).of_eq hg').1
  obtain ⟨rows, above, below, row, a, b, c, d, h⟩ := growColumns_grown hg columns g' hg'
  have ha := h.start_text hg hn hlt hclean
  have hcursor := ha.cursor hg hlt h.cursor
  have hc := h.end_text hg hlt ha fun hsw => hslip (hsw.strands hg hn)
  obtain ⟨k, hd⟩ := hc.done hg h.filled
  obtain ⟨news, hnews, hpos, hbelow, hline⟩ := hc.news
  have hplace := hcursor.place ha.needsWrap ha.delta (ha.not_stuck hg hslip)
  have hlift : b.cursorLineDelta ≤ 1 ∧
      (b.cursorLineDelta = 1 → 0 < g.cursor.point.line ∧ b.reversed.tail ≠ []) := by
    cases hcursor with
    | pushed hno hb =>
        rw [hb, ha.delta]
        exact ⟨by decide, fun h => absurd h (by decide)⟩
    | merged _ _ _ _ _ _ _ hdelta =>
        rw [hdelta, ha.delta]
        exact ⟨by decide, fun h => absurd h (by decide)⟩
    | stayed _ _ _ _ _ hdelta =>
        rw [hdelta, ha.delta]
        exact ⟨by decide, fun h => absurd h (by decide)⟩
    | stuck _ _ _ _ _ _ hdelta =>
        rw [hdelta, ha.delta]
        exact ⟨by decide, fun h => absurd h (by decide)⟩
    | lifted _ _ _ _ hline _ hkept hdelta =>
        rw [hdelta, ha.delta, hkept]
        rw [ha.line] at hline
        have hlo := hg.cursor.line_nonneg
        exact ⟨by decide, fun _ => ⟨by omega, List.cons_ne_nil _ _⟩⟩
  have hdbelow := hd.below hlift.1 hlift.2
  have hle := hd.le_delta
  obtain ⟨n, hn, -, habove⟩ := hg'wf.rowsAbove
  have hgrid : g'.below = d.grid.below ∧ g'.cursor = d.grid.cursor := by
    rw [h.result]
    exact ⟨rfl, rfl⟩
  have hrows : g'.raw.rows = d.reversed.map (Row.grow · columns) := by
    have htext : g'.textRows = (d.reversed.map (Row.grow · columns)).reverse := by
      rw [h.result, adoptRows_textRows]
    exact List.reverse_injective htext
  -- The rows above the cursor's row were done when the cursor's row was.
  have hdrop : d.reversed.drop (n + 1) = b.reversed.drop (1 + b.cursorLineDelta) := by
    have hdrev := hd.reversed
    rw [hgrid.1, hdbelow, hbelow] at hn
    generalize g.lines - c.reversed.length = filled at hn hdrev
    rw [hdrev, List.drop_drop, List.drop_append, List.drop_of_length_le (by
      rw [List.length_replicate]; omega), List.nil_append, List.length_replicate, hnews, List.drop_append,
      List.drop_of_length_le (by omega), List.nil_append, ← List.drop_one, List.drop_drop]
    congr 1
    omega
  have hfull : ∀ r ∈ b.reversed.drop (1 + b.cursorLineDelta), wraps r.inner = true → r.len = columns := by
    intro r hr'
    refine hc.reflowed.full r ?_
    rw [hnews, List.tail_append_of_ne_nil (List.ne_nil_of_length_pos hpos)]
    refine List.mem_append_right _ ?_
    rw [← List.drop_drop, List.drop_one] at hr'
    exact List.mem_of_mem_drop hr'
  have hpast : g'.cursor.pastColumn = b.grid.cursor.pastColumn := by
    rw [hgrid.2, Cursor.pastColumn, Cursor.pastColumn, hd.needsWrap, hd.column]
  rw [cursorPlace, cursorPlace, habove, hrows, ← List.map_drop, hdrop, hpast, placeOf,
    readRows_grow hfull, ← placeOf, hplace, ha.column, placeOf, ha.reads, ha.above_eq, placeOf]

end Grid
end Velacritty
