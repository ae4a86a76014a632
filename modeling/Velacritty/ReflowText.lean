import Velacritty.GrownText
import Velacritty.ShrinkText

/-! A resize with reflow keeps the text of a grid. -/
namespace Velacritty
open Fallible
variable {columns : Nat}

namespace Grid
variable {g : Grid Cell}

theorem resize_columns_eq (g : Grid Cell) (reflow : Bool) (columns : Nat) :
    g.resize reflow g.lines columns =
      ({ g with cursor.template := default }).columnsResized reflow columns >>= fun b =>
        some { b with cursor.template := g.cursor.template } := by
  rw [resize_eq]
  simp only [linesResized, lt_irrefl, if_false]
  rfl

/-- A new width keeps the logical lines, except that a narrower grid drops its oldest
rows when the history is full, and a wider one may delete a row below a cursor that
moves to the row above. -/
theorem resize_text (hg : g.WF) (hr : g.Readable) (hc : 2 ≤ columns)
    (hslip : ¬ g.SwallowsCursor columns) :
    Returns (g.resize true g.lines columns) fun g' => ∃ dropped deleted,
      logicalLines (dropped ++ g'.textRows ++ deleted) = logicalLines g.textRows ∧
      (dropped ≠ [] → columns < g.columns ∧ g'.raw.len = g'.maxScrollLimit + g'.lines) ∧
      (deleted ≠ [] → deleted.length = 1 ∧ g.columns < columns ∧ g.LiftsCursor columns) := by
  obtain ⟨g', hg', -⟩ :=
    (resize_returns true hg hg.lines_pos (Nat.le_of_succ_le hc)).returns hc
  refine ⟨g', hg', ?_⟩
  rw [resize_columns_eq, Option.bind_eq_bind, Option.bind_eq_some_iff] at hg'
  obtain ⟨b, hb, hg'⟩ := hg'
  obtain rfl := Option.some.inj hg'
  have hstart : WF { g with cursor.template := default } :=
    ⟨hg.raw, hg.visible, hg.columns_pos, hg.history_le, hg.cursor, hg.savedCursor⟩
  unfold columnsResized at hb
  split at hb
  · next hlt =>
      obtain ⟨deleted, htext, hdeleted⟩ := growColumns_text hstart hr hlt hslip b hb
      refine ⟨[], deleted, htext, fun hne => absurd rfl hne, fun hne => ?_⟩
      obtain ⟨hlen, hlifts⟩ := hdeleted hne
      exact ⟨hlen, hlt, hlifts.line_pos, hlifts.line_lt, hlifts.pending, hlifts.before⟩
  · split at hb
    · next hlt =>
        obtain ⟨st, settled, h⟩ := shrinkColumns_shrunk hstart b hb
        refine ⟨dropped st, [], ?_, fun hne => ⟨hlt, h.full hne⟩, fun hne => absurd rfl hne⟩
        rw [List.append_nil]
        exact h.text hstart hr (Nat.le_of_succ_le hc) (Nat.le_of_lt hlt)
    · obtain rfl := Option.some.inj hb
      refine ⟨[], [], ?_, fun hne => absurd rfl hne, fun hne => absurd rfl hne⟩
      rw [List.append_nil]
      rfl

end Grid

/-! ### Where text is lost -/

def plainRow (text : List Char) (wraps : Bool) : Row Cell :=
  ⟨updateLast (setWrapline wraps) (text.map fun c => { c }), text.length⟩

namespace Grid

/-- A grid of the given rows, the bottommost first, with a history of up to ten lines. -/
def ofRows (lines columns : Nat) (rows : List (Row Cell)) (cursor : Point) (inputNeedsWrap : Bool) :
    Grid Cell where
  cursor := ⟨cursor, default, {}, inputNeedsWrap⟩
  savedCursor := defaultCursor
  raw := ⟨rows, 0, lines, rows.length⟩
  columns
  lines
  displayOffset := 0
  maxScrollLimit := 10
  autoScrollEnabled := true

theorem ofRows_wf {lines columns : Nat} {rows : List (Row Cell)} {cursor : Point} {inputNeedsWrap : Bool}
    (hrows : ∀ r ∈ rows, r.len = columns ∧ r.occ ≤ r.len) (hlines : 1 ≤ lines) (hcolumns : 1 ≤ columns)
    (hlo : lines ≤ rows.length) (hhi : rows.length ≤ lines + 10)
    (hcursor : 0 ≤ cursor.line ∧ cursor.line < lines ∧ cursor.column < columns) :
    (ofRows lines columns rows cursor inputNeedsWrap).WF := by
  refine ⟨⟨⟨?_, ?_, Nat.le_refl _, ?_⟩, hlines, hlo⟩, rfl, hcolumns, hhi, ?_, ?_⟩
  · exact Nat.le_trans hlines hlo
  · exact Nat.le_trans hlines hlo
  · exact fun r hr => ⟨(hrows r hr).1, (hrows r hr).2⟩
  · exact ⟨hcursor.1, hcursor.2.1, hcursor.2.2⟩
  · exact ⟨Int.le_refl 0, Int.ofNat_lt.mpr hlines, hcolumns⟩

def characters (g : Grid Cell) : List (List Char) := (logicalLines g.textRows).map (·.map Cell.c)

/-- The cursor is on `ef`, below `cd` that wraps; `gh` is at the bottom. -/
def liftingGrid : Grid Cell :=
  ofRows 3 2 [plainRow ['g', 'h'] false, plainRow ['e', 'f'] false, plainRow ['c', 'd'] true,
    plainRow [' ', ' '] false] ⟨1, 0⟩ false

/-- The cursor is on `cd` at the top, below `ab` in the history; one line is in all rows. -/
def swallowingGrid : Grid Cell :=
  ofRows 2 2 [plainRow ['e', 'f'] false, plainRow ['c', 'd'] true, plainRow ['a', 'b'] true] ⟨0, 0⟩ false

/-- The wrap flag is not on the last cell of `ab`. -/
def markedGrid : Grid Cell :=
  ofRows 2 3 [plainRow ['c', 'd', ' '] false,
    ⟨(plainRow ['a', 'b'] true).inner ++ [default], 3⟩] ⟨0, 0⟩ false

/-- Text below the cursor is deleted although the history is not full; a line is torn
where the cursor's row goes up into the history; lines are joined at a wrap flag inside
of a row. -/
theorem resize_loses_text :
    (liftingGrid.WF ∧ liftingGrid.Readable ∧
      liftingGrid.characters = [[], ['c', 'd', 'e', 'f'], ['g', 'h']] ∧
      (liftingGrid.resize true 3 3).map (fun g' => (g'.characters, g'.raw.len)) =
        some ([[], ['c', 'd', 'e', 'f']], 3)) ∧
    (swallowingGrid.WF ∧ swallowingGrid.Readable ∧
      swallowingGrid.characters = [['a', 'b', 'c', 'd', 'e', 'f']] ∧
      (swallowingGrid.resize true 2 4).map characters = some [['a', 'b', 'c', 'd'], ['e', 'f']]) ∧
    (markedGrid.WF ∧ (∀ r ∈ markedGrid.textRows, r.Narrow) ∧
      markedGrid.characters = [['a', 'b'], ['c', 'd']] ∧
      (markedGrid.resize true 2 2).map characters = some [['a', 'b', 'c', 'd']]) := by
  refine ⟨⟨?_, by decide, by decide, by decide⟩, ⟨?_, by decide, by decide, by decide⟩,
    ⟨?_, by decide, by decide, by decide⟩⟩
  all_goals exact ofRows_wf (by decide) (by decide) (by decide) (by decide) (by decide) (by decide)

theorem resize_text_lifting : Returns (liftingGrid.resize true 3 3) fun g' => ∃ dropped deleted,
    logicalLines (dropped ++ g'.textRows ++ deleted) = logicalLines liftingGrid.textRows ∧
    (dropped ≠ [] → 3 < 2 ∧ g'.raw.len = g'.maxScrollLimit + g'.lines) ∧
    (deleted ≠ [] → deleted.length = 1 ∧ 2 < 3 ∧ liftingGrid.LiftsCursor 3) :=
  resize_text (ofRows_wf (by decide) (by decide) (by decide) (by decide) (by decide) (by decide))
    (by decide) (by decide) (by decide)

end Grid
end Velacritty
