import Velacritty.ReflowText
import Velacritty.ShrinkCursor

/-! A resize with reflow keeps the cursor on its text. -/
namespace Velacritty
open Fallible
variable {columns : Nat}

instance (columns i len column : Nat) : Decidable (Torn columns i len column) :=
  inferInstanceAs (Decidable (_ ∧ _))

namespace Grid
variable {g : Grid Cell}

instance (g : Grid Cell) (columns : Nat) : Decidable (g.StrandsCursor columns) :=
  inferInstanceAs (Decidable (_ ∧ _))

instance (g : Grid Cell) (columns : Nat) : Decidable (g.TearsCursor columns) :=
  inferInstanceAs (Decidable (∃ row ∈ g.cursorRow, ∃ k ∈ wrapEnd row.inner, Torn _ _ _ _))

instance (g : Grid Cell) (columns : Nat) : Decidable (g.ShrinksClean columns) :=
  inferInstanceAs (Decidable (EachRow _ _ _))

instance (dropped : List (Row Cell)) (g : Grid Cell) (p : Nat × Nat) : Decidable (OnScreen dropped g p) :=
  inferInstanceAs (Decidable (_ ∨ _))

/-- The cursor of the topmost line goes up with text of the history, or it stays behind
the cells that join the next row, or a wrap flag inside of a row above joins that with the
next one. -/
def LosesCursor (g : Grid Cell) (columns : Nat) : Prop :=
  g.columns < columns ∧ (g.StrandsCursor columns ∨ ¬ g.GrowsClean columns) ∨
    columns < g.columns ∧ (g.TearsCursor columns ∨ ¬ g.ShrinksClean columns)

instance (g : Grid Cell) (columns : Nat) : Decidable (g.LosesCursor columns) :=
  inferInstanceAs (Decidable (_ ∨ _))

/-- The rows that are gone from a full history: one with room for them has them above
those of `g'`. -/
def Drops (g : Grid Cell) (columns : Nat) (dropped : List (Row Cell)) (g' : Grid Cell) : Prop :=
  ∀ limit, g.maxScrollLimit ≤ limit → (dropped ++ g'.textRows).length ≤ limit →
    Returns ((g.withLimit limit).resize true g.lines columns) fun whole =>
      whole.textRows = dropped ++ g'.textRows

theorem Shrunk.drops {st : ShrinkState Cell} {settled b : Grid Cell}
    (h : Shrunk { g with cursor.template := default } columns st settled b) (hg : g.WF) (hc : 2 ≤ columns)
    (hlt : columns < g.columns) :
    g.Drops columns (dropped st) { b with cursor.template := g.cursor.template } := by
  intro limit hlimit hroom
  have hstart : WF { g with cursor.template := default } :=
    ⟨hg.raw, hg.visible, hg.columns_pos, hg.history_le, hg.cursor, hg.savedCursor⟩
  obtain ⟨whole, hwhole, -⟩ := (resize_returns true (hg.withLimit hlimit) hg.lines_pos
    (Nat.le_of_succ_le hc)).returns hc
  refine ⟨whole, hwhole, ?_⟩
  have hcolumns := (resize_columns_eq (g.withLimit limit) true columns).symm.trans hwhole
  rw [Option.bind_eq_bind, Option.bind_eq_some_iff] at hcolumns
  obtain ⟨b', hb', hresult⟩ := hcolumns
  obtain rfl := Option.some.inj hresult
  unfold columnsResized at hb'
  split at hb'
  · next hgrow => exact absurd hlt (Nat.lt_asymm hgrow)
  · split at hb'
    · exact h.room hstart hlimit hroom b' hb'
    · next hsame => exact absurd hlt hsame

/-- A new width leaves the cursor in its logical line at its offset, where the text of
that is on the screen. The text is that of the rows with those dropped from a full history
above them. -/
theorem resize_place (hg : g.WF) (hn : g.Narrow) (hc : 2 ≤ columns) (hslip : ¬ g.LosesCursor columns) :
    Returns (g.resize true g.lines columns) fun g' => ∃ dropped,
      (dropped ≠ [] → columns < g.columns ∧ g'.raw.len = g'.maxScrollLimit + g'.lines) ∧
      (columns < g.columns → g.Drops columns dropped g') ∧
      (OnScreen dropped g' g.cursorPlace →
        placeOf (dropped ++ g'.rowsAbove) g'.cursor.pastColumn = g.cursorPlace) := by
  obtain ⟨g', hg', hwf, -⟩ :=
    (resize_returns true hg hg.lines_pos (Nat.le_of_succ_le hc)).returns hc
  refine ⟨g', hg', ?_⟩
  rw [resize_columns_eq, Option.bind_eq_bind, Option.bind_eq_some_iff] at hg'
  obtain ⟨b, hb, hg'⟩ := hg'
  obtain rfl := Option.some.inj hg'
  have hstart : WF { g with cursor.template := default } :=
    ⟨hg.raw, hg.visible, hg.columns_pos, hg.history_le, hg.cursor, hg.savedCursor⟩
  have hbwf : b.WF := ⟨hwf.raw, hwf.visible, hwf.columns_pos, hwf.history_le, hwf.cursor, hwf.savedCursor⟩
  unfold columnsResized at hb
  split at hb
  · next hlt =>
      have hclean : g.GrowsClean columns := by
        by_contra hmixed
        exact hslip (.inl ⟨hlt, .inr hmixed⟩)
      refine ⟨[], fun hne => absurd rfl hne, fun hshrinks => absurd hlt (Nat.lt_asymm hshrinks), fun _ => ?_⟩
      exact growColumns_place hstart hn hlt hclean (fun h => hslip (.inl ⟨hlt, .inl h⟩)) b hb
  · split at hb
    · next hlt =>
        have hclean : g.ShrinksClean columns := by
          by_contra hmixed
          exact hslip (.inr ⟨hlt, .inr hmixed⟩)
        obtain ⟨st, settled, h⟩ := shrinkColumns_shrunk hstart b hb
        refine ⟨dropped st, fun hne => ⟨hlt, h.full hne⟩, h.drops hg hc, fun hscreen => ?_⟩
        exact h.place hstart hn (Nat.le_of_succ_le hc) (Nat.le_of_lt hlt) hclean
          (fun htears => hslip (.inr ⟨hlt, .inl htears⟩)) hbwf hscreen
    · next hsame =>
        obtain rfl := Option.some.inj hb
        exact ⟨[], fun hne => absurd rfl hne, fun hlt => absurd hlt hsame, fun _ => rfl⟩

/-! ### Where the cursor is lost -/

/-- The cursor is on `e`, which joins the row below. -/
def tearingGrid : Grid Cell :=
  ofRows 2 5 [plainRow ['f', 'g', ' ', ' ', ' '] false, plainRow ['a', 'b', 'c', 'd', 'e'] true]
    ⟨0, 4⟩ false

/-- The cursor is on `c` at the top, below `ab` in the history. -/
def strandingGrid : Grid Cell :=
  ofRows 3 2 [plainRow ['g', ' '] false, plainRow ['e', 'f'] true, plainRow ['c', 'd'] false,
    plainRow ['a', 'b'] true] ⟨0, 0⟩ false

/-- The cursor ends up behind `fg`; it ends up below the text it was on. All text is still
there and on the screen. -/
theorem resize_loses_cursor :
    (tearingGrid.WF ∧ tearingGrid.Readable ∧ tearingGrid.cursorPlace = (0, 4) ∧
      ∃ g', tearingGrid.resize true 2 3 = some g' ∧
        g'.characters = tearingGrid.characters ∧ OnScreen [] g' (0, 4) ∧ g'.cursorPlace = (0, 5)) ∧
    (strandingGrid.WF ∧ strandingGrid.Readable ∧ strandingGrid.cursorPlace = (0, 2) ∧
      ∃ g', strandingGrid.resize true 3 4 = some g' ∧
        g'.characters = strandingGrid.characters ∧ OnScreen [] g' (0, 2) ∧ g'.cursorPlace = (0, 5)) := by
  have htearing : ((tearingGrid.resize true 2 3).any fun g' =>
      g'.characters = tearingGrid.characters ∧ OnScreen [] g' (0, 4) ∧ g'.cursorPlace = (0, 5)) = true := by
    decide
  have hstranding : ((strandingGrid.resize true 3 4).any fun g' =>
      g'.characters = strandingGrid.characters ∧ OnScreen [] g' (0, 2) ∧ g'.cursorPlace = (0, 5)) = true := by
    decide
  rw [Option.any_eq_true] at htearing hstranding
  refine ⟨⟨?_, by decide, by decide, ?_⟩, ⟨?_, by decide, by decide, ?_⟩⟩
  · exact ofRows_wf (by decide) (by decide) (by decide) (by decide) (by decide) (by decide)
  · exact htearing.imp fun g' h => ⟨h.1, of_decide_eq_true h.2⟩
  · exact ofRows_wf (by decide) (by decide) (by decide) (by decide) (by decide) (by decide)
  · exact hstranding.imp fun g' h => ⟨h.1, of_decide_eq_true h.2⟩

/-- The wrap flag of `f` is inside of its row; the cursor is on `g`, and `a` in the full
history. -/
def flaggedGrid : Grid Cell :=
  (ofRows 2 4 [plainRow ['g', 'h', 'i', 'j'] false,
    ⟨(plainRow ['f'] true).inner ++ [default, default, default], 4⟩, plainRow ['b', 'c', 'd', 'e'] true,
    plainRow ['a', ' ', ' ', ' '] false] ⟨1, 0⟩ false).withLimit 2

theorem flaggedGrid_wf : flaggedGrid.WF := by
  have hwf : (ofRows 2 4 flaggedGrid.raw.inner ⟨1, 0⟩ false).WF :=
    ofRows_wf (by decide) (by decide) (by decide) (by decide) (by decide) (by decide)
  exact ⟨hwf.raw, hwf.visible, hwf.columns_pos, by decide, hwf.cursor, hwf.savedCursor⟩

theorem resize_place_flagged :
    (Returns (flaggedGrid.resize true 2 3) fun g' => ∃ dropped,
      (dropped ≠ [] → 3 < 4 ∧ g'.raw.len = g'.maxScrollLimit + g'.lines) ∧
      (3 < 4 → flaggedGrid.Drops 3 dropped g') ∧
      (OnScreen dropped g' (2, 0) → placeOf (dropped ++ g'.rowsAbove) g'.cursor.pastColumn = (2, 0))) ∧
    Returns (flaggedGrid.resize true 2 6) fun g' => ∃ dropped,
      (dropped ≠ [] → 6 < 4 ∧ g'.raw.len = g'.maxScrollLimit + g'.lines) ∧
      (6 < 4 → flaggedGrid.Drops 6 dropped g') ∧
      (OnScreen dropped g' (2, 0) → placeOf (dropped ++ g'.rowsAbove) g'.cursor.pastColumn = (2, 0)) :=
  ⟨resize_place flaggedGrid_wf (by decide) (by decide) (by decide),
    resize_place flaggedGrid_wf (by decide) (by decide) (by decide)⟩

end Grid
end Velacritty
