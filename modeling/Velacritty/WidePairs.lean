import Velacritty.HalvedRuns
import Velacritty.Halves
import Velacritty.ScrollLines

/-! Printing keeps the halves of fullwidth characters together. -/
namespace Velacritty
open Fallible

namespace Point

/-- The place right of a place. -/
def beside (p : Point) : Point := ⟨p.line, p.column + 1⟩

theorem beside_injective : Function.Injective beside := by
  intro p q hpq
  obtain ⟨hline, hcolumn⟩ := Point.mk.inj hpq
  cases p
  cases q
  simp only at hline hcolumn
  rw [hline, Nat.succ.inj hcolumn]

theorem beside_ne (p : Point) : p.beside ≠ p := fun heq =>
  absurd (congrArg column heq) (Nat.succ_ne_self _)

end Point

/-! ### Halves of a grid -/

namespace Grid
variable {g g' : Grid Cell} {p q : Point}

/-- On every row, a cell has a fullwidth character if and only if the next cell exists and is
its spacer. -/
def WidePaired (g : Grid Cell) : Prop :=
  ∀ p cell, g.cellAt p = some cell → (cell.flags.wideChar = true ↔
    ∃ next, g.cellAt ⟨p.line, p.column + 1⟩ = some next ∧ next.flags.wideCharSpacer = true)

def halves (g : Grid Cell) : Halves Point where
  first p := ∃ cell, g.cellAt p = some cell ∧ cell.flags.wideChar = true
  second p := ∃ cell, g.cellAt p = some cell ∧ cell.flags.wideCharSpacer = true

theorem exists_cellAt_of_beside {next : Cell} (h : g.cellAt p.beside = some next) :
    ∃ cell, g.cellAt p = some cell := by
  simp only [cellAt, Point.beside, Option.bind_eq_bind, Option.bind_eq_some_iff] at h ⊢
  obtain ⟨row, hrow, hnext⟩ := h
  have hlt := (List.getElem?_eq_some_iff.mp hnext).1
  exact ⟨_, row, hrow, List.getElem?_eq_getElem (Nat.lt_of_succ_lt hlt)⟩

theorem widePaired_iff : g.WidePaired ↔ g.halves.Matched Point.beside := by
  constructor
  · intro h p
    constructor
    · rintro ⟨cell, hcell, hwide⟩
      exact (h p cell hcell).mp hwide
    · rintro ⟨next, hnext, hspacer⟩
      obtain ⟨cell, hcell⟩ := exists_cellAt_of_beside hnext
      exact ⟨cell, hcell, (h p cell hcell).mpr ⟨next, hnext, hspacer⟩⟩
  · intro h p cell hcell
    constructor
    · intro hwide
      exact (h p).mp ⟨cell, hcell, hwide⟩
    · intro hnext
      obtain ⟨cell', hcell', hwide⟩ := (h p).mpr hnext
      cases hcell.symm.trans hcell'
      exact hwide

theorem halves_congr (h : ∀ p, g'.cellAt p = g.cellAt p) : g'.halves = g.halves := by
  ext p
  · simp only [halves, h]
  · simp only [halves, h]

theorem halves_of_raw (h : g'.raw = g.raw) : g'.halves = g.halves :=
  halves_congr fun p => by simp only [cellAt, h]

theorem exists_of_modifyCell {f : Cell → Cell} (h : g.WF) (hg : g.modifyCell p f = some g') :
    ∃ cell, g.cellAt p = some cell ∧ g'.cellAt p = some (f cell) := by
  obtain ⟨hself, -⟩ := modifyCell_get h hg
  simp only [modifyCell, Option.bind_eq_bind, Option.bind_eq_some_iff] at hg
  obtain ⟨raw, hraw, -⟩ := hg
  obtain ⟨⟨r, r', hr, hr', -⟩, -⟩ := Storage.modify_get h.raw hraw
  unfold Row.modify at hr'
  split at hr'
  · next hlt =>
      have hcell : g.cellAt p = some r.inner[p.column] := by
        simp only [cellAt, hr, Option.bind_eq_bind, Option.bind_some]
        exact List.getElem?_eq_getElem hlt
      rw [hcell] at hself
      exact ⟨_, hcell, hself⟩
  · cases hr'

/-! An update changes the halves of its cell at most. -/

section
variable {f : Cell → Cell} (h : g.WF) (hg : g.modifyCell p f = some g')
include h hg

section
variable {P : Cell → Prop}

theorem some_of_modifyCell : ∃ cell, g.cellAt p = some cell ∧ ∀ q,
    (∃ c, g'.cellAt q = some c ∧ P c) ↔
      q = p ∧ P (f cell) ∨ q ≠ p ∧ ∃ c, g.cellAt q = some c ∧ P c := by
  obtain ⟨cell, hcell, hself⟩ := exists_of_modifyCell h hg
  obtain ⟨-, hother⟩ := modifyCell_get h hg
  refine ⟨cell, hcell, fun q => ?_⟩
  by_cases hq : q = p
  · subst hq
    simp only [hself, Option.some.injEq, exists_eq_left', true_and, ne_eq, not_true_eq_false,
      false_and, or_false]
  · simp only [hother q hq, hq, false_and, false_or, ne_eq, not_false_eq_true, true_and]

theorem some_of_kept (hf : ∀ cell, P (f cell) ↔ P cell) (q : Point) :
    (∃ c, g'.cellAt q = some c ∧ P c) ↔ ∃ c, g.cellAt q = some c ∧ P c := by
  obtain ⟨cell, hcell, hsome⟩ := some_of_modifyCell (P := P) h hg
  rw [hsome, hf]
  by_cases hq : q = p
  · simp only [hq, hcell, Option.some.injEq, exists_eq_left', true_and, ne_eq, not_true_eq_false,
      false_and, or_false]
  · simp only [hq, false_and, false_or, ne_eq, not_false_eq_true, true_and]

theorem some_of_cleared (hf : ∀ cell, ¬ P (f cell)) (q : Point) :
    (∃ c, g'.cellAt q = some c ∧ P c) ↔ (∃ c, g.cellAt q = some c ∧ P c) ∧ q ≠ p := by
  obtain ⟨cell, -, hsome⟩ := some_of_modifyCell (P := P) h hg
  rw [hsome, and_comm (b := q ≠ p)]
  simp only [hf, and_false, false_or]

end

theorem first_of_kept (hf : ∀ cell, (f cell).flags.wideChar = cell.flags.wideChar) (q : Point) :
    g'.halves.first q ↔ g.halves.first q :=
  some_of_kept h hg (fun cell => by rw [hf]) q

theorem second_of_kept (hf : ∀ cell, (f cell).flags.wideCharSpacer = cell.flags.wideCharSpacer)
    (q : Point) : g'.halves.second q ↔ g.halves.second q :=
  some_of_kept h hg (fun cell => by rw [hf]) q

theorem first_of_cleared (hf : ∀ cell, (f cell).flags.wideChar = false) (q : Point) :
    g'.halves.first q ↔ g.halves.first q ∧ q ≠ p :=
  some_of_cleared h hg (fun cell => Bool.eq_false_iff.mp (hf cell)) q

theorem second_of_cleared (hf : ∀ cell, (f cell).flags.wideCharSpacer = false) (q : Point) :
    g'.halves.second q ↔ g.halves.second q ∧ q ≠ p :=
  some_of_cleared h hg (fun cell => Bool.eq_false_iff.mp (hf cell)) q

end

/-! ### Scrolling -/

theorem reset_occ {r r' : Row Cell} {template : Cell} (h : r.reset template = some r') : r'.occ = 0 := by
  simp only [Row.reset, Option.bind_eq_bind, Option.bind_eq_some_iff, ite_eq_iff, reduceCtorEq,
    and_false, or_false, Option.some.injEq] at h
  obtain ⟨-, -, -, rfl⟩ := h
  rfl

theorem LinesUp.source {start stop : Int} {positions : Nat} (h : LinesUp start stop positions g g')
    (hwf : g'.WF) {line : Int} {row : Row Cell} (hrow : g'.raw.get line = some row) :
    (∃ source, g.raw.get source = some row) ∨ row.occ = 0 := by
  have hline := Storage.hasLine_of_get hrow
  have hlines := h.screen.lines
  have hvisible := hwf.visible
  have hsize : g'.historySize = g'.raw.len - g'.lines := g'.historySize_eq
  obtain ⟨hlo, hhi⟩ := hline
  by_cases hhistory : line < 0
  · exact .inl ⟨_, (h.history line (by omega) hhistory).symm.trans hrow⟩
  · by_cases hregion : start ≤ line ∧ line < stop
    · by_cases hmoved : line < stop - positions
      · exact .inl ⟨_, (h.moved line hregion.1 hmoved).symm.trans hrow⟩
      · obtain ⟨row', hrow', old, -, hreset⟩ := h.cleared line hregion.1 (by omega) hregion.2
        cases hrow.symm.trans hrow'
        exact .inr (reset_occ hreset)
    · exact .inl ⟨_, (h.fixed line (by omega) (by omega) (by omega)).symm.trans hrow⟩

theorem LinesUp.widePaired {start stop : Int} {positions : Nat}
    (h : LinesUp start stop positions g g') (hwf : g'.WF) (hg : g.WidePaired)
    (hrows : g'.raw.Holds Row.Halved) : g'.WidePaired := by
  intro p cell hcell
  simp only [cellAt, Option.bind_eq_bind, Option.bind_eq_some_iff] at hcell
  obtain ⟨row, hrow, hcell⟩ := hcell
  have hnext : g'.cellAt ⟨p.line, p.column + 1⟩ = row.get (p.column + 1) := by
    simp only [cellAt, hrow, Option.bind_eq_bind, Option.bind_some]
  rw [hnext]
  rcases h.source hwf hrow with ⟨source, hsource⟩ | hocc
  · have hold : ∀ column, g.cellAt ⟨source, column⟩ = row.get column := fun column => by
      simp only [cellAt, hsource, Option.bind_eq_bind, Option.bind_some]
    rw [← hold]
    exact hg ⟨source, p.column⟩ cell ((hold _).trans hcell)
  · have hplain : ∀ column c, row.get column = some c → c.Plain := by
      intro column c hc
      refine (hrows.get row hrow).unwritten.rest c ?_
      rw [hocc, List.drop_zero]
      exact List.mem_of_getElem? hc
    constructor
    · intro hwide
      exact absurd ((hplain _ _ hcell).wideChar.symm.trans hwide) Bool.false_ne_true
    · rintro ⟨next, hget, hspacer⟩
      exact absurd ((hplain _ _ hget).spacer.symm.trans hspacer) Bool.false_ne_true

end Grid

/-! ### Wrapping -/

namespace Term
variable {t t' : Term} {env : Env}

/-- What printing keeps: halves are matched, and only cells that were written are halves. -/
structure Coupled (t : Term) : Prop where
  wf : t.WF
  stocked : t.Stocked Row.Halved
  paired : t.grid.WidePaired

theorem damageCursor_coupled (h : t.Coupled) : Allows t.damageCursor Coupled := by
  intro t' ht'
  have hdamaged := ((damageCursor_returns h.wf.damage h.wf.grid.cursor).of_eq ht').1
  refine ⟨(hdamaged.drawn (S := fun _ => False) h.wf.grid).toEdited.wf h.wf,
    h.stocked.damageCursor t' ht', ?_⟩
  rw [hdamaged.grid]
  exact h.paired

theorem Coupled.withCursor (h : t.Coupled) (cursor : Cursor Cell)
    (hc : Grid.InScreen t.grid.lines t.grid.columns cursor.point) (hplain : cursor.template.Plain) :
    (t.withCursor cursor).Coupled :=
  ⟨(withCursor_edited (S := fun _ => False) h.wf cursor hc).wf h.wf, h.stocked.cursor hplain, h.paired⟩

theorem linefeed_coupled (h : t.Coupled) : Allows t.linefeed Coupled := by
  intro t' ht'
  have hstocked := h.stocked.linefeed Row.halved_kept t' ht'
  cases (linefeed_returns h.wf).of_eq ht' with
  | scrolled _ hup =>
      have hle := h.wf.region.start_le
      have hlines := (Grid.scrollUp_lines h.wf.grid (h.wf.inRegion h.wf.region.start_nonneg hle)
        (by unfold scrollSize; omega)).of_eq hup.grid
      exact ⟨hup.wf, hstocked, hlines.widePaired hup.wf.grid h.paired hstocked.grid.rows⟩
  | moved _ hmoved _ =>
      refine ⟨hmoved.toEdited.wf h.wf, hstocked, Grid.widePaired_iff.mpr ?_⟩
      rw [Grid.halves_congr fun p => hmoved.toEdited.cells p id]
      exact Grid.widePaired_iff.mp h.paired
  | stuck _ _ heq => exact heq ▸ h

theorem modifyCell_drawn (h : t.WF) {p : Point} {f : Cell → Cell} :
    Allows (t.modifyCell p f) (Drawn (· = p) t) := by
  intro t' ht'
  obtain ⟨g, hg, -⟩ := Option.bind_eq_some_iff.mp ht'
  obtain ⟨cell, hcell, -⟩ := Grid.exists_of_modifyCell h.grid hg
  obtain ⟨hlo, hhi, hc⟩ := Grid.inGrid_of_cellAt h.grid hcell
  exact ((modifyCell_returns h hlo hhi hc f).of_eq ht').1

theorem modifyCell_halves_same (h : t.WF) {p : Point} {f : Cell → Cell}
    (hf : ∀ cell, (f cell).flags.wideChar = cell.flags.wideChar ∧
      (f cell).flags.wideCharSpacer = cell.flags.wideCharSpacer) :
    Allows (t.modifyCell p f) fun t' => t'.grid.halves = t.grid.halves := by
  intro t' ht'
  obtain ⟨g, hg, hg'⟩ := Option.bind_eq_some_iff.mp ht'
  cases hg'
  ext q
  · exact Grid.first_of_kept h.grid hg (fun cell => (hf cell).1) q
  · exact Grid.second_of_kept h.grid hg (fun cell => (hf cell).2) q

/-- An update of a cell that leaves it the half it is. -/
theorem modifyCell_coupled (h : t.Coupled) {p : Point} {f : Cell → Cell}
    (hf : ∀ cell, (f cell).flags.wideChar = cell.flags.wideChar ∧
      (f cell).flags.wideCharSpacer = cell.flags.wideCharSpacer) :
    Allows (t.modifyCell p f) fun t' => t'.Coupled ∧ t'.grid.cursor = t.grid.cursor := by
  intro t' ht'
  have hkeeps : Cell.KeepsHalves f := fun cell =>
    ⟨fun hspacer => (hf cell).2 ▸ hspacer, fun hwide => (hf cell).1 ▸ hwide⟩
  have hdrawn := modifyCell_drawn h.wf t' ht'
  have hstocked := h.stocked.modifyCell Row.halved_kept hkeeps t' ht'
  refine ⟨⟨hdrawn.toEdited.wf h.wf, hstocked, Grid.widePaired_iff.mpr ?_⟩, hdrawn.cursor⟩
  rw [modifyCell_halves_same h.wf hf t' ht']
  exact Grid.widePaired_iff.mp h.paired

theorem wrapline_coupled (h : t.Coupled) : Allows t.wrapline Coupled := by
  unfold wrapline
  split
  · refine (modifyCell_coupled (f := setWrapline true) h fun _ => ⟨rfl, rfl⟩).bind fun a ha => ?_
    obtain ⟨ha, -⟩ := ha
    refine Allows.bind (P := Coupled) ?_ fun b hb => ?_
    · split
      · exact linefeed_coupled ha
      · next hlt =>
          refine Allows.bind (P := fun b => b.Coupled ∧ b.grid = a.grid) (fun b hb => ?_) fun b hb => ?_
          · exact ⟨damageCursor_coupled ha b hb, damageCursor_grid b hb⟩
          · obtain ⟨hb, hgrid⟩ := hb
            have hlo := ha.wf.grid.cursor.line_nonneg
            have hstop := ha.wf.region.stop_le
            refine .pure (hb.withCursor { b.grid.cursor with
              point := ⟨b.grid.cursor.point.line + 1, b.grid.cursor.point.column⟩ } ?_
                hb.stocked.grid.template)
            rw [hgrid]
            exact ⟨by simp only; omega, by simp only; omega, ha.wf.grid.cursor.column_lt⟩
    · refine damageCursor_coupled (hb.withCursor { b.grid.cursor with
        point := ⟨b.grid.cursor.point.line, 0⟩, inputNeedsWrap := false } ?_ hb.stocked.grid.template)
      exact ⟨hb.wf.grid.cursor.line_nonneg, hb.wf.grid.cursor.line_lt, hb.wf.grid.columns_pos⟩
  · exact .pure h

/-! ### Writing -/

/-- All halves but those of `p` are as overwriting `p` leaves them. -/
def ClearedFor (p : Point) (t t' : Term) : Prop := ∀ q, q ≠ p →
  (t'.grid.halves.first q ↔
    t.grid.halves.first q ∧ ¬ (t.grid.halves.second p ∧ q.beside = p)) ∧
  (t'.grid.halves.second q ↔
    t.grid.halves.second q ∧ ¬ (t.grid.halves.first p ∧ q = p.beside))

theorem cell_single (hs : t.grid.raw.Holds Row.Halved) {p : Point} {cell : Cell}
    (hcell : t.grid.cellAt p = some cell) : cell.Single := by
  simp only [Grid.cellAt, Option.bind_eq_bind, Option.bind_eq_some_iff] at hcell
  obtain ⟨row, hrow, hcell⟩ := hcell
  exact (hs.get row hrow).single cell (List.mem_of_getElem? hcell)

theorem lastColumn_not_first (h : t.WF) {p : Point} (ha : t.grid.halves.Awaits Point.beside p)
    (hlast : t.lastColumn ≤ p.column) : ¬ t.grid.halves.first p := by
  intro hfirst
  obtain ⟨next, hnext, -⟩ := (ha.others p p.beside_ne).mp hfirst
  obtain ⟨-, -, hlt⟩ := Grid.inGrid_of_cellAt h.grid hnext
  have hcolumns := lastColumn_eq t
  simp only [Point.beside] at hlt
  omega

theorem clearOtherHalf_halves (h : t.WF) (hs : t.grid.raw.Holds Row.Halved) {cell : Cell}
    (ha : t.grid.halves.Awaits Point.beside t.grid.cursor.point)
    (hcell : t.grid.cellAt t.grid.cursor.point = some cell)
    (hhalf : (cell.flags.wideChar || cell.flags.wideCharSpacer) = true) :
    Allows (t.clearOtherHalf cell) (ClearedFor t.grid.cursor.point t) := by
  generalize hp : t.grid.cursor.point = p at ha hcell
  have hfirst : t.grid.halves.first p ↔ cell.flags.wideChar = true := by
    simp only [Grid.halves, hcell, Option.some.injEq, exists_eq_left']
  have hsecond : t.grid.halves.second p ↔ cell.flags.wideCharSpacer = true := by
    simp only [Grid.halves, hcell, Option.some.injEq, exists_eq_left']
  simp only [clearOtherHalf, hp]
  split
  · next hwide =>
      -- A character whose spacer goes; it is no spacer itself.
      intro t' ht'
      obtain ⟨g, hg, hg'⟩ := Option.bind_eq_some_iff.mp ht'
      cases hg'
      have hno : ¬ t.grid.halves.second p := fun hspacer => by
        have hsingle := cell_single hs hcell (hsecond.mp hspacer)
        exact Bool.false_ne_true (hsingle.symm.trans hwide.1)
      refine fun q _ => ⟨?_, ?_⟩
      · rw [Grid.first_of_kept h.grid hg (fun _ => rfl)]
        simp only [hno, false_and, not_false_eq_true, and_true]
      · rw [Grid.second_of_cleared h.grid hg (fun _ => rfl)]
        simp only [hfirst, hwide.1, true_and, Point.beside, ne_eq]
  · next hwide =>
      have hno : ¬ t.grid.halves.first p := fun hf => by
        refine lastColumn_not_first h ha (Nat.not_lt.mp fun hlt => ?_) hf
        exact hwide ⟨hfirst.mp hf, hlt⟩
      have hspacer : t.grid.halves.second p := by
        rw [hsecond]
        rw [Bool.or_eq_true] at hhalf
        exact hhalf.resolve_left fun hw => hno (hfirst.mpr hw)
      split
      · next hpos =>
          intro t' ht'
          obtain ⟨g, hg, hg'⟩ := Option.bind_eq_some_iff.mp ht'
          cases hg'
          have hleft : ∀ q : Point, q.beside = p ↔ q = ⟨p.line, p.column - 1⟩ := by
            intro q
            constructor
            · rintro rfl
              rfl
            · rintro rfl
              simp only [Point.beside, Nat.sub_add_cancel hpos]
          refine fun q _ => ⟨?_, ?_⟩
          · rw [Grid.first_of_cleared h.grid hg (fun _ => rfl)]
            simp only [hspacer, true_and, hleft, ne_eq]
          · rw [Grid.second_of_kept h.grid hg (fun _ => rfl)]
            simp only [hno, false_and, not_false_eq_true, and_true]
      · next hzero =>
          have hleft : ∀ q : Point, q.beside ≠ p := by
            rintro q rfl
            exact hzero (Nat.succ_pos _)
          refine .pure fun q _ => ⟨?_, ?_⟩
          · simp only [hleft, and_false, not_false_eq_true, and_true]
          · simp only [hno, false_and, not_false_eq_true, and_true]

theorem clearRelated_halves (h : t.WF) (hs : t.grid.raw.Holds Row.Halved)
    (ha : t.grid.halves.Awaits Point.beside t.grid.cursor.point) :
    Allows t.clearRelated (ClearedFor t.grid.cursor.point t) := by
  intro t' ht'
  simp only [clearRelated, Option.bind_eq_bind, Option.bind_eq_some_iff] at ht'
  obtain ⟨cell, hcell, ht'⟩ := ht'
  split at ht'
  · next hhalf =>
      simp only [Option.bind_eq_some_iff] at ht'
      obtain ⟨a, ha', ht'⟩ := ht'
      have hcleared := clearOtherHalf_halves h hs ha hcell hhalf a ha'
      have hwf := ((clearOtherHalf_returns h hcell ⟨cell, hcell, hhalf⟩).of_eq ha').1.toEdited.wf h
      have hsame : t'.grid.halves = a.grid.halves := by
        simp only [clearLeadingSpacer] at ht'
        split at ht'
        · refine modifyCell_halves_same hwf (fun cell => ?_) t' ht'
          exact ⟨rfl, rfl⟩
        · cases ht'
          rfl
      unfold ClearedFor
      rw [hsame]
      exact hcleared
  · next hhalf =>
      cases ht'
      rw [Bool.or_eq_true, not_or] at hhalf
      have hfirst : ¬ t.grid.halves.first t.grid.cursor.point := by
        rintro ⟨cell', hcell', hwide⟩
        cases hcell.symm.trans hcell'
        exact hhalf.1 hwide
      have hsecond : ¬ t.grid.halves.second t.grid.cursor.point := by
        rintro ⟨cell', hcell', hspacer⟩
        cases hcell.symm.trans hcell'
        exact hhalf.2 hspacer
      refine fun q _ => ⟨?_, ?_⟩
      · simp only [hsecond, false_and, not_false_eq_true, and_true]
      · simp only [hfirst, false_and, not_false_eq_true, and_true]

theorem writeAtCursor_halves (h : t.WF) (hs : t.grid.raw.Holds Row.Halved)
    (ha : t.grid.halves.Awaits Point.beside t.grid.cursor.point) (c : Char) :
    Allows (t.writeAtCursor env c) fun t' => t'.grid.halves =
      t.grid.halves.overwrite Point.beside t.grid.cursor.point
        (t.grid.cursor.template.flags.wideChar = true)
        (t.grid.cursor.template.flags.wideCharSpacer = true) := by
  simp only [writeAtCursor]
  refine Allows.bind (P := fun a => (a.WF ∧ a.grid.cursor = t.grid.cursor) ∧
    ClearedFor t.grid.cursor.point t a) (fun a ha' => ?_) fun a ha' => ?_
  · have hdrawn := ((clearRelated_returns h).of_eq ha').1
    exact ⟨⟨hdrawn.toEdited.wf h, hdrawn.cursor⟩, clearRelated_halves h hs ha a ha'⟩
  · obtain ⟨⟨hwf, hcursor⟩, hcleared⟩ := ha'
    intro t' ht'
    rw [hcursor] at ht'
    obtain ⟨g, hg, hg'⟩ := Option.bind_eq_some_iff.mp ht'
    cases hg'
    obtain ⟨-, -, hfirst⟩ := Grid.some_of_modifyCell (P := (·.flags.wideChar = true)) hwf.grid hg
    obtain ⟨-, -, hsecond⟩ :=
      Grid.some_of_modifyCell (P := (·.flags.wideCharSpacer = true)) hwf.grid hg
    ext q
    · refine (hfirst q).trans ?_
      exact or_congr_right (and_congr_right fun hq => (hcleared q hq).1)
    · refine (hsecond q).trans ?_
      exact or_congr_right (and_congr_right fun hq => (hcleared q hq).2)

theorem writeAtCursor_coupled (h : t.Coupled) (c : Char) :
    Allows (t.writeAtCursor env c) fun t' => t'.Coupled ∧ t'.grid.cursor = t.grid.cursor := by
  intro t' ht'
  have hplain := h.stocked.grid.template
  have hmatched := Grid.widePaired_iff.mp h.paired
  have hdrawn := ((writeAtCursor_returns env h.wf c).of_eq ht').1
  obtain ⟨raw, hraw, rfl⟩ := writeAtCursor_rehalved h.stocked.grid.rows hplain.single c t' ht'
  refine ⟨⟨hdrawn.toEdited.wf h.wf, h.stocked.raw hraw, Grid.widePaired_iff.mpr ?_⟩, rfl⟩
  rw [writeAtCursor_halves h.wf h.stocked.grid.rows (hmatched.awaits _) c _ ht', hplain.wideChar,
    hplain.spacer]
  simp only [Bool.false_eq_true]
  exact hmatched.overwrite_none Point.beside_injective Point.beside_ne

theorem writeMarked_halves (h : t.WF) (hs : t.grid.raw.Holds Row.Halved)
    (ha : t.grid.halves.Awaits Point.beside t.grid.cursor.point) (mark : Bool → Flags → Flags)
    (c : Char) : Allows (t.writeMarked env mark c) fun t' => t'.grid.halves =
      t.grid.halves.overwrite Point.beside t.grid.cursor.point
        ((mark true t.grid.cursor.template.flags).wideChar = true)
        ((mark true t.grid.cursor.template.flags).wideCharSpacer = true) := by
  simp only [writeMarked]
  have hmarked := (withCursor_edited (S := fun _ => False) h { t.grid.cursor with
    template.flags := mark true t.grid.cursor.template.flags } h.grid.cursor).wf h
  exact (writeAtCursor_halves hmarked hs ha c).bind fun a ha' => .pure ha'

/-- A placeholder is no half either. -/
theorem writeLeading_coupled (h : t.Coupled) (c : Char) :
    Allows (t.writeMarked env (fun b f => { f with leadingWideCharSpacer := b }) c) Coupled := by
  intro t' ht'
  have hplain := h.stocked.grid.template
  have hmatched := Grid.widePaired_iff.mp h.paired
  have hedited := ((writeMarked_returns env h.wf _ c).of_eq ht').1
  refine ⟨hedited.wf h.wf, writeMarked_halved h.stocked c (fun _ => hplain.wideChar)
    ⟨hplain.wideChar, hplain.spacer⟩ t' ht', Grid.widePaired_iff.mpr ?_⟩
  rw [writeMarked_halves h.wf h.stocked.grid.rows (hmatched.awaits _) _ c t' ht']
  simp only [hplain.wideChar, hplain.spacer, Bool.false_eq_true]
  exact hmatched.overwrite_none Point.beside_injective Point.beside_ne

theorem advanceCursor_coupled (h : t.Coupled) : t.advanceCursor.Coupled := by
  refine ⟨(advanceCursor_edited (S := fun _ => False) h.wf).1.wf h.wf, h.stocked.advanceCursor, ?_⟩
  have hraw : t.advanceCursor.grid.raw = t.grid.raw := by
    unfold advanceCursor
    split
    · rfl
    · rfl
  rw [Grid.widePaired_iff, Grid.halves_of_raw hraw]
  exact Grid.widePaired_iff.mp h.paired

theorem writeWide_coupled (h : t.Coupled) (hroom : t.grid.cursor.point.column + 1 < t.grid.columns)
    (c : Char) : Allows (t.writeWide env c) Coupled := by
  have hplain := h.stocked.grid.template
  have hmatched := Grid.widePaired_iff.mp h.paired
  intro t' ht'
  simp only [writeWide, Option.bind_eq_bind, Option.bind_eq_some_iff, Option.some.injEq] at ht'
  obtain ⟨a, ha, b, hb, rfl⟩ := ht'
  obtain ⟨hedited, hpoint, -⟩ := (writeMarked_returns env h.wf _ c).of_eq ha
  have hstocked := writeMarked_halved h.stocked c
    (fun hspacer => absurd (hplain.spacer.symm.trans hspacer) Bool.false_ne_true)
    ⟨rfl, hplain.spacer⟩ a ha
  have hhalves := writeMarked_halves h.wf h.stocked.grid.rows (hmatched.awaits _) _ c a ha
  simp only [hplain.spacer, Bool.false_eq_true] at hhalves
  have hawaits := hmatched.overwrite_first (p := t.grid.cursor.point) Point.beside_injective
    Point.beside_ne
  have hboth := hmatched.overwrite_both (p := t.grid.cursor.point) Point.beside_injective
    Point.beside_ne
  rw [← hhalves] at hawaits hboth
  have hwf := hedited.wf h.wf
  have hmoved : (a.setColumn (a.grid.cursor.point.column + 1)).WF := by
    refine (withCursor_edited (S := fun _ => False) hwf { a.grid.cursor with
      point := a.grid.cursor.point.beside } ?_).wf hwf
    rw [hpoint, hedited.lines, hedited.columns]
    exact ⟨h.wf.grid.cursor.line_nonneg, h.wf.grid.cursor.line_lt, hroom⟩
  have hnext := hstocked.setColumn (a.grid.cursor.point.column + 1)
  have hbeside : (a.setColumn (a.grid.cursor.point.column + 1)).grid.cursor.point =
      t.grid.cursor.point.beside := congrArg Point.beside hpoint
  refine advanceCursor_coupled ⟨((writeMarked_returns env hmoved _ ' ').of_eq hb).1.wf hmoved,
    writeMarked_halved hnext ' ' (fun _ => hnext.grid.template.wideChar)
      ⟨hnext.grid.template.wideChar, rfl⟩ b hb, Grid.widePaired_iff.mpr ?_⟩
  rw [writeMarked_halves hmoved hnext.grid.rows (hbeside ▸ hawaits) _ ' ' b hb, hbeside]
  simp only [hnext.grid.template.wideChar, Bool.false_eq_true]
  exact hboth

/-! ### Printing -/

theorem inputWide_coupled (h : t.Coupled) (c : Char) : Allows (t.inputWide env c) Coupled := by
  have hcolumns : t.columns = t.grid.columns := rfl
  unfold inputWide
  split
  · split
    · next hmode =>
        intro t' ht'
        simp only [Option.bind_eq_bind, Option.bind_eq_some_iff] at ht'
        obtain ⟨a, ha, b, hb, ht'⟩ := ht'
        have hcoupled := writeLeading_coupled h ' ' a ha
        have hedited := ((writeMarked_returns env h.wf _ ' ').of_eq ha).1
        have hwrapped := (wrapline_returns hcoupled.wf).of_eq hb
        have htwo := h.wf.two_le
        refine writeWide_coupled (wrapline_coupled hcoupled b hb) ?_ c t' ht'
        rw [(hwrapped.cursor (by rw [hedited.mode]; exact hmode)).1, hwrapped.columns, hedited.columns]
        exact htwo
    · exact .pure (h.withCursor { t.grid.cursor with inputNeedsWrap := true }
        h.wf.grid.cursor h.stocked.grid.template)
  · exact writeWide_coupled h (by omega) c

/-- Without insert mode, printing keeps halves together. -/
theorem input_coupled (h : t.Coupled) (hinsert : t.mode.insert = false) (c : Char) :
    Allows (t.input env c) Coupled := by
  unfold input
  split
  · exact .pure h
  · refine Allows.bind (P := fun _ => True) (fun _ _ => trivial) fun column _ => ?_
    exact (modifyCell_coupled (f := fun cell => cell.pushZerowidth c) h fun _ => ⟨rfl, rfl⟩).mono
      fun _ ha => ha.1
  · next width _ _ =>
      refine Allows.bind (P := fun a => a.Coupled ∧ a.mode.insert = false) ?_ fun a ha => ?_
      · split
        · intro a ha
          refine ⟨wrapline_coupled h a ha, ?_⟩
          rw [((wrapline_returns h.wf).of_eq ha).mode, hinsert]
        · exact .pure ⟨h, hinsert⟩
      · obtain ⟨ha, hmode⟩ := ha
        have hshift : a.shiftForInsert width = some a :=
          if_neg fun hshift => Bool.false_ne_true (hmode.symm.trans hshift.1)
        rw [hshift, Option.bind_eq_bind, Option.bind_some]
        split
        · exact (writeAtCursor_coupled ha c).bind fun b hb => .pure (advanceCursor_coupled hb.1)
        · exact inputWide_coupled ha c

def withCursorAt (t : Term) (point : Point) (needsWrap lineWrap : Bool) : Term :=
  { t with
    grid.cursor.point := point
    grid.cursor.inputNeedsWrap := needsWrap
    mode.lineWrap := lineWrap }

theorem Coupled.withCursorAt (h : t.Coupled) {point : Point}
    (hpoint : Grid.InScreen t.grid.lines t.grid.columns point) (needsWrap lineWrap : Bool) :
    (t.withCursorAt point needsWrap lineWrap).Coupled := by
  have hmoved := h.withCursor { t.grid.cursor with point, inputNeedsWrap := needsWrap }
    hpoint h.stocked.grid.template
  obtain ⟨⟨hgrid, hinactive, hlines, hcolumns, htwo, hregion, hpos, htabs, hdamage, hlast⟩,
    ⟨hstocked, hother⟩, hpaired⟩ := hmoved
  exact ⟨⟨hgrid, hinactive, hlines, hcolumns, htwo, hregion, hpos, htabs, hdamage, hlast⟩,
    ⟨hstocked, hother⟩, hpaired⟩

theorem new_coupled (config : Config) {lines columns : Nat} (hl : 1 ≤ lines) (hc : 2 ≤ columns) :
    (new config lines columns).Coupled := by
  refine ⟨new_wf config hl hc, new_stocked Row.halved_kept config lines columns, ?_⟩
  have hplain : ∀ p cell, (new config lines columns).grid.cellAt p = some cell → cell.Plain := by
    intro p cell hcell
    simp only [Grid.cellAt, Option.bind_eq_bind, Option.bind_eq_some_iff] at hcell
    obtain ⟨row, hrow, hcell⟩ := hcell
    have hnew : (new config lines columns).grid.raw.Holds (· = Row.new columns) :=
      fun _ hr => List.eq_of_mem_replicate hr
    rw [hnew.get row hrow] at hcell
    exact Row.replicate_plain columns cell (List.mem_of_getElem? hcell)
  intro p cell hcell
  constructor
  · intro hwide
    exact absurd ((hplain p cell hcell).wideChar.symm.trans hwide) Bool.false_ne_true
  · rintro ⟨next, hnext, hspacer⟩
    exact absurd ((hplain _ next hnext).spacer.symm.trans hspacer) Bool.false_ne_true

/-- Where every fullwidth character has its spacer and no spacer is without a character,
printing keeps it so, for every character, cursor position, pending wrap and line wrap. -/
theorem input_widePaired {config : Config} {lines columns : Nat} (hl : 1 ≤ lines) (hc : 2 ≤ columns)
    (h : Reachable env config lines columns t) (hinsert : t.mode.insert = false)
    (hpaired : t.grid.WidePaired) {point : Point}
    (hpoint : Grid.InScreen t.grid.lines t.grid.columns point) (needsWrap lineWrap : Bool) (c : Char) :
    Returns ((t.withCursorAt point needsWrap lineWrap).input env c) fun t' =>
      t'.grid.WidePaired ∧ t'.inactiveGrid = t.inactiveGrid := by
  have hcoupled : t.Coupled := ⟨h.wf hl hc, h.halved hl hc, hpaired⟩
  have hplaced := hcoupled.withCursorAt hpoint needsWrap lineWrap
  obtain ⟨t', ht', hinput⟩ := input_returns env hplaced.wf c
  exact ⟨t', ht', (input_coupled hplaced hinsert c t' ht').paired, (hinput.framed hplaced.wf).inactiveGrid⟩

/-- A fullwidth character over the second half of another one. -/
theorem input_widePaired_over : ∃ t : Term, Reachable .fullwidth .initial 1 4 t ∧
    (∃ cell, t.grid.cellAt ⟨0, 0⟩ = some cell ∧ cell.flags.wideChar = true) ∧
      Returns ((t.withCursorAt ⟨0, 1⟩ false true).input .fullwidth '漢') fun t' =>
        t'.grid.WidePaired ∧ t'.inactiveGrid = t.inactiveGrid := by
  have hrun : Reachable .fullwidth .initial 1 4 _ :=
    .step .refl (a := .handler (.input '漢')) trivial rfl
  have hnew : (new .initial 1 4).Coupled := new_coupled .initial (by decide) (by decide)
  have hprinted : Allows ((new .initial 1 4).input .fullwidth '漢') Coupled :=
    input_coupled hnew rfl '漢'
  have hpaired := (hprinted _ rfl).paired
  exact ⟨_, hrun, ⟨_, rfl, rfl⟩, input_widePaired (by decide) (by decide) hrun rfl hpaired
    ⟨by decide, by decide, by decide⟩ false true '漢'⟩

end Term
end Velacritty
