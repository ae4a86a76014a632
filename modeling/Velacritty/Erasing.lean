import Velacritty.LineEditing
import Velacritty.RowReset
import Velacritty.StorageLines

/-! Erasing in the display and in a line. -/
namespace Velacritty
open Fallible

theorem Row.modifyRange_fill_get {r r' : Row Cell} {start stop : Nat} {x : Cell}
    (h : r.modifyRange start stop (fun _ => x) = some r') (hle : stop ≤ r.len) {c : Nat}
    (hstart : start ≤ c) (hstop : c < stop) : r'.get c = some x := by
  unfold Row.len at hle
  have hfront : (r.inner.take start).length = start := List.length_take_of_le (by omega)
  rw [Row.get, Row.modifyRange_fill h, List.append_assoc, List.getElem?_append_right (by omega), hfront,
    List.getElem?_append_left (by rw [List.length_replicate]; omega)]
  exact List.getElem?_replicate_of_lt (by omega)

namespace Grid

structure Wipes (blank : Cell) (area : Point → Prop) (g g' : Grid Cell) : Prop extends
    SameSize g g' where
  blanked : ∀ p, area p → g.raw.HasLine p.line → p.column < g.columns → g'.cellAt p = some blank
  kept : ∀ p, ¬ area p → g'.cellAt p = g.cellAt p

variable {g g' g'' : Grid Cell} {blank : Cell} {area area' : Point → Prop}

theorem Wipes.refl (h : g.WF) : Wipes blank (fun _ => False) g g :=
  ⟨⟨.refl g, h, rfl, rfl⟩, fun _ hp => absurd hp id, fun _ _ => rfl⟩

theorem Wipes.congr (h : Wipes blank area g g') (hsub : ∀ p, area p → area' p)
    (hall : ∀ p, area' p → p.column < g.columns → area p) : Wipes blank area' g g' :=
  ⟨h.toSameSize, fun p hp hl hc => h.blanked p (hall p hp hc) hl hc, fun p hp => h.kept p fun hp' =>
    hp (hsub p hp')⟩

theorem Wipes.trans (hg : g.WF) (h : Wipes blank area g g') (h' : Wipes blank area' g' g'') :
    Wipes blank (fun p => area p ∨ area' p) g g'' := by
  have hline : ∀ line, g.raw.HasLine line → g'.raw.HasLine line := fun line hline => by
    simp only [Storage.HasLine, h.len, hg.visible, h.wf.visible, h.lines] at hline ⊢
    exact hline
  refine ⟨h.toSameSize.trans h'.toSameSize, fun p hp hl hc => ?_, fun p hp => ?_⟩
  · by_cases hp' : area' p
    · exact h'.blanked p hp' (hline _ hl) (h.columns.symm ▸ hc)
    · exact (h'.kept p hp').trans (h.blanked p (hp.resolve_right hp') hl hc)
  · rw [not_or] at hp
    exact (h'.kept p hp.2).trans (h.kept p hp.1)

theorem modifyRow_wipes (h : g.WF) {line : Int} {left right : Nat} {raw : Storage Cell}
    {f : Row Cell → Option (Row Cell)} (hraw : g.raw.modify line f = some raw)
    (hf : ∀ row : Row Cell, row.len = g.columns → f row = row.modifyRange left right fun _ => blank) :
    Wipes blank (fun p => p.line = line ∧ left ≤ p.column ∧ p.column < right) g { g with raw } := by
  obtain ⟨⟨row, row', hrow, hrow', hget⟩, hother⟩ := Storage.modify_get h.raw hraw
  have hlen := ((Storage.get_returns h.raw (Storage.hasLine_of_get hrow)).of_eq hrow).len_eq
  rw [hf row hlen] at hrow'
  have hbounds : left ≤ right ∧ right ≤ row.len := by
    unfold Row.modifyRange at hrow'
    split at hrow'
    · assumption
    · cases hrow'
  obtain ⟨hwf', hshape⟩ := (Storage.modify_returns h.raw (Storage.hasLine_of_get hrow) fun r hr => by
    rw [hf r hr.len_eq]
    exact (Row.modifyRange_returns hr hbounds.1 (hlen ▸ hbounds.2) fun _ => blank).mono
      fun r' hr' => hr'.1).of_eq hraw
  refine ⟨h.sameSize hwf' hshape.visibleLines hshape.len, fun p hp _ _ => ?_, fun p hp => ?_⟩
  · obtain ⟨hline, hcolumn⟩ := hp
    rw [cellAt, hline, hget]
    exact Row.modifyRange_fill_get hrow' hbounds.2 hcolumn.1 hcolumn.2
  · by_cases hline : p.line = line
    · rw [cellAt, cellAt, hline, hget, hrow]
      exact Row.modifyRange_get hrow' p.column fun hc => hp ⟨hline, hc⟩
    · rw [cellAt, cellAt, hother p.line hline]

/-- Each of the lines is blank once it was reset. -/
def ResetsBlank (g : Grid Cell) (start stop : Int) : Prop :=
  ∀ line row, start ≤ line → line < stop → g.raw.get line = some row →
    Returns (row.reset g.cursor.template) (Row.ResetTo g.cursor.template row)

theorem resetsBlank_of_clean (h : g.WF) (hclean : ∀ r ∈ g.raw.inner, r.Clean) (start stop : Int) :
    g.ResetsBlank start stop := by
  intro line row _ _ hrow
  have hlen := ((Storage.get_returns h.raw (Storage.hasLine_of_get hrow)).of_eq hrow).len_eq
  have hne : row.inner ≠ [] := by
    refine List.ne_nil_of_length_pos ?_
    rw [show row.inner.length = g.columns from hlen]
    exact h.columns_pos
  simp only [Storage.get, Option.bind_eq_bind, Option.bind_eq_some_iff] at hrow
  obtain ⟨i, -, hrow⟩ := hrow
  exact (hclean row (List.mem_of_getElem? hrow)).reset hne _

theorem resetRegion_wipes (h : g.WF) {start stop : Int} (hreset : g.ResetsBlank start stop)
    (hg' : g.resetRegion start stop = some g') :
    Wipes (.ofColor g.cursor.template.bg) (fun p => start ≤ p.line ∧ p.line < stop) g g' := by
  unfold resetRegion resetLines at hg'
  split at hg'
  · simp only [Option.bind_eq_bind, Option.bind_eq_some_iff, Option.some.injEq] at hg'
    obtain ⟨raw, hraw, rfl⟩ := hg'
    obtain ⟨hwf, hshape, -, hkept⟩ := Storage.resetLines_get h.raw h.columns_pos raw hraw
    have hnodup : (lineRange start stop).Nodup :=
      (pairwise_lineRange start stop).imp fun hlt => Int.ne_of_lt hlt
    have hlines := Storage.resetLines_reset h.raw h.columns_pos hnodup raw hraw
    refine ⟨h.sameSize hwf hshape.visibleLines hshape.len, fun p hp _ hc => ?_, fun p hp => ?_⟩
    · obtain ⟨r, r', hr, hr', hget⟩ := hlines p.line (mem_lineRange.mpr hp)
      have hinner := ((hreset p.line r hp.1 hp.2 hr).of_eq hr').inner
      have hlen := ((Storage.get_returns h.raw (Storage.hasLine_of_get hr)).of_eq hr).len_eq
      rw [cellAt, hget]
      simp only [Option.bind_eq_bind, Option.bind_some, Row.get, hinner]
      exact List.getElem?_replicate_of_lt (hlen.symm ▸ hc)
    · rw [cellAt, cellAt, hkept p.line fun hmem => hp (mem_lineRange.mp hmem)]
  · cases hg'

end Grid

/-- Erasing a part of the display, or of a line. -/
inductive Erasure where
  | above
  | below
  | line (mode : LineClearMode)

namespace Erasure

def step (t : Term) : Erasure → Option Term
  | .above => t.clearScreen .above
  | .below => t.clearScreen .below
  | .line mode => t.clearLine mode

/-- The cells to erase: those of the screen up to the cursor, or from it on, or that part of
the cursor's line. -/
def Area (t : Term) : Erasure → Point → Prop
  | .above, p => 0 ≤ p.line ∧ p ≤ t.grid.cursor.point
  | .below, p => t.grid.cursor.point ≤ p ∧ p.line < t.screenLines
  | .line .left, p => p.line = t.grid.cursor.point.line ∧ p.column ≤ t.grid.cursor.point.column
  | .line .right, p => p.line = t.grid.cursor.point.line ∧ t.grid.cursor.point.column ≤ p.column ∧
      t.grid.cursor.inputNeedsWrap = false
  | .line .all, p => p.line = t.grid.cursor.point.line

/-- The lines with cells to erase. -/
def Blanks (t : Term) (e : Erasure) (line : Int) : Prop :=
  ∃ column, column < t.columns ∧ e.Area t ⟨line, column⟩

/-- Exactly the cells of the area are erased, and a selection stays unless it has a line
with such cells. -/
structure Erased (e : Erasure) (t t' : Term) : Prop where
  cells : Grid.Wipes t.bgCell (e.Area t) t.grid t'.grid
  selection : ∀ s, t'.selection = some s ↔
    t.selection = some s ∧ ∀ line, e.Blanks t line → ¬ s.Covers line

/-- The cells that are erased: below a line 0 that is not reset alone. -/
def Reached (t : Term) (e : Erasure) (p : Point) : Prop :=
  e.Area t p ∧ ¬ (e = .above ∧ t.grid.cursor.point.line = 1 ∧ p.line = 0)

variable {t a : Term} {S : Point → Prop}

theorem deselect_selection {top bottom : Int} {e : Erasure} (h : top ≤ bottom)
    (hlines : ∀ line, e.Blanks t line ↔ top ≤ line ∧ line ≤ bottom) (ha : a.selection = t.selection)
    (s : Selection) : (a.deselect (some top) (some bottom)).selection = some s ↔
      t.selection = some s ∧ ∀ line, e.Blanks t line → ¬ s.Covers line := by
  simp only [Term.deselect, ha, Option.filter_eq_some_iff, Bool.not_eq_true', ← Bool.not_eq_true,
    Selection.intersectsRange_iff s h, hlines, not_exists, not_and, and_imp]

theorem damageColumns_eq {left right : Nat} (ha : t.damageColumns left right = some a) :
    ∃ damageState, a = { t with damageState } := by
  simp only [Term.damageColumns, Term.damageLine, Option.bind_eq_bind, Option.bind_eq_some_iff,
    Option.some.injEq] at ha
  obtain ⟨_, -, _, -, rfl⟩ := ha
  exact ⟨_, rfl⟩

theorem clearColumns_erased (h : t.WF) {mode : LineClearMode} {left right : Nat} (hlt : left < right)
    (hle : right ≤ t.grid.columns)
    (harea : ∀ p : Point, p.line = t.grid.cursor.point.line → p.column < t.grid.columns →
      (left ≤ p.column ∧ p.column < right ↔ Area t (.line mode) p))
    (hline : ∀ p, Area t (.line mode) p → p.line = t.grid.cursor.point.line) :
    Allows (t.clearColumns left right) (Erased (.line mode) t) := by
  intro t' ht'
  simp only [Term.clearColumns, Option.bind_eq_bind, Option.bind_eq_some_iff, Option.some.injEq] at ht'
  obtain ⟨a, ha, b, hb, rfl⟩ := ht'
  obtain ⟨damageState, rfl⟩ := damageColumns_eq ha
  obtain ⟨raw, hraw, rfl⟩ := Term.modifyRow_eq hb
  have hwipes := Grid.modifyRow_wipes h.grid hraw fun _ _ => rfl
  refine ⟨?_, fun s => ?_⟩
  · refine hwipes.congr (fun p hp => ?_) fun p hp hc => ?_
    · exact (harea p hp.1 (Nat.lt_of_lt_of_le hp.2.2 hle)).mp hp.2
    · exact ⟨hline p hp, (harea p (hline p hp) hc).mpr hp⟩
  · refine deselect_selection (Int.le_refl _) (fun line => ?_) rfl s
    constructor
    · rintro ⟨column, -, harea'⟩
      have := hline _ harea'
      exact ⟨Int.le_of_eq this.symm, Int.le_of_eq this⟩
    · rintro ⟨hlo, hhi⟩
      obtain rfl := Int.le_antisymm hhi hlo
      exact ⟨left, Nat.lt_of_lt_of_le hlt hle, (harea ⟨_, left⟩ rfl (Nat.lt_of_lt_of_le hlt hle)).mp
        ⟨Nat.le_refl _, hlt⟩⟩

theorem clearLine_erased (h : t.WF) (mode : LineClearMode) :
    Allows (t.clearLine mode) (Erased (.line mode) t) := by
  have hcol := h.grid.cursor.column_lt
  have hpos := h.grid.columns_pos
  cases mode with
  | right =>
      simp only [Term.clearLine]
      split
      · next hneeds =>
          have hnone : ∀ p, ¬ Area t (.line .right) p := fun p hp => by
            rw [Area, hneeds] at hp
            exact absurd hp.2.2 (by decide)
          refine .pure ⟨(Grid.Wipes.refl h.grid).congr (fun _ => False.elim) fun p hp _ => hnone p hp,
            fun s => ?_⟩
          refine (and_iff_left ?_).symm
          rintro line ⟨column, -, hp⟩
          exact absurd hp (hnone _)
      · next hneeds =>
          refine clearColumns_erased h hcol (Nat.le_refl _) (fun p hline hc => ?_) fun p hp => hp.1
          simp only [Area, hline, show p.column < t.columns from hc, true_and, and_true,
            Bool.eq_false_iff.mpr hneeds]
  | left =>
      refine clearColumns_erased h (Nat.succ_pos _) hcol (fun p hline _ => ?_) fun p hp => hp.1
      simp only [Area, hline, true_and, Nat.zero_le, Nat.lt_succ_iff]
  | all =>
      refine clearColumns_erased h hpos (Nat.le_refl _) (fun p hline hc => ?_) fun p hp => hp
      simp only [Area, hline, show p.column < t.columns from hc, and_true, Nat.zero_le]

/-- Resetting lines of the screen is all that changes. -/
theorem resetRegion_eq {start stop : Int} (ha : t.resetRegion start stop = some a) :
    ∃ grid, t.grid.resetRegion start stop = some grid ∧ a = { t with grid } := by
  simp only [Term.resetRegion, Option.bind_eq_bind, Option.bind_eq_some_iff, Option.some.injEq] at ha
  obtain ⟨grid, hgrid, rfl⟩ := ha
  exact ⟨grid, hgrid, rfl⟩

/-- What clearing a part of the screen does: the lines it blanks are all those between two. -/
structure Swept (e : Erasure) (t t' : Term) : Prop where
  cells : Grid.Wipes t.bgCell (e.Reached t) t.grid t'.grid
  selection : ∀ s, t'.selection = some s ↔
    t.selection = some s ∧ ∀ line, e.Blanks t line → ¬ s.Covers line

theorem clearAbove_swept (h : t.WF) (hreset : t.grid.ResetsBlank 0 t.grid.lines) :
    Allows t.clearAbove (Swept .above t) := by
  have hlo := h.grid.cursor.line_nonneg
  have hhi := h.grid.cursor.line_lt
  have hcol := h.grid.cursor.column_lt
  intro t' ht'
  simp only [Term.clearAbove, Option.bind_eq_bind, Option.bind_eq_some_iff, Option.some.injEq] at ht'
  obtain ⟨a, ha, b, hb, rfl⟩ := ht'
  have habove : ∃ grid, a = { t with grid } ∧ Grid.Wipes t.bgCell
      (fun p => 1 < t.grid.cursor.point.line ∧ 0 ≤ p.line ∧ p.line < t.grid.cursor.point.line) t.grid grid := by
    split at ha
    · next hlines =>
        obtain ⟨grid, hgrid, rfl⟩ := resetRegion_eq ha
        refine ⟨grid, rfl, (Grid.resetRegion_wipes h.grid (fun line row hstart hstop =>
          hreset line row hstart (Int.lt_trans hstop hhi)) hgrid).congr (fun p hp => ⟨hlines, hp⟩) fun p hp _ => hp.2⟩
    · next hlines =>
        obtain rfl := Option.some.inj ha
        exact ⟨t.grid, rfl, (Grid.Wipes.refl h.grid).congr (fun _ => False.elim) fun p hp _ => hlines hp.1⟩
  obtain ⟨grid, rfl, habove⟩ := habove
  obtain ⟨raw, hraw, rfl⟩ := Term.modifyRow_eq hb
  have hbg : Term.bgCell { t with grid } = t.bgCell := by
    unfold Term.bgCell
    rw [show ({ t with grid } : Term).grid.cursor = t.grid.cursor from habove.cursor]
  rw [hbg] at hraw
  have hrow := Grid.modifyRow_wipes habove.wf hraw fun _ _ => rfl
  refine ⟨?_, fun s => ?_⟩
  · refine (habove.trans h.grid hrow).congr (fun p hp => ?_) fun p hp hc => ?_
    · rcases hp with ⟨hlines, hnonneg, hlt⟩ | ⟨hline, -, hle⟩
      · exact ⟨⟨hnonneg, .inl hlt⟩, fun hskip => by omega⟩
      · exact ⟨⟨by omega, .inr ⟨hline, by omega⟩⟩, fun hskip => by omega⟩
    · obtain ⟨⟨hnonneg, hlt | ⟨hline, hle⟩⟩, hskip⟩ := hp
      · by_cases hone : t.grid.cursor.point.line = 1
        · exact absurd ⟨rfl, hone, by omega⟩ hskip
        · exact .inl ⟨by omega, hnonneg, hlt⟩
      · refine .inr ⟨hline, Nat.zero_le _, ?_⟩
        have hcolumns : grid.columns = t.grid.columns := habove.columns
        simp only [Term.columns, hcolumns]
        omega
  · refine deselect_selection (t := t) hlo (fun line => ?_) rfl s
    constructor
    · rintro ⟨column, -, hnonneg, hlt | ⟨hline, -⟩⟩
      · exact ⟨hnonneg, Int.le_of_lt hlt⟩
      · exact ⟨hnonneg, Int.le_of_eq hline⟩
    · rintro ⟨hnonneg, hle⟩
      refine ⟨0, Nat.lt_of_le_of_lt (Nat.zero_le _) hcol, hnonneg, ?_⟩
      rcases Int.lt_or_eq_of_le hle with hlt | heq
      · exact .inl hlt
      · exact .inr ⟨heq, Nat.zero_le _⟩

theorem clearBelow_swept (h : t.WF) (hreset : t.grid.ResetsBlank 0 t.grid.lines) :
    Allows t.clearBelow (Swept .below t) := by
  have hlo := h.grid.cursor.line_nonneg
  have hhi := h.grid.cursor.line_lt
  have hcol := h.grid.cursor.column_lt
  intro t' ht'
  simp only [Term.clearBelow, Option.bind_eq_bind, Option.bind_eq_some_iff, Option.some.injEq,
    toUsize_of_nonneg hlo] at ht'
  obtain ⟨a, ha, line, rfl, last, hlast, b, hb, rfl⟩ := ht'
  obtain ⟨raw, hraw, rfl⟩ := Term.modifyRow_eq ha
  have hrow : Grid.Wipes t.bgCell (fun p => p.line = t.grid.cursor.point.line ∧
      t.grid.cursor.point.column ≤ p.column ∧ p.column < t.grid.columns) t.grid { t.grid with raw } := by
    refine Grid.modifyRow_wipes h.grid hraw fun row hlen => ?_
    rw [hlen]
  obtain ⟨hpos, rfl⟩ := usub_eq_some.mp hlast
  have hbelow : ∃ grid, b = { t with grid } ∧ Grid.Wipes t.bgCell
      (fun p => t.grid.cursor.point.line < p.line ∧ p.line < t.grid.lines) { t.grid with raw } grid := by
    split at hb
    · next hlines =>
        obtain ⟨grid, hgrid, rfl⟩ := resetRegion_eq hb
        refine ⟨grid, rfl, (Grid.resetRegion_wipes hrow.wf (fun line row hstart hstop hget => ?_)
          hgrid).congr (fun p hp => ⟨Int.lt_of_add_one_le hp.1, hp.2⟩) fun p hp _ => ⟨hp.1, hp.2⟩⟩
        rw [(Storage.modify_get h.grid.raw hraw).2 line (by omega)] at hget
        exact hreset line row (by omega) hstop hget
    · next hlines =>
        obtain rfl := Option.some.inj hb
        refine ⟨_, rfl, (Grid.Wipes.refl hrow.wf).congr (fun _ => False.elim) fun p hp _ => hlines ?_⟩
        have := hp.1
        have := hp.2
        simp only [Term.screenLines]
        omega
  obtain ⟨grid, rfl, hbelow⟩ := hbelow
  refine ⟨?_, fun s => ?_⟩
  · refine (hrow.trans h.grid hbelow).congr (fun p hp => ?_) fun p hp hc => ?_
    · refine ⟨?_, fun hskip => by cases hskip.1⟩
      rcases hp with ⟨hline, hle, -⟩ | ⟨hlt, hlines⟩
      · exact ⟨.inr ⟨hline.symm, hle⟩, hline ▸ hhi⟩
      · exact ⟨.inl hlt, hlines⟩
    · obtain ⟨⟨hlt | ⟨hline, hle⟩, hlines⟩, -⟩ := hp
      · exact .inr ⟨hlt, hlines⟩
      · exact .inl ⟨hline.symm, hle, hc⟩
  · have hsame : grid.lines = t.grid.lines := hbelow.lines
    have hlast : t.grid.cursor.point.line ≤ (grid.lines : Int) - 1 := by omega
    refine deselect_selection (t := t) hlast (fun line => ?_) rfl s
    rw [hsame]
    constructor
    · rintro ⟨column, -, hlt | ⟨hline, -⟩, hlines⟩
      · exact ⟨Int.le_of_lt hlt, Int.le_sub_one_of_lt hlines⟩
      · exact ⟨Int.le_of_eq hline, Int.le_sub_one_of_lt hlines⟩
    · rintro ⟨hle, hlines⟩
      refine ⟨t.grid.cursor.point.column, hcol, ?_, Int.lt_of_le_sub_one hlines⟩
      rcases Int.lt_or_eq_of_le hle with hlt | heq
      · exact .inl hlt
      · exact .inr ⟨heq, Nat.le_refl _⟩

/-- Where the cursor is on line 1, line 0 is blank already. -/
def Completes (t : Term) (e : Erasure) : Prop :=
  e = .above → t.grid.cursor.point.line = 1 →
    ∀ column, column < t.columns → t.grid.cellAt ⟨0, column⟩ = some t.bgCell

theorem swept_erased_iff {e : Erasure} (h : t.WF) (hs : Swept e t a) : Erased e t a ↔ e.Completes t := by
  constructor
  · rintro herased rfl hone column hc
    have harea : Area t .above ⟨0, column⟩ := ⟨Int.le_refl 0, .inl (by simp only [hone]; decide)⟩
    have hline : t.grid.raw.HasLine 0 := h.grid.hasLine h.topmostLine_le
      (Int.ofNat_lt.mpr h.grid.lines_pos)
    rw [← hs.cells.kept ⟨0, column⟩ fun hreached => hreached.2 ⟨rfl, hone, rfl⟩]
    exact herased.cells.blanked ⟨0, column⟩ harea hline hc
  · intro hcompletes
    refine ⟨⟨hs.cells.toSameSize, fun p hp hl hc => ?_, fun p hp => ?_⟩, hs.selection⟩
    · by_cases hskip : e = .above ∧ t.grid.cursor.point.line = 1 ∧ p.line = 0
      · obtain ⟨he, hone, hzero⟩ := hskip
        rw [hs.cells.kept p fun hreached => hreached.2 ⟨he, hone, hzero⟩]
        obtain ⟨line, column⟩ := p
        cases hzero
        exact hcompletes he hone column hc
      · exact hs.cells.blanked p ⟨hp, hskip⟩ hl hc
    · exact hs.cells.kept p fun hreached => hp hreached.1

/-- Erasing blanks exactly its part of the screen, except that a line 0 right above the
cursor's line is not reset. -/
theorem step_erased_iff (h : t.WF) (hreset : t.grid.ResetsBlank 0 t.grid.lines) (e : Erasure) :
    Returns (e.step t) fun t' => Erased e t t' ↔ e.Completes t := by
  cases e with
  | above =>
      obtain ⟨t', ht', -⟩ := Term.clearScreen_returns h .above
      refine ⟨t', ht', ?_⟩
      simp only [Term.clearScreen, Option.bind_eq_bind, Option.bind_eq_some_iff, Option.some.injEq] at ht'
      obtain ⟨a, ha, rfl⟩ := ht'
      obtain ⟨hcells, hselection⟩ := clearAbove_swept h hreset a ha
      exact swept_erased_iff h ⟨hcells, hselection⟩
  | below =>
      obtain ⟨t', ht', -⟩ := Term.clearScreen_returns h .below
      refine ⟨t', ht', ?_⟩
      simp only [Term.clearScreen, Option.bind_eq_bind, Option.bind_eq_some_iff, Option.some.injEq] at ht'
      obtain ⟨a, ha, rfl⟩ := ht'
      obtain ⟨hcells, hselection⟩ := clearBelow_swept h hreset a ha
      exact swept_erased_iff h ⟨hcells, hselection⟩
  | line mode =>
      obtain ⟨t', ht', -⟩ := Term.clearLine_returns h mode
      exact ⟨t', ht', iff_of_true (clearLine_erased h mode t' ht') fun he => by cases he⟩

/-- With the cursor behind an `a` on line 0, what follows it is erased. -/
theorem step_erased_below : ∃ t, t.WF ∧ t.grid.cursor.point = ⟨0, 1⟩ ∧
    Returns (step t .below) (Erased .below t) := by
  have hrun : Term.Reachable .ascii .initial 2 2 _ :=
    .step .refl (a := .handler (.input 'a')) trivial rfl
  have hwf := Term.Reachable.wf hrun (by decide) (by decide)
  have hclean := Grid.resetsBlank_of_clean hwf.grid (List.forall_mem_cons.mpr
    ⟨⟨by decide, .named .background, by decide⟩, List.forall_mem_singleton.mpr
      ⟨by decide, .named .background, by decide⟩⟩)
  exact ⟨_, hwf, rfl, (step_erased_iff hwf (hclean _ _) .below).mono fun t' ht' =>
    ht'.mpr fun he => by cases he⟩

/-- With the cursor on line 1, the `a` of line 0 stays when all above is cleared. -/
theorem clearAbove_keeps_line : ∃ t t', Term.Reachable .ascii .initial 2 2 t ∧
    t.grid.ResetsBlank 0 t.grid.lines ∧ t.grid.cursor.point = ⟨1, 1⟩ ∧ step t .above = some t' ∧
    Area t .above ⟨0, 0⟩ ∧ (t'.grid.cellAt ⟨0, 0⟩).map Cell.c = some 'a' ∧ ¬ Erased .above t t' := by
  have hrun : Term.Reachable .ascii .initial 2 2 _ :=
    .step (.step .refl (a := .handler (.input 'a')) trivial rfl) (a := .handler .linefeed) trivial rfl
  have hwf := Term.Reachable.wf hrun (by decide) (by decide)
  have hclean := Grid.resetsBlank_of_clean hwf.grid (List.forall_mem_cons.mpr
    ⟨⟨by decide, .named .background, by decide⟩, List.forall_mem_singleton.mpr
      ⟨by decide, .named .background, by decide⟩⟩)
  refine ⟨_, _, hrun, hclean _ _, rfl, rfl, ⟨by decide, .inl (by decide)⟩, rfl, fun herased => ?_⟩
  have hblank := herased.cells.blanked ⟨0, 0⟩ ⟨by decide, .inl (by decide)⟩
    (hwf.grid.hasLine (by decide) (by decide)) (by decide)
  exact absurd hblank (by decide)

end Erasure
end Velacritty
