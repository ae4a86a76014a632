import Velacritty.GridReflow
import Velacritty.TermSteps

/-! A pending wrap is pending at the last column, and what breaks that. -/
namespace Velacritty
open Fallible

def Cursor.WrapsAtEnd {T : Type} (columns : Nat) (cursor : Cursor T) : Prop :=
  cursor.inputNeedsWrap = true → cursor.point.column + 1 = columns

section Grids
variable {T : Type} [GridCell T]

/-- Pulling a row up moves the cursor to the start of the screen, and leaves nothing of
the row: there is no column before the cursor to put it on. -/
def clampsHome (columns lines : Nat) (point : Point) (row : Row T) (reversed : List (Row T)) : Bool :=
  match reversed with
  | [] => false
  | lastRow :: _ => shouldReflow true columns lastRow &&
      (pullCells columns lastRow row).any fun (_, row, numWrapped) =>
        row.isClear && decide (point.sub ⟨0, lines, columns⟩ .cursor numWrapped = ⟨0, 0⟩)

namespace Grid
variable {g g' : Grid T} {reflow : Bool} {lines columns : Nat}

/-- Growing to `columns` ends with the cursor at the start of the screen in this way. -/
def clampsHome (g : Grid T) (columns : Nat) : Bool :=
  (do
    let (rows, _) ← g.raw.takeAll
    let below ← g.cursorBufferLine
    let row ← rows[below]?
    let above ← (rows.drop (below + 1)).reverse.foldlM (growPushed columns false) []
    let point := ({ g with columns }.unwrapCursor true).cursor.point
    some (Velacritty.clampsHome columns g.lines point row above)).getD false

/-- A pending wrap of either cursor is at the last column. -/
structure PendingOk (g : Grid T) : Prop where
  cursor : g.cursor.WrapsAtEnd g.columns
  savedCursor : g.savedCursor.WrapsAtEnd g.columns

/-- Only a wider grid can leave a pending wrap behind: a saved one, one that is not
reflowed, or one that is reflowed to the start of the screen. -/
def WidensSafely (g : Grid T) (reflow : Bool) (lines columns : Nat) : Prop :=
  columns ≤ g.columns ∨ g.savedCursor.inputNeedsWrap = false ∧
    if reflow then Allows (g.linesResized lines) fun a => a.clampsHome columns = false
    else g.cursor.inputNeedsWrap = false

/-- A condition of the rows a grid grows through. -/
theorem Grown.clampsHome {rows above below : List (Row T)} {row : Row T} {a b c d : GrowState T}
    (h : Grown g columns rows above below row a b c d g') (hg : g.WF) :
    g.clampsHome columns = Velacritty.clampsHome columns g.lines
      ({ g with columns }.unwrapCursor true).cursor.point row a.reversed := by
  obtain ⟨raw, htake⟩ := h.takeAll
  have hrows : rows = below.reverse ++ row :: above.reverse := by
    rw [← List.reverse_reverse rows, h.split, List.reverse_append, List.reverse_cons,
      List.append_assoc, List.singleton_append]
  obtain ⟨n, hn, hnbelow⟩ := cursorBufferLine_returns hg.cursor.line_nonneg hg.cursor.line_lt
  have hlength : n = below.reverse.length := by
    have hbelow := h.length_below
    simp only [Grid.below] at hbelow
    rw [List.length_reverse]
    omega
  have hrow : rows[n]? = some row := by
    rw [hrows, hlength, List.getElem?_append_right (Nat.le_refl _), Nat.sub_self]
    rfl
  have habove : (rows.drop (n + 1)).reverse = above := by
    rw [hrows, hlength, ← List.drop_drop, List.drop_left, List.drop_one, List.tail_cons,
      List.reverse_reverse]
  simp only [Grid.clampsHome, htake, hn, hrow, habove, h.grown_above, Option.bind_eq_bind,
    Option.bind_some, Option.getD_some]

/-- The clamp of a reflowed cursor ends at the last column, unless it starts at home. -/
theorem reflowTarget_clamp {d : Dimensions} {p : Point} (hc : 2 ≤ d.columns) (hlo : 0 ≤ p.line)
    (hhi : p.line < d.screenLines) (n : Nat) (rowClear : Bool) :
    ((reflowTarget d p n rowClear).2 = true → (reflowTarget d p n rowClear).1.column + 1 = d.columns) ↔
      (rowClear && decide (p.sub d .cursor n = ⟨0, 0⟩)) = false := by
  obtain ⟨hlo', hle, hcolumn⟩ := Point.sub_cursor (Nat.le_of_succ_le hc) hlo hhi n
  simp only [reflowTarget]
  generalize p.sub d .cursor n = target at *
  by_cases hclamp : target.column = 0 ∧ rowClear = true
  · rw [if_pos hclamp, Point.sub_of_le hlo' (by omega) hcolumn (by omega), if_neg (by omega)]
    rw [hclamp.2, Bool.true_and, decide_eq_false_iff_not]
    split
    · next hzero =>
        refine iff_of_false (fun h => ?_) (not_not.mpr ?_)
        · have := h rfl
          simp only at this
          omega
        · obtain ⟨line, column⟩ := target
          exact congrArg₂ Point.mk hzero hclamp.1
    · next hpos =>
        refine iff_of_true (fun _ => ?_) ?_
        · rw [hclamp.1]
          simp only
          omega
        · rintro rfl
          exact hpos rfl
  · rw [if_neg hclamp]
    refine iff_of_true (fun hnw => absurd hnw Bool.false_ne_true) ?_
    rw [Bool.and_eq_false_iff, decide_eq_false_iff_not]
    by_cases hclear : rowClear = true
    · right
      rintro rfl
      exact hclamp ⟨rfl, hclear⟩
    · exact .inl (Bool.eq_false_iff.mpr hclear)

/-- The cursor of a grown grid has its pending wrap at the last column, unless the
reflow sent it to the start of the screen. -/
theorem growColumns_wrapsAtEnd_iff (h : g.WF) (hc : 2 ≤ columns) :
    Allows (g.growColumns true columns) fun g' =>
      (g'.cursor.WrapsAtEnd columns ↔ g.clampsHome columns = false) ∧
        g'.savedCursor = g.savedCursor := by
  intro g' hg'
  obtain ⟨rows, above, below, row, a, b, c, d, hgrown⟩ := growColumns_grown h columns g' hg'
  rw [hgrown.clampsHome h]
  obtain ⟨hunwrap, -⟩ := h.unwrapCursor columns true
  have hneeds := unwrapCursor_needsWrap { g with columns }
  obtain ⟨raw, offset, hstart⟩ := hgrown.start
  obtain ⟨offset', line, hafter⟩ := hgrown.after
  obtain ⟨line', hfill⟩ := fillViewport_grid columns c
  obtain ⟨line'', hpull⟩ := pullDown_grid d hgrown.filled
  generalize unwrapCursor { g with columns } true = u at *
  have hpoint : a.grid.cursor.point = u.cursor.point := by rw [hstart]
  have hlines : a.grid.lines = g.lines := by rw [hstart]; exact hunwrap.lines
  have hsaved : b.grid.savedCursor = g.savedCursor ∧ (b.grid.cursor.WrapsAtEnd columns ↔
      Velacritty.clampsHome columns g.lines u.cursor.point row a.reversed = false) := by
    have hsaved : a.grid.savedCursor = g.savedCursor := by rw [hstart]; exact hunwrap.savedCursor
    have haneeds : a.grid.cursor.inputNeedsWrap = false := by rw [hstart]; exact hneeds
    cases hgrown.cursor with
    | pushed hrev hb =>
        rw [hb]
        refine ⟨hsaved, iff_of_true (fun hnw => ?_) ?_⟩
        · exact absurd (haneeds.symm.trans hnw) (by decide)
        · cases hreversed : a.reversed with
          | nil => rfl
          | cons last above' => simp only [Velacritty.clampsHome, hrev _ _ hreversed, Bool.false_and]
    | pulled hrev hshould hpulled htarget hbgrid hb =>
        next last last' row' above' n target clamp =>
        rw [hbgrid]
        refine ⟨hsaved, ?_⟩
        simp only [Velacritty.clampsHome, hrev, hshould, hpulled, Option.any_some, Bool.true_and]
        simp only [Cursor.WrapsAtEnd, haneeds, Bool.false_or]
        have hline : u.cursor.point.line < g.lines := hunwrap.lines ▸ hunwrap.line_lt
        have hclamp := reflowTarget_clamp (d := ⟨0, g.lines, columns⟩) hc hunwrap.line_nonneg hline n
          row'.isClear
        rw [hpoint, hlines] at htarget
        rwa [htarget] at hclamp
  have hcursor : d.grid.cursor.inputNeedsWrap = b.grid.cursor.inputNeedsWrap ∧
      d.grid.cursor.point.column = b.grid.cursor.point.column ∧
      d.grid.savedCursor = b.grid.savedCursor := by
    rw [hpull, hfill, hafter]
    exact ⟨rfl, rfl, rfl⟩
  rw [hgrown.result]
  simp only [adoptRows, Cursor.WrapsAtEnd] at hsaved ⊢
  rw [hcursor.1, hcursor.2.1, hcursor.2.2]
  exact ⟨hsaved.2, hsaved.1⟩

/-- Without reflow, growing leaves the cursors where they are. -/
theorem growColumns_cursors (g : Grid T) (columns : Nat) :
    Allows (g.growColumns false columns) fun g' =>
      g'.cursor.inputNeedsWrap = g.cursor.inputNeedsWrap ∧
        g'.cursor.point.column = g.cursor.point.column ∧ g'.savedCursor = g.savedCursor := by
  intro g' hg'
  simp only [growColumns, unwrapCursor, Bool.and_false, Bool.false_eq_true, if_false,
    growRows_noReflow, Option.bind_eq_bind, Option.bind_some, Option.bind_eq_some_iff,
    Option.some.injEq] at hg'
  obtain ⟨⟨rows, raw⟩, -, d, hd, rfl⟩ := hg'
  obtain ⟨line', hfill⟩ := fillViewport_grid columns
    ⟨{ g with columns, raw }, rows.reverse.reverse ++ [], 0⟩
  obtain ⟨line, hpull⟩ := pullDown_grid d hd
  simp only [adoptRows, hpull, hfill]
  exact ⟨trivial, trivial, trivial⟩

/-- Clamping puts a pending wrap that was at the last column at the new one. -/
theorem settleCursor_wrapsAtEnd (hc : 1 ≤ columns) (hcolumns : g.columns = columns)
    (hpending : g.cursor.inputNeedsWrap = true → reflow = false ∧ columns ≤ g.cursor.point.column) :
    Allows (g.settleCursor reflow columns) fun g' => g'.cursor.WrapsAtEnd columns ∧
      g'.savedCursor = g.savedCursor ∧ g'.columns = g.columns := by
  intro g' hg'
  simp only [settleCursor, usub_of_le hc, Option.bind_eq_bind, Option.bind_some] at hg'
  split at hg'
  · obtain rfl := Option.some.inj hg'
    refine ⟨fun hnw => ?_, rfl, rfl⟩
    have := (hpending hnw).2
    simp only
    omega
  · next hreflow =>
      have hneeds : g.cursor.inputNeedsWrap = false :=
        Bool.eq_false_iff.mpr fun hnw => hreflow (hpending hnw).1
      rw [Option.bind_eq_some_iff] at hg'
      obtain ⟨pending, hp, hg'⟩ := hg'
      split at hg'
      · next htrue =>
          obtain rfl := Option.some.inj hg'
          refine ⟨fun _ => ?_, rfl, rfl⟩
          split at hp
          · next heq =>
              simp only
              omega
          · rw [htrue] at hp
            cases hp
      · obtain rfl := Option.some.inj hg'
        exact ⟨fun hnw => absurd (hneeds.symm.trans hnw) (by decide), rfl, rfl⟩

/-- A narrower grid has its pending wraps at the last column, if the old one had. -/
theorem shrinkColumns_pendingOk (hp : g.PendingOk) (hc : 1 ≤ columns)
    (hlt : columns < g.columns) : Allows (g.shrinkColumns reflow columns) PendingOk := by
  intro g' hg'
  simp only [shrinkColumns, Option.bind_eq_bind, Option.bind_eq_some_iff, Option.some.injEq] at hg'
  obtain ⟨⟨rows, raw⟩, -, st, hst, b, hb, rfl⟩ := hg'
  obtain ⟨hneeds, hsaved, hcolumns⟩ := shrinkRows_beside rows.reverse st hst
  simp only at hneeds hsaved hcolumns
  have husaved : (unwrapCursor { g with columns } reflow).savedCursor = g.savedCursor ∧
      (unwrapCursor { g with columns } reflow).columns = columns := by
    unfold unwrapCursor
    split <;> exact ⟨rfl, rfl⟩
  rw [husaved.1] at hsaved
  rw [husaved.2] at hcolumns
  have hpending : st.grid.cursor.inputNeedsWrap = true →
      reflow = false ∧ columns ≤ st.grid.cursor.point.column := by
    intro hnw
    cases reflow with
    | true => exact absurd ((hneeds.trans (unwrapCursor_needsWrap _)).symm.trans hnw) (by decide)
    | false =>
        have hgrid := shrinkRows_noReflow rows.reverse rfl st hst
        have hunwrap : unwrapCursor { g with columns } false = { g with columns } := by
          simp only [unwrapCursor, Bool.and_false, Bool.false_eq_true, if_false]
        rw [hunwrap] at hgrid
        rw [hgrid] at hnw ⊢
        have := hp.cursor hnw
        exact ⟨rfl, by simp only; omega⟩
  obtain ⟨hcursor, hsaved', hcolumns'⟩ :=
    settleCursor_wrapsAtEnd (g := st.grid.adoptRows (st.newRaw.take (st.grid.maxScrollLimit + st.grid.lines)))
      hc hcolumns hpending b hb
  have hbcolumns : b.columns = columns := hcolumns'.trans hcolumns
  refine ⟨?_, ?_⟩
  · rw [hbcolumns]
    exact hcursor
  · simp only [Cursor.WrapsAtEnd, hbcolumns, hsaved', adoptRows, hsaved]
    intro hnw
    have := hp.savedCursor hnw
    omega

theorem PendingOk.linesResized {a : Grid T} (hp : g.PendingOk) (hcolumns : a.columns = g.columns)
    (hcursor : ∃ line, a.cursor = { g.cursor with point.line := line, template := default })
    (hsaved : ∃ line, a.savedCursor = { g.savedCursor with point.line := line }) : a.PendingOk := by
  obtain ⟨line, hcursor⟩ := hcursor
  obtain ⟨line', hsaved⟩ := hsaved
  refine ⟨?_, ?_⟩
  · rw [hcursor, hcolumns]
    exact hp.cursor
  · rw [hsaved, hcolumns]
    exact hp.savedCursor

/-- A resize keeps pending wraps at the last column exactly if it widens safely. -/
theorem resize_pendingOk_iff (h : g.WF) (hp : g.PendingOk) (hl : 1 ≤ lines) (hc : 2 ≤ columns) :
    Allows (g.resize reflow lines columns) fun g' =>
      g'.PendingOk ↔ g.WidensSafely reflow lines columns := by
  rw [resize_eq]
  intro g' hg'
  simp only [Option.bind_eq_bind, Option.bind_eq_some_iff, Option.some.injEq] at hg'
  obtain ⟨a, ha, b, hb, rfl⟩ := hg'
  obtain ⟨hawf, halines, hacolumns, hacursor, hasaved⟩ := (linesResized_returns h hl).of_eq ha
  have hap := hp.linesResized hacolumns hacursor hasaved
  suffices hiff : b.PendingOk ↔ g.WidensSafely reflow lines columns by
    exact ⟨fun hok => hiff.mp ⟨hok.cursor, hok.savedCursor⟩,
      fun hsafe => ⟨(hiff.mpr hsafe).cursor, (hiff.mpr hsafe).savedCursor⟩⟩
  obtain ⟨line, hacursor⟩ := hacursor
  obtain ⟨line', hasaved⟩ := hasaved
  simp only [columnsResized, hacolumns] at hb
  split at hb
  · next hlt =>
      have hnot : ¬ columns ≤ g.columns := Nat.not_le.mpr hlt
      have hwider : ∀ {cursor : Cursor T} (cursor' : Cursor T), cursor.WrapsAtEnd g.columns →
          cursor'.inputNeedsWrap = cursor.inputNeedsWrap → cursor'.point.column = cursor.point.column →
          (cursor'.WrapsAtEnd columns ↔ cursor.inputNeedsWrap = false) := by
        intro cursor cursor' hcursor hneeds hcolumn
        simp only [Cursor.WrapsAtEnd, hneeds, hcolumn]
        refine ⟨fun hwraps => Bool.eq_false_iff.mpr fun hnw => ?_, fun hno hnw => ?_⟩
        · have := hwraps hnw
          have := hcursor hnw
          omega
        · exact absurd (hno.symm.trans hnw) (by decide)
      have hbcolumns : b.columns = columns := ((growColumns_returns hawf
        (hacolumns.symm ▸ hlt) reflow).of_eq hb).2.2.1
      cases reflow with
      | true =>
          obtain ⟨hcursor, hsaved⟩ := growColumns_wrapsAtEnd_iff hawf hc b hb
          have hsaved' := hwider b.savedCursor hp.savedCursor (by rw [hsaved, hasaved])
            (by rw [hsaved, hasaved])
          simp only [WidensSafely, hnot, false_or, if_true, Allows, ha, Option.some.injEq, forall_eq']
          refine ⟨fun hok => ⟨hsaved'.mp (hbcolumns ▸ hok.savedCursor), hcursor.mp (hbcolumns ▸ hok.cursor)⟩,
            fun hsafe => ⟨?_, ?_⟩⟩
          · rw [hbcolumns]
            exact hcursor.mpr hsafe.2
          · rw [hbcolumns]
            exact hsaved'.mpr hsafe.1
      | false =>
          obtain ⟨hneeds, hcolumn, hsaved⟩ := growColumns_cursors a columns b hb
          have hcursor' := hwider b.cursor hp.cursor (by rw [hneeds, hacursor])
            (by rw [hcolumn, hacursor])
          have hsaved' := hwider b.savedCursor hp.savedCursor (by rw [hsaved, hasaved])
            (by rw [hsaved, hasaved])
          simp only [WidensSafely, hnot, false_or, Bool.false_eq_true, if_false]
          refine ⟨fun hok => ⟨hsaved'.mp (hbcolumns ▸ hok.savedCursor), hcursor'.mp (hbcolumns ▸ hok.cursor)⟩,
            fun hsafe => ⟨?_, ?_⟩⟩
          · rw [hbcolumns]
            exact hcursor'.mpr hsafe.2
          · rw [hbcolumns]
            exact hsaved'.mpr hsafe.1
  · next hge =>
      refine iff_of_true ?_ (.inl (Nat.not_lt.mp hge))
      split at hb
      · next hlt => exact shrinkColumns_pendingOk hap (Nat.le_of_succ_le hc) (hacolumns.symm ▸ hlt) b hb
      · exact Option.some.inj hb ▸ hap

end Grid
end Grids

namespace TermOp

/-- Moving to a tab stop leaves a pending wrap behind, unless there is none to move to;
and so does widening the screen. -/
def WrapSafe (t : Term) : TermOp → Prop
  | handler (.moveBackwardTabs count) => t.grid.cursor.inputNeedsWrap = false ∨ count = 0 ∨
      ∀ k < t.grid.cursor.point.column, t.tabs[k]? ≠ some true
  | resize lines columns => t.grid.WidensSafely (!t.mode.altScreen) lines columns ∧
      t.inactiveGrid.WidensSafely t.mode.altScreen lines columns
  | _ => True

end TermOp

namespace Term
variable {t t' a : Term} {S : Point → Prop} {env : Env}

/-- In both screens, a pending wrap of either cursor is at the last column. -/
structure PendingOk (t : Term) : Prop where
  grid : t.grid.PendingOk
  inactiveGrid : t.inactiveGrid.PendingOk

theorem Edited.pendingOk (h : Edited S t t') (hp : t.PendingOk)
    (hcursor : t'.grid.cursor.WrapsAtEnd t.grid.columns) : t'.PendingOk := by
  refine ⟨⟨?_, ?_⟩, ?_⟩
  · rw [h.columns]
    exact hcursor
  · rw [h.columns, h.savedCursor]
    exact hp.grid.savedCursor
  · rw [h.inactiveGrid]
    exact hp.inactiveGrid

theorem wrapsAtEnd_of_free {cursor : Cursor Cell} {columns : Nat} (h : cursor.inputNeedsWrap = false) :
    cursor.WrapsAtEnd columns := fun hnw => absurd (h.symm.trans hnw) (by decide)

theorem Drawn.pendingOk (h : Drawn S t t') (hp : t.PendingOk) : t'.PendingOk :=
  h.toEdited.pendingOk hp (h.cursor.symm ▸ hp.grid.cursor)

theorem PendingOk.same {g : Grid Cell} (hp : t.PendingOk) (hsame : t.grid.SameScreen g)
    (hgrid : t'.grid = g) (hinactive : t'.inactiveGrid = t.inactiveGrid) : t'.PendingOk := by
  refine ⟨⟨?_, ?_⟩, ?_⟩
  · rw [hgrid, hsame.columns, hsame.cursor]
    exact hp.grid.cursor
  · rw [hgrid, hsame.columns, hsame.savedCursor]
    exact hp.grid.savedCursor
  · rw [hinactive]
    exact hp.inactiveGrid

theorem ScrolledUp.pendingOk {origin : Int} {lines : Nat} (h : ScrolledUp origin lines t t')
    (hp : t.PendingOk) : t'.PendingOk :=
  hp.same h.same rfl (congrArg Term.inactiveGrid h.rest :)

theorem Linefed.pendingOk (h : Linefed t t') (hp : t.PendingOk) : t'.PendingOk := by
  cases h with
  | scrolled _ h => exact h.pendingOk hp
  | moved _ h hcursor =>
      refine h.toEdited.pendingOk hp ?_
      rw [hcursor]
      exact hp.grid.cursor
  | stuck _ _ h => exact h ▸ hp

theorem Wrapped.pendingOk (h : Wrapped t t') (hp : t.PendingOk) : t'.PendingOk := by
  cases h with
  | off _ h => exact h ▸ hp
  | scrolled _ _ ha hb h hcursor =>
      exact h.pendingOk (hb.pendingOk (ha.pendingOk hp)) (wrapsAtEnd_of_free (by rw [hcursor]; rfl))
  | moved _ _ h _ _ hcursor => exact h.pendingOk hp (wrapsAtEnd_of_free (by rw [hcursor]; rfl))
  | stuck _ _ _ h _ hcursor _ => exact h.pendingOk hp (wrapsAtEnd_of_free (by rw [hcursor]; rfl))

theorem Swept.pendingOk {width : Nat} (h : Swept width t t') (hp : t.PendingOk) : t'.PendingOk := by
  refine h.edited.pendingOk hp fun hnw => ?_
  rcases h.needsWrap hnw with hlast | ⟨hneeds, hlt⟩
  · exact hlast
  · have := hp.grid.cursor hneeds
    omega

theorem Printed.pendingOk {width : Nat} (h : Printed width t t') (hp : t.PendingOk) : t'.PendingOk := by
  cases h with
  | swept _ h => exact h.pendingOk hp
  | dropped _ hcol h => exact h ▸ ⟨⟨fun _ => hcol, hp.grid.savedCursor⟩, hp.inactiveGrid⟩
  | wrapped _ _ ha hpoint hneeds _ _ _ _ hb h =>
      refine h.pendingOk (hb.pendingOk (ha.pendingOk hp ?_))
      simp only [Cursor.WrapsAtEnd, hpoint, hneeds]
      exact hp.grid.cursor

theorem Inputted.pendingOk {c : Char} (h : Inputted env c t t') (hp : t.PendingOk) : t'.PendingOk := by
  cases h with
  | ignored _ h => exact h ▸ hp
  | joined _ _ h _ => exact h.pendingOk hp
  | printed _ _ ha hb h =>
      have hap : PendingOk _ := ha.elim (fun h => h.2 ▸ hp) fun h => h.2.pendingOk hp
      exact h.pendingOk (hb.elim (fun h => h ▸ hap) fun h => h.2.pendingOk hap)

theorem Quiet.pendingOk (h : t.Quiet t') (hp : t.PendingOk) : t'.PendingOk := by
  have hgrid := h.grid
  refine ⟨⟨?_, ?_⟩, h.inactiveGrid ▸ hp.inactiveGrid⟩
  · rw [show t'.grid.columns = t.grid.columns from (congrArg Grid.columns hgrid :)]
    simp only [Cursor.WrapsAtEnd, h.point, h.needsWrap]
    exact hp.grid.cursor
  · rw [show t'.grid.columns = t.grid.columns from (congrArg Grid.columns hgrid :),
      show t'.grid.savedCursor = t.grid.savedCursor from (congrArg Grid.savedCursor hgrid :)]
    exact hp.grid.savedCursor

theorem Regioned.pendingOk {top : Nat} {bottom : Option Nat} (h : Regioned top bottom t t')
    (hp : t.PendingOk) : t'.PendingOk := by
  cases h with
  | invalid _ h => exact h ▸ hp
  | home _ _ _ _ _ _ h hneeds =>
      exact h.toEdited.pendingOk ⟨hp.grid, hp.inactiveGrid⟩ (wrapsAtEnd_of_free hneeds)

theorem Redone.pendingOk (h : Redone t t') (hp : t.PendingOk) : t'.PendingOk :=
  h.toEdited.pendingOk hp (h.cursor.symm ▸ hp.grid.cursor)

theorem Cleared.pendingOk (h : Cleared t t') (hp : t.PendingOk) : t'.PendingOk := by
  cases h with
  | redone h => exact h.pendingOk hp
  | viewport h _ => exact hp.same h.same rfl (congrArg Term.inactiveGrid h.rest :)
  | history h _ => exact hp.same h.same rfl (congrArg Term.inactiveGrid h.rest :)

theorem Restarted.pendingOk (h : Restarted t t') : t'.PendingOk := by
  refine ⟨⟨?_, ?_⟩, ⟨?_, ?_⟩⟩
  · rw [h.cursor]
    exact wrapsAtEnd_of_free rfl
  · rw [h.savedCursor]
    exact wrapsAtEnd_of_free rfl
  · rw [h.inactiveCursor]
    exact wrapsAtEnd_of_free rfl
  · rw [h.inactiveSaved]
    exact wrapsAtEnd_of_free rfl

theorem Swapped.pendingOk (h : Swapped t t') (ht : t.WF) (hp : t.PendingOk) : t'.PendingOk := by
  cases halt : t.mode.altScreen with
  | true =>
      obtain ⟨hgrid, hinactive⟩ := h.toPrimary halt
      exact ⟨hgrid ▸ hp.inactiveGrid, hinactive ▸ hp.grid⟩
  | false =>
      obtain ⟨hsame, hinactive⟩ := h.toAlternate halt
      refine ⟨⟨?_, ?_⟩, hinactive ▸ ⟨hp.grid.cursor, hp.grid.cursor⟩⟩
      · rw [hsame.cursor, hsame.columns, ht.inactive_columns]
        exact hp.grid.cursor
      · rw [hsame.savedCursor, hsame.columns]
        exact hp.inactiveGrid.savedCursor

theorem Stepped.pendingOk {op : HandlerOp} (h : Stepped env t t' op) (ht : t.WF) (hp : t.PendingOk)
    (hsafe : TermOp.WrapSafe t (.handler op)) : t'.PendingOk := by
  cases h with
  | same h => exact h ▸ hp
  | quiet h => exact h.pendingOk hp
  | inputted h => exact h.pendingOk hp
  | freed ha h hneeds => exact h.toEdited.pendingOk (ha.pendingOk hp) (wrapsAtEnd_of_free hneeds)
  | raised h hcolumn hneeds =>
      refine h.toEdited.pendingOk hp ?_
      simp only [Cursor.WrapsAtEnd, hcolumn, hneeds]
      exact hp.grid.cursor
  | wrapped _ h => exact h.pendingOk hp
  | tabbed hneeds h => exact h.edited.pendingOk hp (wrapsAtEnd_of_free (h.needsWrap.trans hneeds))
  | tabbedBack column h hcursor hcolumn =>
      refine h.toEdited.pendingOk hp ?_
      rw [hcursor]
      intro hnw
      rcases hcolumn with ⟨rfl, -⟩ | ⟨hlt, hcount, hstop⟩
      · exact hp.grid.cursor hnw
      · rcases hsafe with hno | hzero | hnone
        · exact absurd (hno.symm.trans hnw) (by decide)
        · exact absurd hzero hcount
        · exact absurd hstop (hnone column hlt)
  | tabbedForward column h hcursor hlo hhi =>
      refine h.toEdited.pendingOk hp ?_
      rw [hcursor]
      intro hnw
      have := hp.grid.cursor hnw
      simp only
      omega
  | linefed _ h => exact h.pendingOk hp
  | newline ha h hneeds => exact h.toEdited.pendingOk (ha.pendingOk hp) (wrapsAtEnd_of_free hneeds)
  | scrolledUp h => exact h.pendingOk hp
  | scrolledDown _ h => exact hp.same h.same.toSameScreen rfl (congrArg Term.inactiveGrid h.rest :)
  | deletedLines _ _ h => exact h.pendingOk hp
  | redrawn h =>
      obtain ⟨S, h, -⟩ := h
      exact h.pendingOk hp
  | redone h => exact h.pendingOk hp
  | saved h => exact h ▸ ⟨⟨hp.grid.cursor, hp.grid.cursor⟩, hp.inactiveGrid⟩
  | restored h hcursor => exact h.toEdited.pendingOk hp (hcursor.symm ▸ hp.grid.savedCursor)
  | cleared h => exact h.pendingOk hp
  | restarted h => exact h.pendingOk
  | regioned h => exact h.pendingOk hp
  | regionedRedone ha h => exact h.pendingOk (ha.pendingOk hp)
  | swapped _ h => exact h.pendingOk ht hp

theorem Viewed.pendingOk (h : Viewed t t') (hp : t.PendingOk) : t'.PendingOk := by
  rw [h.rest]
  exact ⟨⟨hp.grid.cursor, hp.grid.savedCursor⟩, hp.inactiveGrid⟩

theorem updateHistory_pendingOk {g g' : Grid Cell} {n : Nat} (h : g.WF) (hp : g.PendingOk)
    (hg : g.updateHistory n = some g') : g'.PendingOk := by
  obtain ⟨-, -, hcolumns, -, -, -, hcursor, hsaved⟩ := (Grid.updateHistory_returns h n).of_eq hg
  refine ⟨?_, ?_⟩
  · rw [hcolumns, hcursor]
    exact hp.cursor
  · rw [hcolumns, hsaved]
    exact hp.savedCursor

theorem Configured.pendingOk {options : Config} (h : Configured options t t') (ht : t.WF)
    (hp : t.PendingOk) : t'.PendingOk := by
  cases halt : t.mode.altScreen with
  | true =>
      obtain ⟨hgrid, hupdate⟩ := h.alternate halt
      exact ⟨hgrid ▸ hp.grid, updateHistory_pendingOk ht.inactiveGrid hp.inactiveGrid hupdate⟩
  | false =>
      obtain ⟨hgrid, hupdate⟩ := h.primary halt
      exact ⟨updateHistory_pendingOk ht.grid hp.grid hupdate, hgrid ▸ hp.inactiveGrid⟩

/-- A resize keeps pending wraps at the last column exactly if both screens widen safely. -/
theorem resize_pendingOk_iff (ht : t.WF) (hp : t.PendingOk) {lines columns : Nat} (hl : 1 ≤ lines)
    (hc : 2 ≤ columns) : Allows (t.resize lines columns) fun t' =>
      t'.PendingOk ↔ TermOp.WrapSafe t (.resize lines columns) := by
  refine (resize_allows ht hl hc).mono fun t' ht' => ?_
  rcases ht' with ⟨rfl, hsame⟩ | h
  · refine iff_of_true hp ⟨.inl (Nat.le_of_eq hsame.symm), .inl (Nat.le_of_eq ?_)⟩
    exact hsame.symm.trans ht.inactive_columns.symm
  · have hgrid := Grid.resize_pendingOk_iff ht.grid hp.grid hl hc _ h.grid
    have hinactive := Grid.resize_pendingOk_iff ht.inactiveGrid hp.inactiveGrid hl hc _ h.inactiveGrid
    exact ⟨fun hok => ⟨hgrid.mp hok.grid, hinactive.mp hok.inactiveGrid⟩,
      fun hsafe => ⟨hgrid.mpr hsafe.1, hinactive.mpr hsafe.2⟩⟩

theorem moveBackwardTabs_pendingOk_iff (ht : t.WF) (hp : t.PendingOk) (count : Nat) :
    Allows (t.moveBackwardTabs count) fun t' =>
      t'.PendingOk ↔ TermOp.WrapSafe t (.handler (.moveBackwardTabs count)) := by
  refine (moveBackwardTabs_returns ht count).allows.mono fun t' ht' => ?_
  obtain ⟨hmoved, column, hcursor, hcolumn⟩ := ht'
  have hstepped : Stepped .ascii t t' (.moveBackwardTabs count) := .tabbedBack column hmoved hcursor hcolumn
  refine ⟨fun hok => ?_, hstepped.pendingOk ht hp⟩
  rcases hcolumn with ⟨-, hstay⟩ | ⟨hlt, -, -⟩
  · exact .inr hstay
  · refine .inl (Bool.eq_false_iff.mpr fun hnw => ?_)
    have hlast := hp.grid.cursor hnw
    have hlast' := hok.grid.cursor (by rw [hcursor]; exact hnw)
    rw [hcursor, hmoved.columns] at hlast'
    simp only at hlast'
    omega

/-- Per step: the pending wraps stay at the last column exactly if the step is safe. -/
theorem step_pendingOk_iff (ht : t.WF) (hp : t.PendingOk) {op : TermOp} (hop : op.Admissible t) :
    Allows (op.step env t) fun t' => t'.PendingOk ↔ op.WrapSafe t := by
  by_cases hsafe : op.WrapSafe t
  · refine (TermOp.step_stepped env ht hop).mono fun t' ht' => iff_of_true ?_ hsafe
    cases ht' with
    | handler h => exact h.pendingOk ht hp hsafe
    | viewed h => exact h.pendingOk hp
    | flagged h => exact h ▸ ⟨⟨hp.grid.cursor, hp.grid.savedCursor⟩, hp.inactiveGrid⟩
    | resized h =>
        exact ⟨(Grid.resize_pendingOk_iff ht.grid hp.grid hop.1 hop.2 _ h.grid).mpr hsafe.1,
          (Grid.resize_pendingOk_iff ht.inactiveGrid hp.inactiveGrid hop.1 hop.2 _
            h.inactiveGrid).mpr hsafe.2⟩
    | configured h => exact h.pendingOk ht hp
    | swapped h => exact h.pendingOk ht hp
  · cases op with
    | handler op =>
        cases op with
        | moveBackwardTabs count => exact moveBackwardTabs_pendingOk_iff ht hp count
        | _ => exact absurd trivial hsafe
    | resize lines columns => exact resize_pendingOk_iff ht hp hop.1 hop.2
    | _ => exact absurd trivial hsafe

theorem new_pendingOk (config : Config) (lines columns : Nat) : (new config lines columns).PendingOk :=
  ⟨⟨wrapsAtEnd_of_free rfl, wrapsAtEnd_of_free rfl⟩, ⟨wrapsAtEnd_of_free rfl, wrapsAtEnd_of_free rfl⟩⟩

/-- In every run of safe steps, a pending wrap of any cursor is at the last column. -/
theorem run_pendingOk {config : Config} {lines columns : Nat} (hl : 1 ≤ lines) (hc : 2 ≤ columns)
    (h : Reaches (TermOp.step env) (fun t op => op.Admissible t ∧ op.WrapSafe t)
      (new config lines columns) t) : t.PendingOk := by
  have hinv : t.WF ∧ t.PendingOk := by
    refine h.invariant (P := fun t => t.WF ∧ t.PendingOk)
      ⟨new_wf config hl hc, new_pendingOk config lines columns⟩ fun s op s' hs hop hstep => ?_
    exact ⟨(TermOp.step_stepped env hs.1 hop.1 _ hstep).wf hs.1,
      (step_pendingOk_iff hs.1 hs.2 hop.1 _ hstep).mpr hop.2⟩
  exact hinv.2

/-- Printing to the end of a line, where the next wrap is pending. -/
theorem run_pendingOk_printed : ∃ t : Term,
    Reaches (TermOp.step .ascii) (fun t op => op.Admissible t ∧ op.WrapSafe t) (new .initial 1 2) t ∧
      t.grid.cursor.inputNeedsWrap = true ∧ t.PendingOk := by
  have hrun : Reaches (TermOp.step .ascii) (fun t op => op.Admissible t ∧ op.WrapSafe t)
      (new .initial 1 2) _ :=
    .step (.step .refl (a := .handler (.input 'a')) (And.intro trivial trivial) rfl)
      (a := .handler (.input 'b')) (And.intro trivial trivial) rfl
  exact ⟨_, hrun, rfl, run_pendingOk (by decide) (by decide) hrun⟩

/-- Going back over a tab from a full line leaves its pending wrap at the first column. -/
theorem pendingWrap_leaves_end : ∃ t : Term, Reachable .ascii .initial 1 2 t ∧
    t.grid.cursor.inputNeedsWrap = true ∧ t.grid.cursor.point.column = 0 ∧ ¬ t.PendingOk := by
  have hrun : Reachable .ascii .initial 1 2 _ :=
    .step (.step (.step .refl (a := .handler (.input 'a')) trivial rfl)
      (a := .handler (.input 'b')) trivial rfl) (a := .handler (.moveBackwardTabs 1)) trivial rfl
  refine ⟨_, hrun, rfl, rfl, fun hok => ?_⟩
  exact absurd (hok.grid.cursor rfl) (by decide)

end Term
end Velacritty
