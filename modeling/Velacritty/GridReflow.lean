import Velacritty.GridResizeSound

/-! What growing does to the rows, and to the cursor on its way through them. -/
namespace Velacritty
open Fallible
variable {T : Type} [GridCell T] {columns i : Nat} {row : Row T} {st st' : GrowState T}

namespace Grid

/-- `linesResized` is the grid whose columns a resize changes. -/
def linesResized (g : Grid T) (lines : Nat) : Option (Grid T) :=
  let g := { g with cursor.template := default }
  if g.lines < lines then g.growLines lines
  else if lines < g.lines then g.shrinkLines lines
  else some g

def columnsResized (g : Grid T) (reflow : Bool) (columns : Nat) : Option (Grid T) :=
  if g.columns < columns then g.growColumns reflow columns
  else if columns < g.columns then g.shrinkColumns reflow columns
  else some g

theorem resize_eq (g : Grid T) (reflow : Bool) (lines columns : Nat) :
    g.resize reflow lines columns = g.linesResized lines >>= fun a =>
      a.columnsResized reflow columns >>= fun b =>
        some { b with cursor.template := g.cursor.template } := rfl

/-- The lines of a cursor move when the number of lines changes, nothing else does. -/
theorem linesResized_returns {g : Grid T} (h : g.WF) {lines : Nat} (hl : 1 ≤ lines) :
    Returns (g.linesResized lines) fun a => a.WF ∧ a.lines = lines ∧ a.columns = g.columns ∧
      (∃ line, a.cursor = { g.cursor with point.line := line, template := default }) ∧
      ∃ line, a.savedCursor = { g.savedCursor with point.line := line } := by
  have hstart : WF { g with cursor.template := default } :=
    ⟨h.raw, h.visible, h.columns_pos, h.history_le, h.cursor, h.savedCursor⟩
  simp only [linesResized]
  split
  · next hlt =>
      refine (growLines_returns hstart (Nat.le_of_lt hlt)).mono fun a ha => ?_
      obtain ⟨hwf, hlines, hcolumns, -, -, hcursor, hsaved⟩ := ha
      exact ⟨hwf, hlines, hcolumns, ⟨_, hcursor⟩, ⟨_, hsaved⟩⟩
  · next hge =>
      split
      · next hlt =>
          refine (shrinkLines_returns hstart hl (Nat.le_of_lt hlt)).mono fun a ha => ?_
          obtain ⟨hwf, hlines, hcolumns, -, -, hcursor, hsaved⟩ := ha
          exact ⟨hwf, hlines, hcolumns, ⟨_, hcursor⟩, ⟨_, hsaved⟩⟩
      · next hle =>
          exact .pure ⟨hstart, Nat.le_antisymm (Nat.not_lt.mp hle) (Nat.not_lt.mp hge), rfl,
            ⟨_, rfl⟩, ⟨_, rfl⟩⟩

omit [GridCell T] in
theorem unwrapCursor_needsWrap (g : Grid T) : (g.unwrapCursor true).cursor.inputNeedsWrap = false := by
  unfold unwrapCursor
  split
  · rfl
  · next h =>
      rw [Bool.and_true] at h
      exact Bool.eq_false_iff.mpr h

/-- How many lines the screen has below the cursor. -/
def below (g : Grid T) : Int := g.lines - g.cursor.point.line - 1

end Grid

/-- What growing makes of the rows above a row, newest first, and that row. A row that
was pulled up as a whole leaves, unless it is to be kept. -/
def growPushed (columns : Nat) (keep : Bool) (reversed : List (Row T)) (row : Row T) :
    Option (List (Row T)) :=
  match reversed with
  | [] => some [row]
  | lastRow :: above =>
      if shouldReflow true columns lastRow then do
        let (lastRow, row, _) ← pullCells columns lastRow row
        some (if row.isClear && !keep then lastRow :: above
          else row :: lastRow.modifyLast (setWrapline true) :: above)
      else some (row :: lastRow :: above)

/-- A row away from the cursor's: rows below the cursor that leave move it down. -/
structure GrownPast (columns i : Nat) (row : Row T) (st st' : GrowState T) : Prop where
  reversed : growPushed columns false st.reversed row = some st'.reversed
  grid : st'.grid = { st.grid with
    displayOffset := st'.grid.displayOffset, cursor.point.line := st'.grid.cursor.point.line }
  delta : st'.cursorLineDelta = st.cursorLineDelta
  line : st'.grid.cursor.point.line = st.grid.cursor.point.line +
    if (i : Int) < st.grid.below then (st.reversed.length + 1 - st'.reversed.length : Int) else 0

theorem growRow_past (hlo : 0 ≤ st.grid.cursor.point.line)
    (hhi : st.grid.cursor.point.line < st.grid.lines) (hi : (i : Int) ≠ st.grid.below) :
    Allows (growRow true columns i row st) (GrownPast columns i row st) := by
  have hpush : ∀ (reversed : List (Row T)) {st' : GrowState T},
      growPushed columns false st.reversed row = some reversed →
      reversed.length = st.reversed.length + 1 → st' = { st with reversed } →
      GrownPast columns i row st st' := by
    rintro reversed st' hrev hlen rfl
    refine ⟨hrev, rfl, rfl, ?_⟩
    simp only [hlen]
    split <;> omega
  unfold growRow
  split
  · next hnil =>
      refine .pure (hpush [row] ?_ ?_ rfl)
      · simp only [growPushed, hnil]
      · rw [hnil]
        rfl
  · next lastRow above hrev =>
      have hlen : st.reversed.length = above.length + 1 := by rw [hrev, List.length_cons]
      by_cases hshould : shouldReflow true columns lastRow = true
      · rw [if_pos hshould]
        intro st' hst'
        simp only [Option.bind_eq_bind, Option.bind_eq_some_iff] at hst'
        obtain ⟨⟨last', row', numWrapped⟩, hpull, cbl, hcbl, hst'⟩ := hst'
        have hbelow : (cbl : Int) = st.grid.below :=
          (Grid.cursorBufferLine_returns hlo hhi).of_eq hcbl
        rw [if_neg fun h => hi (by omega)] at hst'
        have hpushed : growPushed columns false st.reversed row = some (if row'.isClear then
            last' :: above else row' :: last'.modifyLast (setWrapline true) :: above) := by
          simp only [growPushed, hrev, hshould, hpull, if_true, Option.bind_eq_bind,
            Option.bind_some, Bool.not_false, Bool.and_true]
        by_cases hclear : row'.isClear = true
        · rw [if_pos hclear] at hst' hpushed
          obtain rfl := Option.some.inj hst'
          refine ⟨hpushed, rfl, rfl, ?_⟩
          simp only [List.length_cons, hlen]
          by_cases hbefore : i < cbl
          · rw [if_pos hbefore, if_pos (by omega)]
            omega
          · rw [if_neg hbefore, if_neg (by omega), Int.add_zero]
        · rw [if_neg hclear] at hst' hpushed
          obtain rfl := Option.some.inj hst'
          refine hpush _ hpushed ?_ rfl
          simp only [List.length_cons, hlen]
      · rw [if_neg hshould]
        refine .pure (hpush (row :: st.reversed) ?_ rfl rfl)
        simp only [growPushed, hrev]
        exact if_neg hshould

theorem growRows_above {above below : List (Row T)} (hlo : 0 ≤ st.grid.cursor.point.line)
    (hhi : st.grid.cursor.point.line < st.grid.lines) (hi : st.grid.below < below.length) :
    Allows (growRows true columns (above ++ below) st) fun st' =>
      ∃ a offset, growRows true columns below a = some st' ∧
        above.foldlM (growPushed columns false) st.reversed = some a.reversed ∧
        a.grid = { st.grid with displayOffset := offset } ∧
        a.cursorLineDelta = st.cursorLineDelta := by
  induction above generalizing st with
  | nil => exact fun st' hst' => ⟨st, _, hst', rfl, rfl, rfl⟩
  | cons row rest ih =>
      intro st' hst'
      simp only [List.cons_append, growRows, Option.bind_eq_bind, Option.bind_eq_some_iff] at hst'
      obtain ⟨s, hs, hst'⟩ := hst'
      have hpast := growRow_past hlo hhi (by rw [List.length_append]; omega) s hs
      have hline : s.grid.cursor.point.line = st.grid.cursor.point.line := by
        have h := hpast.line
        rwa [if_neg (by rw [List.length_append]; omega), Int.add_zero] at h
      have hgrid : s.grid = { st.grid with displayOffset := s.grid.displayOffset } := by
        rw [hpast.grid, hline]
      have hlines : s.grid.lines = st.grid.lines := (congrArg Grid.lines hgrid :)
      have hbelow : s.grid.below = st.grid.below := by rw [Grid.below, Grid.below, hlines, hline]
      obtain ⟨a, offset, hrows, hrev, ha, hdelta⟩ :=
        ih (hline ▸ hlo) (by rw [hline, hlines]; exact hhi) (by rw [hbelow]; exact hi) st' hst'
      refine ⟨a, offset, hrows, ?_, ?_, hdelta.trans hpast.delta⟩
      · rw [List.foldlM_cons, hpast.reversed]
        exact hrev
      · rw [ha, hgrid]

/-- The rows below the cursor's leave its column alone, and never catch up with it. -/
theorem growRows_below {rows : List (Row T)} (hlo : 0 ≤ st.grid.cursor.point.line)
    (hi : (rows.length : Int) ≤ st.grid.below) :
    Allows (growRows true columns rows st) fun st' =>
      rows.foldlM (growPushed columns false) st.reversed = some st'.reversed ∧
      st'.grid = { st.grid with
        displayOffset := st'.grid.displayOffset, cursor.point.line := st'.grid.cursor.point.line } ∧
      st'.cursorLineDelta = st.cursorLineDelta ∧
      st'.grid.cursor.point.line =
        st.grid.cursor.point.line + (st.reversed.length + rows.length - st'.reversed.length : Int) ∧
      st'.reversed.length ≤ st.reversed.length + rows.length := by
  induction rows generalizing st with
  | nil =>
      refine .pure ⟨rfl, rfl, rfl, ?_, Nat.le_refl _⟩
      simp only [List.length_nil]
      omega
  | cons row rest ih =>
      intro st' hst'
      simp only [growRows, Option.bind_eq_bind, Option.bind_eq_some_iff] at hst'
      obtain ⟨s, hs, hst'⟩ := hst'
      rw [List.length_cons] at hi
      have hhi : st.grid.cursor.point.line < st.grid.lines := by
        simp only [Grid.below] at hi
        omega
      have hpast := growRow_past hlo hhi (by omega) s hs
      have hline := hpast.line
      rw [if_pos (by omega)] at hline
      have hlen : s.reversed.length = st.reversed.length + 1 ∨
          s.reversed.length = st.reversed.length := by
        have h := hpast.reversed
        unfold growPushed at h
        split at h
        · next hnil =>
            rw [← Option.some.inj h, hnil]
            exact .inl rfl
        · next hrev =>
            rw [hrev]
            split at h
            · simp only [Option.bind_eq_bind, Option.bind_eq_some_iff, Option.some.injEq] at h
              obtain ⟨p, -, h⟩ := h
              rw [← h]
              split
              · exact .inr rfl
              · exact .inl rfl
            · rw [← Option.some.inj h]
              exact .inl rfl
      have hlines : s.grid.lines = st.grid.lines := (congrArg Grid.lines hpast.grid :)
      have hlo' : 0 ≤ s.grid.cursor.point.line := by omega
      have hi' : (rest.length : Int) ≤ s.grid.below := by
        simp only [Grid.below, hlines] at hi ⊢
        omega
      obtain ⟨hrev, hgrid, hdelta, hline', hle⟩ := ih hlo' hi' st' hst'
      refine ⟨?_, ?_, hdelta.trans hpast.delta, ?_, ?_⟩
      · rw [List.foldlM_cons, hpast.reversed]
        exact hrev
      · rw [hgrid, hpast.grid]
      · rw [hline', hline, List.length_cons]
        omega
      · rw [List.length_cons]
        omega

/-- The cursor's own row: the cursor moves along with the cells that leave it, and the
row stays if the cursor does. -/
inductive GrownAt (columns : Nat) (row : Row T) (st st' : GrowState T) : Prop
  | pushed (hrev : ∀ last above, st.reversed = last :: above → shouldReflow true columns last = false)
      (h : st' = { st with reversed := row :: st.reversed })
  | pulled {last last' row' : Row T} {above : List (Row T)} {numWrapped : Nat} {target : Point}
      {clamp : Bool} (hrev : st.reversed = last :: above)
      (hshould : shouldReflow true columns last = true)
      (hpull : pullCells columns last row = some (last', row', numWrapped))
      (htarget : reflowTarget ⟨0, st.grid.lines, columns⟩ st.grid.cursor.point numWrapped row'.isClear =
        (target, clamp))
      (hgrid : st'.grid = { st.grid with
        cursor.inputNeedsWrap := st.grid.cursor.inputNeedsWrap || clamp
        cursor.point.column := target.column })
      (h : target.line < st.grid.cursor.point.line ∧ row'.isClear = true ∧
          st'.reversed = last' :: above ∧ st'.cursorLineDelta = st.cursorLineDelta ∨
        (st.grid.cursor.point.line ≤ target.line ∨ row'.isClear = false) ∧
          st'.reversed = row' :: last'.modifyLast (setWrapline true) :: above ∧
          st'.cursorLineDelta =
            st.cursorLineDelta + (st.grid.cursor.point.line - target.line).toNat)

theorem growRow_cursor (hlo : 0 ≤ st.grid.cursor.point.line)
    (hhi : st.grid.cursor.point.line < st.grid.lines) (hi : (i : Int) = st.grid.below) :
    Allows (growRow true columns i row st) (GrownAt columns row st) := by
  unfold growRow
  split
  · next hnil =>
      refine .pure (.pushed (fun last above hrev => ?_) ?_)
      · rw [hnil] at hrev
        cases hrev
      · rw [hnil]
  · next lastRow above hrev =>
      by_cases hshould : shouldReflow true columns lastRow = true
      · rw [if_pos hshould]
        intro st' hst'
        simp only [Option.bind_eq_bind, Option.bind_eq_some_iff] at hst'
        obtain ⟨⟨last', row', numWrapped⟩, hpull, cbl, hcbl, hst'⟩ := hst'
        have hbelow : (cbl : Int) = st.grid.below :=
          (Grid.cursorBufferLine_returns hlo hhi).of_eq hcbl
        rw [if_pos ⟨by omega, trivial⟩] at hst'
        simp only [Option.bind_eq_some_iff] at hst'
        obtain ⟨⟨grid, lineDelta⟩, hreflow, hst'⟩ := hst'
        simp only [reflowCursor, Option.bind_eq_bind, Option.bind_eq_some_iff] at hreflow
        obtain ⟨delta, hdelta, hreflow⟩ := hreflow
        simp only [Option.some.injEq, Prod.mk.injEq] at hreflow
        obtain ⟨rfl, rfl⟩ := hreflow
        rw [toUsize_eq_some] at hdelta
        generalize htarget : reflowTarget ⟨0, st.grid.lines, columns⟩ st.grid.cursor.point numWrapped
          row'.isClear = target at hdelta hst'
        obtain ⟨target, clamp⟩ := target
        simp only at hdelta hst'
        split at hst'
        · next hdrop =>
            obtain rfl := Option.some.inj hst'
            exact .pulled hrev hshould hpull htarget rfl (.inl ⟨by omega, hdrop.2, rfl, rfl⟩)
        · next hkeep =>
            obtain rfl := Option.some.inj hst'
            refine .pulled hrev hshould hpull htarget rfl (.inr ⟨?_, rfl, by simp only; omega⟩)
            by_cases hclear : row'.isClear = true
            · have hzero : delta = 0 := not_not.mp fun hne => hkeep ⟨hne, hclear⟩
              exact .inl (by omega)
            · exact .inr (Bool.eq_false_iff.mpr hclear)
      · rw [if_neg hshould]
        refine .pure (.pushed (fun last above' hrev' => ?_) (by rw [hrev]))
        rw [hrev] at hrev'
        cases hrev'
        exact Bool.eq_false_iff.mpr hshould

theorem growRows_noReflow (columns : Nat) (rows : List (Row T)) (st : GrowState T) :
    growRows false columns rows st = some { st with reversed := rows.reverse ++ st.reversed } := by
  induction rows generalizing st with
  | nil => rfl
  | cons row rest ih =>
      have hrow : growRow false columns rest.length row st =
          some { st with reversed := row :: st.reversed } := by
        unfold growRow
        split
        · next hnil => rw [hnil]
        · next hrev =>
            rw [hrev]
            rfl
      rw [growRows, hrow, Option.bind_eq_bind, Option.bind_some, ih, List.reverse_cons,
        List.append_assoc, List.singleton_append]

/-- Filling the screen, and pulling content down, move the cursor to another line. -/
theorem fillViewport_grid (columns : Nat) (st : GrowState T) :
    ∃ line, (fillViewport columns st).grid = { st.grid with cursor.point.line := line } := by
  unfold fillViewport
  split
  · exact ⟨_, rfl⟩
  · exact ⟨_, rfl⟩

omit [GridCell T] in
theorem pullDown_grid : Allows (pullDown st) fun st' =>
    ∃ line, st'.grid = { st.grid with cursor.point.line := line } := by
  unfold pullDown
  split
  · intro st' hst'
    simp only [Option.bind_eq_bind, Option.bind_eq_some_iff, Option.some.injEq] at hst'
    obtain ⟨_, -, _, -, _, -, rfl⟩ := hst'
    exact ⟨_, rfl⟩
  · exact .pure ⟨_, rfl⟩

namespace Grid
variable {g g' : Grid T}

/-- The way from a grid to the grown one: through the rows `above` the cursor's, the
cursor's `row` and the ones `below` it. -/
structure Grown (g : Grid T) (columns : Nat) (rows above below : List (Row T)) (row : Row T)
    (a b c d : GrowState T) (g' : Grid T) : Prop where
  takeAll : ∃ raw, g.raw.takeAll = some (rows, raw)
  split : rows.reverse = above ++ row :: below
  row_wf : ∀ r ∈ rows, r.WF g.columns
  length_below : (below.length : Int) = g.below
  grown_above : above.foldlM (growPushed columns false) [] = some a.reversed
  start : ∃ raw offset, a.grid = { ({ g with columns }.unwrapCursor true) with
    raw, displayOffset := offset }
  start_delta : a.cursorLineDelta = 0
  cursor : GrownAt columns row a b
  grown_below : below.foldlM (growPushed columns false) b.reversed = some c.reversed
  after : ∃ offset line, c.grid = { b.grid with
    displayOffset := offset, cursor.point.line := line }
  after_line : c.grid.cursor.point.line = b.grid.cursor.point.line +
    (b.reversed.length + below.length - c.reversed.length : Int)
  after_delta : c.cursorLineDelta = b.cursorLineDelta
  filled : pullDown (fillViewport columns c) = some d
  result : g' = d.grid.adoptRows (d.reversed.map (Row.grow · columns))

theorem growColumns_grown (h : g.WF) (columns : Nat) :
    Allows (g.growColumns true columns) fun g' =>
      ∃ rows above below row a b c d, Grown g columns rows above below row a b c d g' := by
  intro g' hg'
  obtain ⟨hunwrap, hcol⟩ := h.unwrapCursor columns true
  obtain ⟨hlo, hhi, -⟩ := h.cursor
  have hlines := h.lines_le
  simp only [growColumns, Option.bind_eq_bind, Option.bind_eq_some_iff, Option.some.injEq] at hg'
  obtain ⟨⟨rows, raw⟩, htake, st, hst, d, hd, rfl⟩ := hg'
  have hraw : (unwrapCursor { g with columns } true).raw = g.raw := hunwrap.raw
  rw [hraw] at htake
  obtain ⟨hlen, hwf, -⟩ := (Storage.takeAll_returns h.raw).of_eq htake
  simp only at hlen hwf
  have hline : (unwrapCursor { g with columns } true).cursor.point.line = g.cursor.point.line := by
    unfold unwrapCursor
    split <;> rfl
  obtain ⟨n, hn⟩ : ∃ n : Nat, (n : Int) = g.below := ⟨g.below.toNat, by
    simp only [Grid.below]
    omega⟩
  have hlt : n < rows.length := by
    simp only [Grid.below] at hn
    omega
  have hsplit : rows.reverse = (rows.drop (n + 1)).reverse ++ rows[n] :: (rows.take n).reverse := by
    conv_lhs => rw [← List.take_append_drop n rows, List.drop_eq_getElem_cons hlt]
    simp only [List.reverse_append, List.reverse_cons, List.append_assoc, List.singleton_append]
  generalize hu : unwrapCursor { g with columns } true = u at *
  have hul : u.lines = g.lines := hunwrap.lines
  have hbl : ((rows.take n).reverse.length : Int) = g.below := by
    rw [List.length_reverse, List.length_take_of_le (Nat.le_of_lt hlt), hn]
  rw [hsplit] at hst
  have hubelow : Grid.below { u with raw } = g.below := by
    simp only [Grid.below, hul, hline]
  obtain ⟨a, offset, hrest, ha, hagrid, hadelta⟩ := growRows_above (by simp only; omega)
    (by simp only; omega) (by rw [hubelow, List.length_cons]; omega) st hst
  simp only [growRows, Option.bind_eq_bind, Option.bind_eq_some_iff] at hrest
  obtain ⟨b, hb, hrest⟩ := hrest
  have haline : a.grid.cursor.point.line = g.cursor.point.line := by rw [hagrid]; exact hline
  have halines : a.grid.lines = g.lines := by rw [hagrid]; exact hul
  have habelow : a.grid.below = g.below := by rw [Grid.below, Grid.below, haline, halines]
  have hcursor := growRow_cursor (by omega) (by omega) (by rw [habelow]; exact hbl) b hb
  have hbgrid : b.grid.cursor.point.line = a.grid.cursor.point.line ∧ b.grid.lines = a.grid.lines := by
    cases hcursor with
    | pushed _ h =>
        rw [h]
        exact ⟨rfl, rfl⟩
    | pulled _ _ _ _ hgrid _ =>
        rw [hgrid]
        exact ⟨rfl, rfl⟩
  have hbbelow : b.grid.below = g.below := by rw [Grid.below, hbgrid.1, hbgrid.2, ← Grid.below, habelow]
  obtain ⟨hc, hcgrid, hcdelta, hcline, -⟩ := growRows_below (by omega)
    (by rw [hbbelow]; exact Int.le_of_eq hbl) st hrest
  exact ⟨rows, _, _, _, a, b, st, d, ⟨raw, htake⟩, hsplit, hwf, hbl, ha, ⟨raw, offset, by rw [hagrid, ← hu]⟩,
    hadelta, hcursor, hc, ⟨_, _, hcgrid⟩, hcline, hcdelta, hd, rfl⟩

end Grid

/-! ### Shrinking -/

variable {reflow : Bool} {sh : ShrinkState T}

/-- The cursor moves while rows are shrunk, and the viewport; the rest stays. -/
structure ShrinksBeside (g g' : Grid T) : Prop where
  needsWrap : g'.cursor.inputNeedsWrap = g.cursor.inputNeedsWrap
  savedCursor : g'.savedCursor = g.savedCursor
  columns : g'.columns = g.columns

omit [GridCell T] in
theorem ShrinksBeside.trans {a b c : Grid T} (h : ShrinksBeside a b) (h' : ShrinksBeside b c) :
    ShrinksBeside a c :=
  ⟨h'.needsWrap.trans h.needsWrap, h'.savedCursor.trans h.savedCursor, h'.columns.trans h.columns⟩

theorem shrinkStep_beside : Allows (shrinkStep reflow columns i (row, sh))
    (Sum.elim (fun s => ShrinksBeside sh.grid s.grid) fun q => ShrinksBeside sh.grid q.2.grid) := by
  intro r hr
  simp only [shrinkStep, Option.bind_eq_bind, Option.bind_eq_some_iff] at hr
  obtain ⟨wrapped, -, hr⟩ := hr
  cases wrapped with
  | none => exact Option.some.inj hr ▸ ⟨rfl, rfl, rfl⟩
  | some wrapped =>
      simp only [Option.bind_eq_some_iff] at hr
      obtain ⟨split, -, hr⟩ := hr
      cases split with
      | spacerOnly row => exact Option.some.inj hr ▸ ⟨rfl, rfl, rfl⟩
      | wrapped row cells =>
          simp only at hr
          split at hr
          · exact Option.some.inj hr ▸ ⟨rfl, rfl, rfl⟩
          · simp only [startWrappedRow, Option.bind_eq_bind, Option.bind_assoc,
              Option.bind_eq_some_iff, Option.bind_some, Option.some.injEq] at hr
            obtain ⟨_, -, rfl⟩ := hr
            exact ⟨rfl, rfl, rfl⟩

theorem shrinkRows_beside (rows : List (Row T)) :
    Allows (shrinkRows reflow columns rows sh) fun sh' => ShrinksBeside sh.grid sh'.grid := by
  induction rows generalizing sh with
  | nil => exact .pure ⟨rfl, rfl, rfl⟩
  | cons row rest ih =>
      refine Allows.bind (P := fun p : Row T × ShrinkState T => ShrinksBeside sh.grid p.2.grid) ?_
        fun p hp => ?_
      · unfold prependBuffered
        split
        · exact .pure ⟨rfl, rfl, rfl⟩
        · intro p hp
          simp only [Option.bind_eq_bind, Option.bind_eq_some_iff, Option.some.injEq] at hp
          obtain ⟨_, -, rfl⟩ := hp
          exact ⟨rfl, rfl, rfl⟩
      · refine Allows.bind (P := fun s : ShrinkState T => ShrinksBeside sh.grid s.grid) ?_ fun s hs => ?_
        · refine loop_allows (P := fun q : Row T × ShrinkState T => ShrinksBeside sh.grid q.2.grid) hp
            fun q hq => Allows.mono shrinkStep_beside fun r hr => ?_
          cases r with
          | inl s => exact hq.trans hr
          | inr q' => exact hq.trans hr
        · exact Allows.mono ih fun u hu => hs.trans hu

theorem shrinkStep_noReflow : Allows (shrinkStep false columns i (row, sh)) fun r =>
    r = .inl { sh with newRaw := (row.shrink columns).1 :: sh.newRaw } := by
  intro r hr
  simp only [shrinkStep, Option.bind_eq_bind, Option.bind_eq_some_iff] at hr
  obtain ⟨wrapped, hwrapped, hr⟩ := hr
  have hnone : wrapped = none := by
    unfold wrappedCells at hwrapped
    split at hwrapped
    · next hreflow => cases hreflow
    · simp only [Bool.false_eq_true, false_and, if_false, Option.bind_eq_bind,
        Option.bind_eq_some_iff, Option.some.injEq] at hwrapped
      obtain ⟨_, -, hwrapped⟩ := hwrapped
      exact hwrapped.symm
  subst hnone
  exact (Option.some.inj hr).symm

/-- Without reflow, shrinking leaves the grid alone. -/
theorem shrinkRows_noReflow (rows : List (Row T)) (hbuffered : sh.buffered = none) :
    Allows (shrinkRows false columns rows sh) fun sh' => sh'.grid = sh.grid := by
  induction rows generalizing sh with
  | nil => exact .pure rfl
  | cons row rest ih =>
      intro sh' hsh'
      simp only [shrinkRows, prependBuffered, hbuffered, Option.bind_eq_bind, Option.bind_some,
        Option.bind_eq_some_iff] at hsh'
      obtain ⟨s, hs, hsh'⟩ := hsh'
      have hpushed : s = { sh with newRaw := (row.shrink columns).1 :: sh.newRaw } := by
        rw [shrinkRow, loop] at hs
        split at hs
        · cases hs
        · next hstep =>
            obtain rfl := Option.some.inj hs
            exact Sum.inl.inj (shrinkStep_noReflow _ hstep)
        · next hstep => cases shrinkStep_noReflow _ hstep
      have hnext : s.buffered = none := hpushed ▸ hbuffered
      have hgrid := ih hnext sh' hsh'
      rw [hgrid, hpushed]

end Velacritty
