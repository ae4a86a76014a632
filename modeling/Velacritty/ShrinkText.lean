import Velacritty.LogicalLines

/-! Shrinking keeps the text of the rows. -/
namespace Velacritty
open Fallible
open Flow (Piece Reading feed trim)
variable {columns i : Nat} {row : Row Cell} {st : ShrinkState Cell}

/-- The cells that no longer fit, up to the last one with content. -/
def overflow (columns : Nat) (row : Row Cell) : List Cell := contentOf (row.inner.drop columns)

/-- What one round does to a row without fullwidth characters. -/
inductive ShrunkStep (columns i : Nat) (row : Row Cell) (st : ShrinkState Cell) :
    ShrinkState Cell ⊕ Row Cell × ShrinkState Cell → Prop
  /-- Nothing is left over. -/
  | fits {kept : Row Cell} (hkept : kept.inner = row.inner.take columns)
      (hover : overflow columns row = [])
      (hcursor : ¬ ((i : Int) = st.grid.below ∧ columns < st.grid.cursor.point.column)) :
      ShrunkStep columns i row st (.inl { st with newRaw := kept :: st.newRaw })
  /-- The line goes on in the next row, and the rest with it. -/
  | joins {kept : Row Cell} (hkept : kept.inner = row.inner.take columns)
      (hover : overflow columns row ≠ []) (hwraps : wraps (overflow columns row) = true)
      (hnext : 1 ≤ i) (hshort : (overflow columns row).length < columns) :
      ShrunkStep columns i row st (.inl { st with
        newRaw := kept.modifyLast (setWrapline true) :: st.newRaw
        buffered := some (updateLast (setWrapline false) (overflow columns row)) })
  /-- The rest is a row of its own. -/
  | goesOn {kept row' : Row Cell} {cbl offset : Nat} (hbelow : (cbl : Int) = st.grid.below)
      (hkept : kept.inner = row.inner.take columns)
      (hover : overflow columns row ≠ [] ∨
        (i : Int) = st.grid.below ∧ columns < st.grid.cursor.point.column)
      (hown : ¬ (wraps (overflow columns row) = true ∧ 1 ≤ i ∧ (overflow columns row).length < columns))
      (hrow' : row'.inner = overflow columns row ++
        List.replicate (columns - (overflow columns row).length) default) :
      ShrunkStep columns i row st (.inr (row', { st with
        grid := { st.grid with
          cursor.point.line :=
            if i = cbl ∧ st.grid.cursor.point.column < columns ∨ i < cbl then
              max (st.grid.cursor.point.line - 1) 0
            else st.grid.cursor.point.line
          cursor.point.column :=
            if i = cbl ∧ columns ≤ st.grid.cursor.point.column then
              st.grid.cursor.point.column - columns
            else st.grid.cursor.point.column
          displayOffset := offset }
        newRaw := kept.modifyLast (setWrapline true) :: st.newRaw }))

theorem shrink_overflow (row : Row Cell) (columns : Nat) :
    (row.shrink columns).1.inner = row.inner.take columns ∧
      (row.shrink columns).2 = if overflow columns row = [] then none else some (overflow columns row) := by
  unfold Row.shrink overflow
  split
  · next h =>
      rw [List.drop_of_length_le h, List.take_of_length_le h]
      exact ⟨rfl, rfl⟩
  · refine ⟨rfl, ?_⟩
    simp only [List.isEmpty_iff]
    rfl

theorem narrow_overflow (h : row.Narrow) : ∀ cell ∈ overflow columns row, cell.Narrow :=
  fun cell hcell => h cell (List.mem_of_mem_drop (contentOf_subset cell hcell))

/-- Without fullwidth characters, cells leave a row as they are. -/
theorem splitWrapped_narrow {cells : List Cell} (hrow : row.Narrow)
    (hcells : ∀ cell ∈ cells, cell.Narrow) :
    Allows (splitWrapped columns row cells) fun split => split = .wrapped row cells := by
  intro split hsplit
  simp only [splitWrapped, Option.bind_eq_bind, Option.bind_eq_some_iff] at hsplit
  obtain ⟨lastColumn, -, p, hp, hsplit⟩ := hsplit
  have hwide : ((row.get lastColumn).any fun cell => (GridCell.flags cell).wideChar) = false := by
    rw [Option.any_eq_false]
    exact fun cell hcell => (hrow cell (List.mem_of_getElem? hcell)).wideChar
  rw [hwide, Bool.and_false] at hp
  obtain rfl := Option.some.inj hp
  have hspacer : (cells.getLast?.any fun cell => (GridCell.flags cell).leadingWideCharSpacer) = false := by
    rw [Option.any_eq_false]
    exact fun cell hcell => (hcells cell (List.mem_of_getLast? hcell)).leadingWideCharSpacer
  simp only [hspacer, Bool.false_eq_true, if_false] at hsplit
  exact (Option.some.inj hsplit).symm

theorem shrinkStep_cases (hrow : row.Narrow) (hlo : 0 ≤ st.grid.cursor.point.line)
    (hhi : st.grid.cursor.point.line < st.grid.lines) :
    Allows (shrinkStep true columns i (row, st)) (ShrunkStep columns i row st) := by
  intro r hr
  obtain ⟨hkept, hremoved⟩ := shrink_overflow row columns
  simp only [shrinkStep, Option.bind_eq_bind, Option.bind_eq_some_iff] at hr
  generalize row.shrink columns = shrunk at *
  obtain ⟨kept, removed⟩ := shrunk
  simp only at hkept hremoved hr
  obtain ⟨wrapped, hwrapped, hr⟩ := hr
  have hkeptnarrow : kept.Narrow := fun cell hcell => by
    rw [hkept] at hcell
    exact hrow cell (List.mem_of_mem_take hcell)
  have hcells : (wrapped = none ∧ overflow columns row = [] ∧
      ¬ ((i : Int) = st.grid.below ∧ columns < st.grid.cursor.point.column)) ∨
      wrapped = some (overflow columns row) ∧ (overflow columns row ≠ [] ∨
        (i : Int) = st.grid.below ∧ columns < st.grid.cursor.point.column) := by
    by_cases hnil : overflow columns row = []
    · rw [if_pos hnil] at hremoved
      subst hremoved
      simp only [wrappedCells, Option.bind_eq_bind, Option.bind_eq_some_iff, Option.some.injEq,
        true_and] at hwrapped
      obtain ⟨cbl, hcbl, hwrapped⟩ := hwrapped
      have hbelow : (cbl : Int) = st.grid.below := (Grid.cursorBufferLine_returns hlo hhi).of_eq hcbl
      by_cases hcursor : i = cbl ∧ columns < st.grid.cursor.point.column
      · rw [if_pos hcursor] at hwrapped
        exact .inr ⟨by rw [hnil, hwrapped], .inr ⟨by omega, hcursor.2⟩⟩
      · rw [if_neg hcursor] at hwrapped
        exact .inl ⟨hwrapped.symm, hnil, fun h => hcursor ⟨by omega, h.2⟩⟩
    · rw [if_neg hnil] at hremoved
      subst hremoved
      simp only [wrappedCells, Option.some.injEq] at hwrapped
      exact .inr ⟨hwrapped.symm, .inl hnil⟩
  rcases hcells with ⟨rfl, hnil, hcursor⟩ | ⟨rfl, hover⟩
  · obtain rfl := Option.some.inj hr
    exact .fits hkept hnil hcursor
  · simp only [Option.bind_eq_some_iff] at hr
    obtain ⟨split, hsplit, hr⟩ := hr
    rw [splitWrapped_narrow hkeptnarrow (narrow_overflow hrow) split hsplit] at hr
    simp only at hr
    split at hr
    · next hjoins =>
        obtain rfl := Option.some.inj hr
        refine .joins hkept (fun hnil => ?_) hjoins.1 hjoins.2.1 hjoins.2.2
        rw [hnil] at hjoins
        exact Bool.false_ne_true hjoins.1
    · next hjoins =>
        simp only [startWrappedRow, Option.bind_eq_some_iff, Option.some.injEq,
          Option.bind_eq_bind] at hr
        obtain ⟨q, ⟨cbl, hcbl, rfl⟩, rfl⟩ := hr
        have hbelow : (cbl : Int) = st.grid.below :=
          (Grid.cursorBufferLine_returns hlo hhi).of_eq hcbl
        exact .goesOn hbelow hkept hover hjoins rfl

/-! ### What a row says -/

theorem drop_eq_overflow (columns : Nat) (row : Row Cell) :
    ∃ blanks, row.inner.drop columns = overflow columns row ++ blanks ∧
      ∀ cell ∈ blanks, cell.isEmpty = true :=
  ⟨_, List.rdropWhile_append_rtakeWhile.symm, fun _ => List.mem_rtakeWhile_imp⟩

theorem overflow_of_len (hlen : row.len = columns) : overflow columns row = [] := by
  rw [overflow, List.drop_of_length_le (Nat.le_of_eq hlen)]
  exact List.rdropWhile_nil _

theorem wraps_drop {cells : List Cell} {n : Nat} (hn : n < cells.length) :
    wraps (cells.drop n) = wraps cells := by
  conv_rhs => rw [← List.take_append_drop n cells]
  refine (wraps_append _ (List.ne_nil_of_length_pos ?_)).symm
  rw [List.length_drop]
  exact Nat.sub_pos_of_lt hn

/-- A row that wraps leaves all of its cells behind. -/
theorem wraps_overflow (hw : wraps row.inner = true) (hlt : columns < row.len) :
    overflow columns row = row.inner.drop columns :=
  contentOf_of_wraps ((wraps_drop hlt).trans hw)

/-- The content that no longer fits ends where that of the row does. -/
theorem wrapEnd_of_overflow (hw : wraps (overflow columns row) = true) :
    columns < row.len ∧ wrapEnd row.inner = some (columns + (overflow columns row).length) := by
  have hover : contentOf (row.inner.drop columns) ≠ [] := fun hnil => by
    rw [overflow, hnil] at hw
    cases hw
  have hlt : columns < row.len := by
    refine Nat.lt_of_not_le fun hle => hover ?_
    rw [List.drop_of_length_le hle]
    exact List.rdropWhile_nil _
  have hcontent : contentOf row.inner = row.inner.take columns ++ overflow columns row := by
    conv_lhs => rw [← List.take_append_drop columns row.inner]
    exact contentOf_append _ hover
  refine ⟨hlt, ?_⟩
  rw [wrapEnd_of_content hcontent, List.length_append, List.length_take,
    Nat.min_eq_left (show columns ≤ row.inner.length from Nat.le_of_lt hlt)]
  exact (wraps_append _ hover).trans hw

/-- A flag at the cut is at the end of the content if nothing is left over. -/
theorem wrapEnd_of_kept (hlong : columns ≤ row.len) (hover : overflow columns row = [])
    (hw : wraps (row.inner.take columns) = true) : wrapEnd row.inner = some columns := by
  obtain ⟨blanks, hdrop, hblank⟩ := drop_eq_overflow columns row
  rw [hover, List.nil_append] at hdrop
  exact wrapEnd_of_take hw hlong (hdrop ▸ hblank)

section Rest
variable {row' : Row Cell} {k : Nat}

/-- Blanks make the rest as long as a row. -/
theorem len_rest (hrow' : row'.inner = overflow columns row ++
    List.replicate (columns - (overflow columns row).length) default) :
    row'.len = max columns (overflow columns row).length := by
  rw [Row.len, hrow', List.length_append, List.length_replicate]
  omega

theorem mem_wrapEnd_rest (hrow' : row'.inner = overflow columns row ++
    List.replicate (columns - (overflow columns row).length) default) (hk : k ∈ wrapEnd row'.inner) :
    wraps (overflow columns row) = true ∧ k = (overflow columns row).length := by
  have hcontent : contentOf row'.inner = overflow columns row := by
    rw [hrow', contentOf_append_blank _ (isEmpty_replicate _)]
    exact List.rdropWhile_idempotent Cell.isEmpty _
  rw [← hcontent]
  exact mem_wrapEnd hk

/-- The rest wraps if no blanks are behind what is left over. -/
theorem rest_of_wraps (hrow' : row'.inner = overflow columns row ++
    List.replicate (columns - (overflow columns row).length) default) (hw : wraps row'.inner = true) :
    row'.inner = overflow columns row ∧ wraps (overflow columns row) = true := by
  have hfull : columns - (overflow columns row).length = 0 := by
    by_contra hpad
    have hne : List.replicate (columns - (overflow columns row).length) (default : Cell) ≠ [] :=
      List.ne_nil_of_length_pos (by rw [List.length_replicate]; omega)
    rw [hrow', wraps_append _ hne, wraps_of_isEmpty (isEmpty_replicate _)] at hw
    cases hw
  rw [hfull, List.replicate_zero, List.append_nil] at hrow'
  exact ⟨hrow', hrow' ▸ hw⟩

end Rest

/-! ### One row -/

structure ShrinkLoop (columns width i : Nat) (row : Row Cell) (st : ShrinkState Cell) : Prop where
  line_nonneg : 0 ≤ st.grid.cursor.point.line
  line_lt : st.grid.cursor.point.line < st.grid.lines
  rows : ∀ r ∈ st.newRaw, r.len = columns
  narrow : row.Narrow
  long : columns ≤ row.len
  buffered : st.buffered = none
  ahead : st.grid.below < i → st.grid.cursor.point.column ≤ width

/-- The reading that the row and the rows before it come to, where no flag inside of the
row is at its end once the row is cut. The last row of the grid (`i = 0`) ends its line in
any case. -/
structure ShrinkSays (columns i : Nat) (target : Reading Cell) (row : Row Cell) (st : ShrinkState Cell) :
    Prop where
  clean : 1 ≤ i → wraps row.inner = false → ∀ k ∈ wrapEnd row.inner, k < columns
  cursor : 1 ≤ i → wraps row.inner = true → (i : Int) = st.grid.below →
    st.grid.cursor.point.column ≤ row.len
  reads : feed Cell.isEmpty (readRows st.newRaw.reverse)
    ⟨row.inner.map Cell.unwrapped, wraps row.inner && decide (1 ≤ i)⟩ = target

/-- What the rows and the cells left over say. -/
def ShrinkState.reading (st : ShrinkState Cell) : Reading Cell :=
  match st.buffered with
  | none => readRows st.newRaw.reverse
  | some cells => feed Cell.isEmpty (readRows st.newRaw.reverse) ⟨cells.map Cell.unwrapped, true⟩

/-- Cells left over of a line that goes on. -/
structure Leftover (columns : Nat) (cells : List Cell) : Prop where
  narrow : ∀ cell ∈ cells, cell.Narrow
  length_lt : cells.length < columns

/-- Between two rows, with `count` rows left. -/
structure ShrinkReady (columns width count : Nat) (st : ShrinkState Cell) : Prop where
  line_nonneg : 0 ≤ st.grid.cursor.point.line
  line_lt : st.grid.cursor.point.line < st.grid.lines
  rows : ∀ r ∈ st.newRaw, r.len = columns
  ahead : st.grid.below < count → st.grid.cursor.point.column ≤ width
  leftover : ∀ cells ∈ st.buffered, Leftover columns cells

structure ShrinkSaid (i : Nat) (target : Reading Cell) (st : ShrinkState Cell) : Prop where
  reads : 1 ≤ i → st.reading = target
  last : i = 0 → Flow.close Cell.isEmpty (readRows st.newRaw.reverse) = Flow.close Cell.isEmpty target

namespace ShrinkLoop
variable {width : Nat} {kept row' : Row Cell}

theorem len_kept (h : ShrinkLoop columns width i row st)
    (hkept : kept.inner = row.inner.take columns) : kept.len = columns := by
  have hlong := h.long
  unfold Row.len at *
  rw [hkept, List.length_take]
  exact Nat.min_eq_left hlong

theorem rows_push (h : ShrinkLoop columns width i row st)
    (hkept : kept.inner = row.inner.take columns) (b : Bool) :
    ∀ r ∈ kept.modifyLast (setWrapline b) :: st.newRaw, r.len = columns := by
  rw [List.forall_mem_cons, Row.len_modifyLast]
  exact ⟨h.len_kept hkept, h.rows⟩

theorem kept_ne_nil (h : ShrinkLoop columns width i row st) (hc : 1 ≤ columns)
    (hkept : kept.inner = row.inner.take columns) : kept.inner ≠ [] := by
  have hlen := h.len_kept hkept
  exact List.ne_nil_of_length_pos (by unfold Row.len at hlen; omega)

theorem fits (h : ShrinkLoop columns width i row st) (hkept : kept.inner = row.inner.take columns) :
    ShrinkReady columns width i { st with newRaw := kept :: st.newRaw } := by
  refine ⟨h.line_nonneg, h.line_lt, List.forall_mem_cons.mpr ⟨h.len_kept hkept, h.rows⟩, h.ahead, ?_⟩
  simp only [h.buffered]
  exact fun cells hcells => nomatch hcells

theorem joins (h : ShrinkLoop columns width i row st) (hkept : kept.inner = row.inner.take columns)
    (hover : overflow columns row ≠ []) (hshort : (overflow columns row).length < columns) :
    ShrinkReady columns width i { st with
      newRaw := kept.modifyLast (setWrapline true) :: st.newRaw
      buffered := some (updateLast (setWrapline false) (overflow columns row)) } := by
  refine ⟨h.line_nonneg, h.line_lt, h.rows_push hkept true, h.ahead, fun cells hcells => ?_⟩
  obtain rfl := Option.some.inj hcells
  refine ⟨fun cell hcell => ?_, ?_⟩
  · rw [updateLast_eq _ hover] at hcell
    rcases List.mem_append.mp hcell with hcell | hcell
    · exact narrow_overflow h.narrow cell (List.mem_of_mem_dropLast hcell)
    · rw [List.mem_singleton.mp hcell]
      exact (narrow_overflow h.narrow _ (List.getLast_mem hover)).setWrapline false
  · rw [length_updateLast]
    exact hshort

theorem goesOn {cbl offset : Nat} (h : ShrinkLoop columns width i row st)
    (hbelow : (cbl : Int) = st.grid.below) (hkept : kept.inner = row.inner.take columns)
    (hrow' : row'.inner = overflow columns row ++
      List.replicate (columns - (overflow columns row).length) default) :
    ShrinkLoop columns width i row' { st with
      grid := { st.grid with
        cursor.point.line :=
          if i = cbl ∧ st.grid.cursor.point.column < columns ∨ i < cbl then
            max (st.grid.cursor.point.line - 1) 0
          else st.grid.cursor.point.line
        cursor.point.column :=
          if i = cbl ∧ columns ≤ st.grid.cursor.point.column then
            st.grid.cursor.point.column - columns
          else st.grid.cursor.point.column
        displayOffset := offset }
      newRaw := kept.modifyLast (setWrapline true) :: st.newRaw } := by
  have hlo := h.line_nonneg
  have hhi := h.line_lt
  have hlen := len_rest hrow'
  have hahead := h.ahead
  simp only [Grid.below] at hbelow hahead
  refine ⟨?_, ?_, h.rows_push hkept true, fun cell hcell => ?_, by omega, h.buffered, ?_⟩
  · simp only
    split <;> omega
  · simp only
    split <;> omega
  · rw [hrow'] at hcell
    rcases List.mem_append.mp hcell with hcell | hcell
    · exact narrow_overflow h.narrow cell hcell
    · rw [List.eq_of_mem_replicate hcell]
      exact Cell.narrow_default
  · simp only [Grid.below]
    intro hlt
    split at hlt <;> split <;> omega

/-- One round keeps the shape. -/
theorem step (h : ShrinkLoop columns width i row st) :
    Allows (shrinkStep true columns i (row, st))
      (Sum.elim (ShrinkReady columns width i) fun p => ShrinkLoop columns width i p.1 p.2) := by
  refine (shrinkStep_cases h.narrow h.line_nonneg h.line_lt).mono fun r hr => ?_
  cases hr with
  | fits hkept hover hcursor => exact h.fits hkept
  | joins hkept hover hwraps hnext hshort => exact h.joins hkept hover hshort
  | goesOn hbelow hkept hover hown hrow' => exact h.goesOn hbelow hkept hrow'

end ShrinkLoop

namespace ShrinkSays
variable {width : Nat} {target : Reading Cell} {kept row' : Row Cell}

theorem wraps_row (h : ShrinkSays columns i target row st) (hi : 1 ≤ i)
    (hw : wraps (overflow columns row) = true) : wraps row.inner = true := by
  by_contra hno
  have hlt := h.clean hi (Bool.eq_false_iff.mpr hno) _ (wrapEnd_of_overflow hw).2
  omega

/-- What is pushed with a wrap flag, and what follows it. -/
theorem reads_kept (h : ShrinkSays columns i target row st) (hne : kept.inner ≠ [])
    (hkept : kept.inner = row.inner.take columns) :
    feed Cell.isEmpty (readRows (kept.modifyLast (setWrapline true) :: st.newRaw).reverse)
      ⟨(row.inner.drop columns).map Cell.unwrapped, wraps row.inner && decide (1 ≤ i)⟩ = target := by
  rw [readRows_cons_reverse, Row.piece_modifyLast true hne, hkept, Flow.feed_split, ← List.map_append,
    List.take_append_drop]
  exact h.reads

theorem fits (h : ShrinkSays columns i target row st) (hloop : ShrinkLoop columns width i row st)
    (hc : 1 ≤ columns) (hkept : kept.inner = row.inner.take columns) (hover : overflow columns row = []) :
    ShrinkSaid i target { st with newRaw := kept :: st.newRaw } := by
  have hreads : feed Cell.isEmpty (readRows st.newRaw.reverse)
      ⟨kept.inner.map Cell.unwrapped, wraps kept.inner && decide (1 ≤ i)⟩ = target := by
    rcases Nat.lt_or_eq_of_le hloop.long with hlt | heq
    · obtain ⟨blanks, hdrop, hblank⟩ := drop_eq_overflow columns row
      rw [hover, List.nil_append] at hdrop
      have hwraps : wraps row.inner = false := by
        rw [← wraps_drop hlt, hdrop]
        exact wraps_of_isEmpty hblank
      have hcut : (wraps kept.inner && decide (1 ≤ i)) = false := by
        rw [hkept, Bool.and_eq_false_iff, decide_eq_false_iff_not]
        by_contra! hw
        exact lt_irrefl _ (h.clean hw.2 hwraps _
          (wrapEnd_of_kept hloop.long hover (Bool.not_eq_false _ ▸ hw.1)))
      have hreads := h.reads
      rw [hwraps, Bool.false_and, ← List.take_append_drop columns row.inner, List.map_append, hdrop,
        Flow.feed_append_blank _ _ (isEmpty_map_unwrapped hblank), ← hkept] at hreads
      rw [hcut]
      exact hreads
    · rw [hkept, List.take_of_length_le (Nat.le_of_eq heq.symm)]
      exact h.reads
  refine ⟨fun hi => ?_, fun hi => ?_⟩
  · rw [decide_eq_true hi, Bool.and_true] at hreads
    simp only [ShrinkState.reading, hloop.buffered]
    rw [readRows_cons_reverse]
    exact hreads
  · have hne : kept.inner.map Cell.unwrapped ≠ [] := by
      rw [ne_eq, List.map_eq_nil_iff]
      exact hloop.kept_ne_nil hc hkept
    rw [hi, decide_eq_false (by decide), Bool.and_false] at hreads
    rw [readRows_cons_reverse, Row.piece, pieceOf, Flow.close_feed _ hne, ← hreads, Flow.close_feed _ hne]

theorem joins (h : ShrinkSays columns i target row st) (hne : kept.inner ≠ [])
    (hkept : kept.inner = row.inner.take columns) (hover : overflow columns row ≠ [])
    (hwraps : wraps (overflow columns row) = true) (hnext : 1 ≤ i) :
    ShrinkSaid i target { st with
      newRaw := kept.modifyLast (setWrapline true) :: st.newRaw
      buffered := some (updateLast (setWrapline false) (overflow columns row)) } := by
  refine ⟨fun _ => ?_, fun hi => by omega⟩
  have hwrow := h.wraps_row hnext hwraps
  have hreads := h.reads_kept hne hkept
  rw [hwrow, decide_eq_true hnext, ← wraps_overflow hwrow (wrapEnd_of_overflow hwraps).1] at hreads
  simp only [ShrinkState.reading]
  rw [show (updateLast (setWrapline false) (overflow columns row)).map Cell.unwrapped =
    (overflow columns row).map Cell.unwrapped from congrArg Piece.cells (pieceOf_updateLast false hover)]
  exact hreads

theorem goesOn_wraps (h : ShrinkSays columns i target row st) (hlong : columns ≤ row.len)
    (hover : overflow columns row ≠ [] ∨
      (i : Int) = st.grid.below ∧ columns < st.grid.cursor.point.column)
    (hown : ¬ (wraps (overflow columns row) = true ∧ 1 ≤ i ∧ (overflow columns row).length < columns))
    (hrow' : row'.inner = overflow columns row ++
      List.replicate (columns - (overflow columns row).length) default)
    (hw : wraps row.inner = true) (hi : 1 ≤ i) :
    columns < row.len ∧ row'.inner = row.inner.drop columns := by
  have hlt : columns < row.len := by
    refine Nat.lt_of_le_of_ne hlong fun heq => ?_
    rcases hover with hne | ⟨hline, hcol⟩
    · exact hne (overflow_of_len heq.symm)
    · have := h.cursor hi hw hline
      omega
  have hdrop := wraps_overflow hw hlt
  refine ⟨hlt, ?_⟩
  have hfull : columns - (overflow columns row).length = 0 := by
    refine Nat.sub_eq_zero_of_le (Nat.le_of_not_lt fun hshort => hown ⟨?_, hi, hshort⟩)
    rw [hdrop, wraps_drop hlt]
    exact hw
  rw [hrow', hfull, List.replicate_zero, List.append_nil, hdrop]

theorem goesOn {cbl offset : Nat} (h : ShrinkSays columns i target row st) (hne : kept.inner ≠ [])
    (hlong : columns ≤ row.len) (hlo : 0 ≤ st.grid.cursor.point.line)
    (hbelow : (cbl : Int) = st.grid.below) (hkept : kept.inner = row.inner.take columns)
    (hover : overflow columns row ≠ [] ∨
      (i : Int) = st.grid.below ∧ columns < st.grid.cursor.point.column)
    (hown : ¬ (wraps (overflow columns row) = true ∧ 1 ≤ i ∧ (overflow columns row).length < columns))
    (hrow' : row'.inner = overflow columns row ++
      List.replicate (columns - (overflow columns row).length) default) :
    ShrinkSays columns i target row' { st with
      grid := { st.grid with
        cursor.point.line :=
          if i = cbl ∧ st.grid.cursor.point.column < columns ∨ i < cbl then
            max (st.grid.cursor.point.line - 1) 0
          else st.grid.cursor.point.line
        cursor.point.column :=
          if i = cbl ∧ columns ≤ st.grid.cursor.point.column then
            st.grid.cursor.point.column - columns
          else st.grid.cursor.point.column
        displayOffset := offset }
      newRaw := kept.modifyLast (setWrapline true) :: st.newRaw } := by
  have hreads := h.reads_kept hne hkept
  refine ⟨fun _ hw k hk => ?_, fun hi hw => ?_, ?_⟩
  · obtain ⟨hflag, rfl⟩ := mem_wrapEnd_rest hrow' hk
    by_contra hfull
    rw [hrow', Nat.sub_eq_zero_of_le (Nat.le_of_not_lt hfull), List.replicate_zero, List.append_nil, hflag] at hw
    cases hw
  · obtain ⟨hrest, hflag⟩ := rest_of_wraps hrow' hw
    have hwrow := h.wraps_row hi hflag
    have hlt := (wrapEnd_of_overflow hflag).1
    have hold := h.cursor hi hwrow
    have hlong' := len_rest hrow'
    have hlen : row'.len = row.len - columns := by
      rw [Row.len, hrest, wraps_overflow hwrow hlt, List.length_drop]
      rfl
    simp only [Grid.below] at hold hbelow ⊢
    intro hcur
    split <;> split at hcur <;> omega
  · cases hw : wraps row.inner && decide (1 ≤ i) with
    | true =>
        rw [Bool.and_eq_true, decide_eq_true_eq] at hw
        obtain ⟨hlt, hrest⟩ := h.goesOn_wraps hlong hover hown hrow' hw.1 hw.2
        rw [hrest, wraps_drop hlt]
        exact hreads
    | false =>
        have hflag : (wraps row'.inner && decide (1 ≤ i)) = false := by
          rw [Bool.and_eq_false_iff, decide_eq_false_iff_not] at hw ⊢
          by_contra! hno
          have hwrow := h.wraps_row hno.2 (rest_of_wraps hrow' (Bool.not_eq_false _ ▸ hno.1)).2
          rw [hwrow] at hw
          exact hw.elim (fun hw => absurd hw (by decide)) fun hi => hi hno.2
        obtain ⟨blanks, hdrop, hblank⟩ := drop_eq_overflow columns row
        have hpad := isEmpty_replicate (columns - (overflow columns row).length)
        rw [hw, hdrop, List.map_append, Flow.feed_append_blank _ _ (isEmpty_map_unwrapped hblank)] at hreads
        rw [hflag, hrow', List.map_append, Flow.feed_append_blank _ _ (isEmpty_map_unwrapped hpad)]
        exact hreads

theorem step (h : ShrinkSays columns i target row st) (hloop : ShrinkLoop columns width i row st)
    (hc : 1 ≤ columns) :
    Allows (shrinkStep true columns i (row, st))
      (Sum.elim (ShrinkSaid i target) fun p => ShrinkSays columns i target p.1 p.2) := by
  refine (shrinkStep_cases hloop.narrow hloop.line_nonneg hloop.line_lt).mono fun r hr => ?_
  cases hr with
  | fits hkept hover hcursor => exact h.fits hloop hc hkept hover
  | joins hkept hover hwraps hnext hshort =>
      exact h.joins (hloop.kept_ne_nil hc hkept) hkept hover hwraps hnext
  | goesOn hbelow hkept hover hown hrow' =>
      exact h.goesOn (hloop.kept_ne_nil hc hkept) hloop.long hloop.line_nonneg hbelow hkept hover hown hrow'

end ShrinkSays

/-! ### All rows -/

/-- Below `n` cells of its line, no flag inside of the row is left over by a shrunk one. -/
def Row.ShrinksClean (columns n : Nat) (row : Row Cell) : Prop :=
  ∀ k ∈ strayEnd row.inner, n % columns + k < columns

instance (columns n : Nat) (row : Row Cell) : Decidable (row.ShrinksClean columns n) :=
  inferInstanceAs (Decidable (∀ k ∈ strayEnd row.inner, _))

section Rows
variable {width count : Nat} {said : Reading Cell} {rows : List (Row Cell)}

/-- The cells left over are the end of the line under way. -/
theorem ShrinkReady.pending_mod (h : ShrinkReady columns width count st) :
    st.reading.lines.length = (readRows st.newRaw.reverse).lines.length ∧
      st.reading.pending.length = (readRows st.newRaw.reverse).pending.length +
        ((st.buffered.map List.length).getD 0) ∧
      st.reading.pending.length % columns = (st.buffered.map List.length).getD 0 := by
  obtain ⟨k, hk⟩ : ∃ k, (readRows st.newRaw.reverse).pending.length = columns * k := by
    refine Flow.pending_of_width fun piece hpiece _ => ?_
    obtain ⟨r, hr, rfl⟩ := List.mem_map.mp hpiece
    rw [Row.piece, pieceOf, List.length_map]
    exact h.rows r (List.mem_reverse.mp hr)
  unfold ShrinkState.reading
  split
  · next hnone =>
      rw [hnone, hk]
      exact ⟨rfl, rfl, Nat.mul_mod_right columns k⟩
  · next cells hsome =>
      have hlt := (h.leftover cells hsome).length_lt
      rw [hsome]
      simp only [feed, if_true, List.length_append, List.length_map, hk, Option.map_some,
        Option.getD_some, true_and]
      rw [Nat.mul_add_mod, Nat.mod_eq_of_lt hlt]

/-- Cells left over from the last row come first, and the cursor of the row moves right
with it. -/
structure Prepended (i : Nat) (row : Row Cell) (st : ShrinkState Cell) (p : Row Cell × ShrinkState Cell) :
    Prop where
  newRaw : p.2.newRaw = st.newRaw
  buffered : p.2.buffered = none
  inner : p.1.inner = st.buffered.getD [] ++ row.inner
  grid : p.2.grid = { st.grid with cursor.point.column := st.grid.cursor.point.column +
    if (i : Int) = st.grid.below then (st.buffered.map List.length).getD 0 else 0 }

theorem ShrinkReady.prepended (h : ShrinkReady columns width count st) :
    Allows (prependBuffered i row st) (Prepended i row st) := by
  unfold prependBuffered
  split
  · next hnone =>
      refine .pure ⟨rfl, hnone, ?_, ?_⟩
      · rw [hnone]
        rfl
      · rw [hnone]
        simp only [Option.map_none, Option.getD_none, ite_self, Nat.add_zero]
  · next cells hsome =>
      refine (Grid.cursorBufferLine_returns h.line_nonneg h.line_lt).allows.bind fun cbl hcbl => .pure ?_
      have hbelow : (cbl : Int) = st.grid.below := hcbl
      refine ⟨rfl, rfl, ?_, ?_⟩
      · rw [hsome]
        rfl
      · rw [hsome]
        simp only [Option.map_some, Option.getD_some]
        by_cases hi : i = cbl
        · rw [if_pos hi, if_pos (hi ▸ hbelow)]
        · rw [if_neg hi, if_neg fun h => hi (Int.ofNat.inj (h.trans hbelow.symm)), Nat.add_zero]

/-- How many cells are left over. -/
theorem ShrinkReady.length_buffered (h : ShrinkReady columns width count st) :
    (st.buffered.getD []).length = st.reading.pending.length % columns := by
  rw [h.pending_mod.2.2]
  cases st.buffered with
  | none => rfl
  | some cells => rfl

theorem Prepended.shape {p : Row Cell × ShrinkState Cell} (hp : Prepended i row st p)
    (h : ShrinkReady columns width (i + 1) st) (hrow : row.Shaped width) (hle : columns ≤ width) : ShrinkLoop columns width i p.1 p.2 := by
  obtain ⟨row', st'⟩ := p
  obtain ⟨hraw, hbuffered, hinner, hgrid⟩ := hp
  simp only at hraw hbuffered hinner hgrid
  have hahead := h.ahead
  have hlen := hrow.len_eq
  refine ⟨?_, ?_, hraw ▸ h.rows, fun cell hcell => ?_, ?_, hbuffered, ?_⟩
  · rw [hgrid]
    exact h.line_nonneg
  · rw [hgrid]
    exact h.line_lt
  · rw [hinner] at hcell
    refine (List.mem_append.mp hcell).elim (fun hcell => ?_) (hrow.narrow cell)
    cases hsome : st.buffered with
    | none =>
        rw [hsome] at hcell
        exact absurd hcell List.not_mem_nil
    | some cells =>
        rw [hsome] at hcell
        exact (h.leftover cells hsome).narrow cell hcell
  · simp only [Row.len, hinner, List.length_append] at hlen ⊢
    omega
  · rw [hgrid]
    intro hlt
    have hlt : st.grid.below < i := hlt
    rw [if_neg (by omega), Nat.add_zero]
    exact hahead (by omega)

theorem Prepended.reads {p : Row Cell × ShrinkState Cell} (hp : Prepended i row st p)
    (h : ShrinkReady columns width (i + 1) st) (hc : 1 ≤ columns) (hrow : row.Shaped width)
    (hle : columns ≤ width) (hclean : row.ShrinksClean columns st.reading.pending.length) :
    ShrinkSays columns i
      (feed Cell.isEmpty st.reading ⟨row.inner.map Cell.unwrapped, wraps row.inner && decide (1 ≤ i)⟩)
      p.1 p.2 := by
  obtain ⟨row', st'⟩ := p
  obtain ⟨hraw, hbuffered, hinner, hgrid⟩ := hp
  simp only at hraw hbuffered hinner hgrid
  have hlen := hrow.len_eq
  have hne : row.inner ≠ [] := List.ne_nil_of_length_pos (by unfold Row.len at hlen; omega)
  have hwraps : wraps row'.inner = wraps row.inner := by rw [hinner, wraps_append _ hne]
  have hlength := h.length_buffered
  refine ⟨fun hi hw k hk => ?_, fun _ _ hcur => ?_, ?_⟩
  · rw [hinner] at hk
    rcases mem_wrapEnd_append hk with hle' | ⟨k', hk', rfl⟩
    · have hlt := Nat.mod_lt st.reading.pending.length (show columns > 0 by omega)
      omega
    · have hlt := hclean k' (by rw [strayEnd_of_wrapEnd (hwraps ▸ hw)]; exact hk')
      omega
  · rw [hgrid] at hcur ⊢
    have hcur : (i : Int) = st.grid.below := hcur
    have hcolumn := h.ahead (by omega)
    have hmod := h.pending_mod.2.2
    simp only [Row.len, hinner, List.length_append] at hlen ⊢
    rw [if_pos hcur]
    omega
  · rw [hraw, hwraps, hinner, List.map_append]
    unfold ShrinkState.reading
    split
    · next hnone =>
        rw [hnone]
        rfl
    · next cells hsome =>
        rw [hsome, Flow.feed_split]
        rfl

theorem shrinkRow_reads {target : Reading Cell} (hloop : ShrinkLoop columns width i row st)
    (h : ShrinkSays columns i target row st) (hc : 1 ≤ columns) :
    Allows (shrinkRow true columns i row st) fun st' =>
      ShrinkReady columns width i st' ∧ ShrinkSaid i target st' := by
  refine loop_allows (P := fun p : Row Cell × ShrinkState Cell =>
    ShrinkLoop columns width i p.1 p.2 ∧ ShrinkSays columns i target p.1 p.2) ⟨hloop, h⟩ fun s hs r hr => ?_
  have hshape := hs.1.step r hr
  have hreading := hs.2.step hs.1 hc r hr
  cases r with
  | inl s' => exact ⟨hshape, hreading⟩
  | inr s' => exact ⟨hshape, hreading⟩

theorem shrinkRows_reads (hne : rows ≠ []) (h : ShrinkReady columns width rows.length st)
    (hclean : EachRow (fun n row => row.ShrinksClean columns n) st.reading rows)
    (hrows : ∀ r ∈ rows, r.Shaped width) (hc : 1 ≤ columns) (hle : columns ≤ width) :
    Allows (shrinkRows true columns rows st) fun st' =>
      Flow.close Cell.isEmpty (readRows st'.newRaw.reverse) =
        Flow.close Cell.isEmpty ((rows.map Row.piece).foldl (feed Cell.isEmpty) st.reading) := by
  induction rows generalizing st with
  | nil => exact absurd rfl hne
  | cons row rest ih =>
      rw [List.forall_mem_cons] at hrows
      obtain ⟨hrow, hrest⟩ := hrows
      obtain ⟨hfirst, hclean⟩ := hclean
      unfold shrinkRows
      refine h.prepended.bind fun p hp => ?_
      refine (shrinkRow_reads (hp.shape h hrow hle) (hp.reads h hc hrow hle hfirst) hc).bind fun s hs => ?_
      obtain ⟨hready, hsaid⟩ := hs
      cases rest with
      | nil =>
          refine .pure ?_
          have hcells : row.inner.map Cell.unwrapped ≠ [] := by
            have hlen := hrow.len_eq
            rw [ne_eq, List.map_eq_nil_iff]
            exact List.ne_nil_of_length_pos (by unfold Row.len at hlen; omega)
          rw [hsaid.last rfl, List.map_cons, List.map_nil, List.foldl_cons, List.foldl_nil, Row.piece, pieceOf,
            Flow.close_feed _ hcells, Flow.close_feed _ hcells]
      | cons next rest =>
          have hi : 1 ≤ (next :: rest).length := by
            rw [List.length_cons]
            exact Nat.succ_pos _
          have hread : s.reading = feed Cell.isEmpty st.reading row.piece := by
            have hread := hsaid.reads hi
            rw [decide_eq_true hi, Bool.and_true] at hread
            exact hread
          rw [← hread] at hclean
          refine (ih (List.cons_ne_nil _ _) hready hclean hrest).mono fun st' hst' => ?_
          rw [hst', hread]
          rfl

end Rows

/-! ### The grid -/

namespace Grid
variable {g : Grid Cell}

theorem settleCursor_only (g : Grid Cell) (reflow : Bool) (columns : Nat) :
    Allows (g.settleCursor reflow columns) fun g' => ∃ cursor, g' = { g with cursor } := by
  intro g' hg'
  simp only [settleCursor, Option.bind_eq_bind, Option.bind_eq_some_iff] at hg'
  obtain ⟨lastColumn, -, hg'⟩ := hg'
  split at hg'
  · exact ⟨_, (Option.some.inj hg').symm⟩
  · rw [Option.bind_eq_some_iff] at hg'
    obtain ⟨pending, -, hg'⟩ := hg'
    split at hg'
    · exact ⟨_, (Option.some.inj hg').symm⟩
    · exact ⟨_, (Option.some.inj hg').symm⟩

theorem WF.shrinkReady (hg : g.WF) (columns : Nat) (raw : Storage Cell) :
    ShrinkReady columns g.columns g.textRows.length
      ⟨{ ({ g with columns }.unwrapCursor true) with raw }, [], none⟩ := by
  obtain ⟨hunwrap, hcol⟩ := hg.unwrapCursor columns true
  exact ⟨hunwrap.line_nonneg, hunwrap.line_lt, fun r hr => absurd hr List.not_mem_nil, fun _ => hcol,
    fun cells hcells => (nomatch hcells)⟩

def withLimit (g : Grid Cell) (limit : Nat) : Grid Cell := { g with maxScrollLimit := limit }

theorem WF.withLimit (hg : g.WF) {limit : Nat} (hlimit : g.maxScrollLimit ≤ limit) :
    (g.withLimit limit).WF :=
  ⟨hg.raw, hg.visible, hg.columns_pos, Nat.le_trans hg.history_le (Nat.add_le_add_left hlimit _),
    hg.cursor, hg.savedCursor⟩

theorem unwrapCursor_withLimit (g : Grid Cell) (limit : Nat) (reflow : Bool) :
    (g.withLimit limit).unwrapCursor reflow = (g.unwrapCursor reflow).withLimit limit := by
  have hcursor : (g.withLimit limit).cursor = g.cursor := rfl
  unfold unwrapCursor
  rw [hcursor, apply_ite (withLimit · limit)]
  rfl

end Grid

/-- The loop variables with another limit of the history, which the loops do not read. -/
def ShrinkState.withLimit (limit : Nat) (st : ShrinkState Cell) : ShrinkState Cell :=
  { st with grid := st.grid.withLimit limit }

section Limit
variable (limit : Nat) (reflow : Bool)

theorem shrinkStep_withLimit (s : Row Cell × ShrinkState Cell) :
    shrinkStep reflow columns i (s.1, s.2.withLimit limit) = (shrinkStep reflow columns i s).map
      (Sum.map (ShrinkState.withLimit limit) fun p => (p.1, p.2.withLimit limit)) := by
  obtain ⟨row, st⟩ := s
  unfold shrinkStep
  dsimp only
  rw [show wrappedCells reflow columns i (row.shrink columns).2 (st.withLimit limit).grid =
    wrappedCells reflow columns i (row.shrink columns).2 st.grid from rfl]
  cases wrappedCells reflow columns i (row.shrink columns).2 st.grid with
  | none => rfl
  | some wrapped =>
      cases wrapped with
      | none => rfl
      | some cells =>
          simp only [Option.bind_eq_bind, Option.bind_some]
          cases splitWrapped columns (row.shrink columns).1 cells with
          | none => rfl
          | some split =>
              cases split with
              | spacerOnly row' => rfl
              | wrapped row' cells' =>
                  simp only [Option.bind_some]
                  split
                  · rfl
                  · have hbelow : (st.withLimit limit).grid.cursorBufferLine = st.grid.cursorBufferLine := rfl
                    simp only [startWrappedRow, Option.bind_eq_bind, hbelow]
                    cases st.grid.cursorBufferLine with
                    | none => rfl
                    | some cbl => rfl

theorem prependBuffered_withLimit (row : Row Cell) (st : ShrinkState Cell) :
    prependBuffered i row (st.withLimit limit) =
      (prependBuffered i row st).map fun p => (p.1, p.2.withLimit limit) := by
  unfold prependBuffered
  rw [show (st.withLimit limit).buffered = st.buffered from rfl]
  cases st.buffered with
  | none => rfl
  | some cells =>
      have hbelow : (st.withLimit limit).grid.cursorBufferLine = st.grid.cursorBufferLine := rfl
      simp only [Option.bind_eq_bind, hbelow]
      cases st.grid.cursorBufferLine with
      | none => rfl
      | some cbl => rfl

/-- The limit of the history does not matter while rows are split. -/
theorem shrinkRows_withLimit (rows : List (Row Cell)) (st : ShrinkState Cell) :
    shrinkRows reflow columns rows (st.withLimit limit) =
      (shrinkRows reflow columns rows st).map (ShrinkState.withLimit limit) := by
  induction rows generalizing st with
  | nil => rfl
  | cons row rest ih =>
      unfold shrinkRows
      rw [prependBuffered_withLimit]
      cases prependBuffered rest.length row st with
      | none => rfl
      | some p =>
          have hrow : shrinkRow reflow columns rest.length p.1 (p.2.withLimit limit) =
              (shrinkRow reflow columns rest.length p.1 p.2).map (ShrinkState.withLimit limit) :=
            loop_map (fun s : Row Cell × ShrinkState Cell => (s.1, s.2.withLimit limit)) _
              (fun s => shrinkStep_withLimit limit reflow s) _ p
          simp only [Option.bind_eq_bind, Option.map_some, Option.bind_some, hrow]
          cases shrinkRow reflow columns rest.length p.1 p.2 with
          | none => rfl
          | some s => exact ih s

end Limit

namespace Grid
variable {g : Grid Cell}

/-- The oldest rows, where there are too many. -/
def dropped (st : ShrinkState Cell) : List (Row Cell) :=
  (st.newRaw.drop (st.grid.maxScrollLimit + st.grid.lines)).reverse

structure Shrunk (g : Grid Cell) (columns : Nat) (st : ShrinkState Cell) (settled g' : Grid Cell) :
    Prop where
  rows : ∃ raw, g.raw.takeAll = some (g.raw.rows, raw) ∧ raw.visibleLines = g.raw.visibleLines ∧
    shrinkRows true columns g.textRows
      ⟨{ ({ g with columns }.unwrapCursor true) with raw }, [], none⟩ = some st
  settle : (st.grid.adoptRows (st.newRaw.take (st.grid.maxScrollLimit + st.grid.lines))).settleCursor
    true columns = some settled
  result : ∃ savedCursor, g' = { settled with savedCursor }

theorem shrinkColumns_shrunk (hg : g.WF) :
    Allows (g.shrinkColumns true columns) fun g' => ∃ st settled, Shrunk g columns st settled g' := by
  intro g' hg'
  have hraw : (unwrapCursor { g with columns } true).raw = g.raw :=
    (hg.unwrapCursor columns true).1.raw
  simp only [shrinkColumns, Option.bind_eq_bind, Option.bind_eq_some_iff, Option.some.injEq, hraw] at hg'
  obtain ⟨⟨rows, raw⟩, htake, st, hst, settled, hsettled, hresult⟩ := hg'
  obtain ⟨hrows, -, hvis⟩ := hg.raw.filled.takeAll.of_eq htake
  simp only at hrows hvis
  subst hrows
  exact ⟨st, settled, ⟨raw, htake, hvis, hst⟩, hsettled, _, hresult.symm⟩

namespace Shrunk
variable {settled g' : Grid Cell}

theorem grid (h : Shrunk g columns st settled g') : ∃ cursor savedCursor,
    g' = { (st.grid.adoptRows (st.newRaw.take (st.grid.maxScrollLimit + st.grid.lines))) with
      cursor, savedCursor } := by
  obtain ⟨cursor, hcursor⟩ := settleCursor_only _ _ _ settled h.settle
  obtain ⟨savedCursor, hresult⟩ := h.result
  exact ⟨cursor, savedCursor, by rw [hresult, hcursor]⟩

theorem rows_eq (h : Shrunk g columns st settled g') :
    g'.raw.rows = st.newRaw.take (st.grid.maxScrollLimit + st.grid.lines) := by
  obtain ⟨cursor, savedCursor, hgrid⟩ := h.grid
  have htext : g'.textRows = (st.newRaw.take (st.grid.maxScrollLimit + st.grid.lines)).reverse := by
    rw [hgrid]
    exact adoptRows_textRows _ _
  exact List.reverse_injective htext

theorem textRows (h : Shrunk g columns st settled g') :
    dropped st ++ g'.textRows = st.newRaw.reverse := by
  rw [Grid.textRows, h.rows_eq, dropped, ← List.reverse_append, List.take_append_drop]

theorem full (h : Shrunk g columns st settled g') (hne : dropped st ≠ []) :
    g'.raw.len = g'.maxScrollLimit + g'.lines := by
  obtain ⟨cursor, savedCursor, hgrid⟩ := h.grid
  have hpos := List.length_pos_of_ne_nil hne
  rw [dropped, List.length_reverse, List.length_drop] at hpos
  rw [hgrid]
  simp only [adoptRows, Storage.replaceInner, List.length_take]
  omega

theorem room (h : Shrunk g columns st settled g') (hg : g.WF) {limit : Nat}
    (hlimit : g.maxScrollLimit ≤ limit) (hroom : (dropped st ++ g'.textRows).length ≤ limit) :
    Allows ((g.withLimit limit).shrinkColumns true columns) fun whole =>
      whole.textRows = dropped st ++ g'.textRows := by
  intro whole hwhole
  obtain ⟨st', settled', h'⟩ := shrinkColumns_shrunk (hg.withLimit hlimit) whole hwhole
  obtain ⟨raw, htake, -, hst⟩ := h.rows
  obtain ⟨raw', htake', -, hst'⟩ := h'.rows
  obtain rfl : raw = raw' := (Prod.mk.inj (Option.some.inj (htake.symm.trans htake'))).2
  obtain rfl : st.withLimit limit = st' := by
    refine Option.some.inj (Eq.trans ?_ hst')
    rw [show some (st.withLimit limit) = (some st).map (ShrinkState.withLimit limit) from rfl, ← hst,
      ← shrinkRows_withLimit]
    have hstart := unwrapCursor_withLimit { g with columns } limit true
    exact congrArg (fun start : Grid Cell => shrinkRows true columns g.textRows ⟨{ start with raw }, [], none⟩)
      hstart.symm
  rw [h.textRows, List.length_reverse] at hroom
  have hnone : dropped (st.withLimit limit) = [] :=
    congrArg List.reverse (List.drop_of_length_le (show st.newRaw.length ≤ limit + st.grid.lines by omega))
  have htext := h'.textRows
  rw [hnone, List.nil_append] at htext
  exact htext.trans h.textRows.symm

end Shrunk

theorem WF.textRows_ne_nil (hg : g.WF) : g.textRows ≠ [] := by
  intro hnil
  have hlen := hg.raw.filled.length_rows
  have hpos := hg.raw.len_pos
  rw [List.reverse_eq_nil_iff.mp hnil] at hlen
  simp only [List.length_nil] at hlen
  omega

/-- Shrinking keeps the text, except for the oldest rows if they are too many. -/
theorem Shrunk.text {settled g' : Grid Cell} (h : Shrunk g columns st settled g') (hg : g.WF)
    (hr : g.Readable) (hc : 1 ≤ columns) (hle : columns ≤ g.columns) :
    logicalLines (dropped st ++ g'.textRows) = logicalLines g.textRows := by
  obtain ⟨raw, -, -, hst⟩ := h.rows
  have hclean : EachRow (fun n row => row.ShrinksClean columns n) (readRows []) g.textRows := by
    refine EachRow.of_forall (fun row hrow n k hk => ?_) _
    rw [hr.strayEnd row hrow] at hk
    cases hk
  have hread := shrinkRows_reads hg.textRows_ne_nil (hg.shrinkReady columns raw) hclean
    (hr.narrow.rows hg) hc hle st hst
  rw [h.textRows]
  exact congrArg (List.rdropWhile List.isEmpty) hread

end Grid
end Velacritty
