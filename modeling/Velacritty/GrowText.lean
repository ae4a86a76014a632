import Velacritty.LogicalLines

/-! Growing keeps the text of the rows. -/
namespace Velacritty
open Fallible
open Flow (Piece Reading feed trim)
variable {columns n : Nat} {last last' row row' : Row Cell} {reversed reversed' : List (Row Cell)}

theorem shouldReflow_iff : shouldReflow true columns row = true ↔
    0 < row.len ∧ row.len < columns ∧ wraps row.inner = true := by
  simp only [shouldReflow, Bool.true_and, Bool.and_eq_true, decide_eq_true_eq, and_assoc]
  rfl

theorem unwrapRow_narrow (h : last.Narrow) :
    unwrapRow last = last.modifyLast (setWrapline false) := by
  unfold unwrapRow
  refine if_neg (Bool.eq_false_iff.mp ?_)
  rw [Option.any_eq_false]
  exact fun cell hcell => (h.modifyLast false cell (List.mem_of_getLast? hcell)).leadingWideCharSpacer

/-- Without fullwidth characters, the free columns of a row are filled from the next one. -/
structure Pulls (columns : Nat) (last row last' row' : Row Cell) (n : Nat) : Prop where
  free : last.len + n = columns
  filled : last'.inner = updateLast (setWrapline false) last.inner ++ row.inner.take n
  left : row'.inner = row.inner.drop n

theorem pullCells_narrow (hlast : last.Narrow) (hrow : row.Narrow) :
    Allows (pullCells columns last row) fun p => Pulls columns last row p.1 p.2.1 p.2.2 := by
  intro p hp
  unfold pullCells at hp
  rw [unwrapRow_narrow hlast] at hp
  simp only [Option.bind_eq_bind, Option.bind_eq_some_iff, usub_eq_some, Row.len_modifyLast] at hp
  obtain ⟨n, ⟨hn, rfl⟩, k, -, cell, hcell, hp⟩ := hp
  have hwide : (GridCell.flags cell).wideChar = false := (hrow cell (List.mem_of_getElem? hcell)).wideChar
  simp only [hwide, Bool.false_eq_true, if_false, Option.bind_eq_some_iff, Row.frontSplitOff,
    Option.ite_none_right_eq_some, Option.some.injEq] at hp
  obtain ⟨q, ⟨-, rfl⟩, rfl⟩ := hp
  refine ⟨Nat.add_sub_cancel' hn, ?_, ?_⟩
  · simp only [Row.append, Row.modifyLast, Row.len]
    rw [Nat.min_comm, ← List.take_eq_take_min]
  · simp only [Row.len]
    rcases Nat.le_total row.inner.length (columns - last.inner.length) with h | h
    · rw [Nat.min_eq_left h, List.drop_of_length_le h, List.drop_length]
    · rw [Nat.min_eq_right h]

namespace Pulls

theorem narrow (h : Pulls columns last row last' row' n) (hlast : last.Narrow) (hrow : row.Narrow) :
    last'.Narrow ∧ row'.Narrow := by
  refine ⟨fun cell hcell => ?_, fun cell hcell => ?_⟩
  · rw [h.filled] at hcell
    rcases List.mem_append.mp hcell with hcell | hcell
    · exact hlast.modifyLast false cell hcell
    · exact hrow cell (List.mem_of_mem_take hcell)
  · rw [h.left] at hcell
    exact hrow cell (List.mem_of_mem_drop hcell)

theorem len_filled (h : Pulls columns last row last' row' n) :
    last'.len = last.len + min n row.len := by
  rw [Row.len, h.filled, List.length_append, length_updateLast, List.length_take]
  rfl

theorem len_left (h : Pulls columns last row last' row' n) : row'.len = row.len - n := by
  rw [Row.len, h.left, List.length_drop]
  rfl

theorem filled_ne_nil (h : Pulls columns last row last' row' n) (hpos : 0 < last.len) :
    last'.inner ≠ [] := by
  refine List.ne_nil_of_length_pos ?_
  have hlen := h.len_filled
  simp only [Row.len] at hpos hlen
  omega

theorem feed_before (h : Pulls columns last row last' row' n) (hwraps : wraps last.inner = true)
    (s : Reading Cell) : feed Cell.isEmpty (feed Cell.isEmpty s last.piece) row.piece =
      feed Cell.isEmpty s
        ⟨last'.inner.map Cell.unwrapped ++ row'.inner.map Cell.unwrapped, wraps row.inner⟩ := by
  have hcells : (updateLast (setWrapline false) last.inner).map Cell.unwrapped =
      last.inner.map Cell.unwrapped := by
    by_cases hnil : last.inner = []
    · rw [hnil]
      rfl
    · exact congrArg Piece.cells (pieceOf_updateLast false hnil)
  have hall : last'.inner.map Cell.unwrapped ++ row'.inner.map Cell.unwrapped =
      last.inner.map Cell.unwrapped ++ row.inner.map Cell.unwrapped := by
    rw [h.filled, h.left, List.map_append, hcells, List.append_assoc, ← List.map_append,
      List.take_append_drop]
  rw [Row.piece, Row.piece, pieceOf, pieceOf, hwraps, Flow.feed_split, hall]

/-- The first row is full and the rest stays in the second. -/
theorem feed_pushed (h : Pulls columns last row last' row' n) (hwraps : wraps last.inner = true)
    (hlt : n < row.len) (s : Reading Cell) :
    feed Cell.isEmpty (feed Cell.isEmpty s (last'.modifyLast (setWrapline true)).piece) row'.piece =
      feed Cell.isEmpty (feed Cell.isEmpty s last.piece) row.piece := by
  have hlast : last'.inner ≠ [] := by
    rw [h.filled, updateLast_eq _ fun hnil => ?_]
    · simp
    · rw [hnil] at hwraps
      cases hwraps
  have hwrow : wraps row'.inner = wraps row.inner := by
    rw [h.left]
    conv_rhs => rw [← List.take_append_drop n row.inner]
    rw [wraps_append]
    exact List.ne_nil_of_length_pos (by rw [List.length_drop]; unfold Row.len at hlt; omega)
  rw [h.feed_before hwraps, Row.piece_modifyLast true hlast, Row.piece, pieceOf, Flow.feed_split, hwrow]

theorem feed_merged (h : Pulls columns last row last' row' n) (hwraps : wraps last.inner = true)
    (hstray : ∀ k ∈ strayEnd row.inner, k ≠ n) (hpos : 0 < n) (hlen : 0 < row.len)
    (hclear : row'.isClear = true) (s : Reading Cell) :
    feed Cell.isEmpty s last'.piece = feed Cell.isEmpty (feed Cell.isEmpty s last.piece) row.piece := by
  have hne : row.inner.take n ≠ [] := by
    refine List.ne_nil_of_length_pos ?_
    rw [List.length_take]
    exact Nat.lt_min.mpr ⟨hpos, hlen⟩
  have hlast : last'.piece = ⟨last'.inner.map Cell.unwrapped, wraps (row.inner.take n)⟩ := by
    rw [Row.piece, pieceOf]
    conv_lhs => rw [h.filled, wraps_append _ hne, ← h.filled]
  rw [h.feed_before hwraps, hlast]
  by_cases hn : n < row.len
  · have hempty := Row.isClear_iff.mp hclear
    have hw : wraps row.inner = false := by
      conv_lhs => rw [← List.take_append_drop n row.inner]
      rw [wraps_append _ (List.ne_nil_of_length_pos (by rw [List.length_drop]; unfold Row.len at hn; omega)),
        ← h.left]
      exact wraps_of_isEmpty hempty
    have htake : wraps (row.inner.take n) = false := by
      refine Bool.eq_false_iff.mpr fun hflag => hstray n ?_ rfl
      rw [strayEnd_of_wrapEnd hw]
      exact wrapEnd_of_take hflag (Nat.le_of_lt hn) (h.left ▸ hempty)
    rw [htake, hw, Flow.feed_append_blank s _ (isEmpty_map_unwrapped hempty)]
  · rw [h.left, List.drop_of_length_le (Nat.le_of_not_lt hn), List.take_of_length_le (Nat.le_of_not_lt hn),
      List.map_nil, List.append_nil]

end Pulls

/-- Rows on their way to a new width, newest first: only the newest one may wrap before
it is full. -/
structure Reflowed (columns : Nat) (reversed : List (Row Cell)) : Prop where
  narrow : ∀ r ∈ reversed, r.Narrow
  len_pos : ∀ r ∈ reversed, 0 < r.len
  len_le : ∀ r ∈ reversed, r.len ≤ columns
  full : ∀ r ∈ reversed.tail, wraps r.inner = true → r.len = columns

namespace Reflowed
variable {above : List (Row Cell)} {width : Nat}

theorem nil : Reflowed columns [] := by
  refine ⟨?_, ?_, ?_, ?_⟩
  all_goals exact fun r hr => absurd hr List.not_mem_nil

theorem tail (h : Reflowed columns (last :: above)) : Reflowed columns above :=
  ⟨fun r hr => h.narrow r (List.mem_cons_of_mem _ hr), fun r hr => h.len_pos r (List.mem_cons_of_mem _ hr),
    fun r hr => h.len_le r (List.mem_cons_of_mem _ hr), fun r hr => h.full r (List.mem_of_mem_tail hr)⟩

theorem cons (h : Reflowed columns reversed) (hnarrow : row.Narrow) (hpos : 0 < row.len)
    (hle : row.len ≤ columns)
    (hfull : ∀ last above, reversed = last :: above → wraps last.inner = true → last.len = columns) :
    Reflowed columns (row :: reversed) := by
  refine ⟨?_, ?_, ?_, ?_⟩
  · exact List.forall_mem_cons.mpr ⟨hnarrow, h.narrow⟩
  · exact List.forall_mem_cons.mpr ⟨hpos, h.len_pos⟩
  · exact List.forall_mem_cons.mpr ⟨hle, h.len_le⟩
  · rw [List.tail_cons]
    cases reversed with
    | nil => exact fun r hr => absurd hr List.not_mem_nil
    | cons last above => exact List.forall_mem_cons.mpr ⟨hfull last above rfl, h.full⟩

/-- A row follows a line that ended, or a full row. -/
theorem push (h : Reflowed columns reversed) (hrow : row.Shaped width) (hpos : 0 < width)
    (hle : width ≤ columns)
    (hno : ∀ last above, reversed = last :: above → shouldReflow true columns last = false) :
    Reflowed columns (row :: reversed) := by
  refine h.cons hrow.narrow (hrow.len_eq ▸ hpos) (hrow.len_eq ▸ hle) fun last above hrev hwraps => ?_
  subst hrev
  have hlen := h.len_le last List.mem_cons_self
  have hshort : ¬ last.len < columns := fun hlt => by
    have hshould := shouldReflow_iff.mpr ⟨h.len_pos last List.mem_cons_self, hlt, hwraps⟩
    rw [hno last above rfl] at hshould
    cases hshould
  omega

theorem merge (h : Reflowed columns (last :: above)) (hp : Pulls columns last row last' row' n)
    (hrow : row.Shaped width) : Reflowed columns (last' :: above) := by
  have hlen := hp.len_filled
  have hfree := hp.free
  have hpos := h.len_pos last List.mem_cons_self
  refine h.tail.cons (hp.narrow (h.narrow last List.mem_cons_self) hrow.narrow).1 (by omega)
    (by omega) fun next rest hrev hwraps => h.full next ?_ hwraps
  rw [List.tail_cons, hrev]
  exact List.mem_cons_self

theorem split (h : Reflowed columns (last :: above)) (hp : Pulls columns last row last' row' n)
    (hrow : row.Shaped width) (hle : width ≤ columns) (hlt : n < row.len) :
    Reflowed columns (row' :: last'.modifyLast (setWrapline true) :: above) := by
  have hfilled := hp.len_filled
  have hleft := hp.len_left
  have hfree := hp.free
  have hlen := hrow.len_eq
  obtain ⟨hnlast, hnrow⟩ := hp.narrow (h.narrow last List.mem_cons_self) hrow.narrow
  have hmerged := h.merge hp hrow
  have hfull : (last'.modifyLast (setWrapline true)).len = columns := by
    rw [Row.len_modifyLast]
    omega
  have hlast : Reflowed columns (last'.modifyLast (setWrapline true) :: above) := by
    refine hmerged.tail.cons (hnlast.modifyLast true) ?_ (Nat.le_of_eq hfull) ?_
    · rw [Row.len_modifyLast]
      exact hmerged.len_pos last' List.mem_cons_self
    · intro next rest hrev
      exact hmerged.full next (by rw [List.tail_cons, hrev]; exact List.mem_cons_self)
  refine hlast.cons hnrow (by omega) (by omega) fun next rest hrev _ => ?_
  rw [← (List.cons.inj hrev).1]
  exact hfull

/-- How many cells of the line under way are in the last row. -/
theorem pending_mod (h : Reflowed columns (last :: above))
    (hshould : shouldReflow true columns last = true) :
    (readRows (last :: above).reverse).pending.length % columns = last.len := by
  obtain ⟨-, hlt, hwraps⟩ := shouldReflow_iff.mp hshould
  obtain ⟨k, hk⟩ : ∃ k, (readRows above.reverse).pending.length = columns * k := by
    refine Flow.pending_of_width fun p hp hw => ?_
    obtain ⟨r, hr, rfl⟩ := List.mem_map.mp hp
    rw [List.mem_reverse] at hr
    rw [Row.piece, pieceOf, List.length_map]
    exact h.full r hr hw
  rw [readRows_cons_reverse, Row.piece, pieceOf, hwraps, feed, if_pos rfl]
  simp only [List.length_append, List.length_map, hk]
  rw [Nat.mul_add_mod]
  exact Nat.mod_eq_of_lt hlt

end Reflowed

/-- Below `n` cells of its line, no flag inside of the row is at the end of a grown row. -/
def Row.GrowsClean (columns n : Nat) (row : Row Cell) : Prop :=
  ∀ k ∈ strayEnd row.inner, n % columns + k ≠ columns

instance (columns n : Nat) (row : Row Cell) : Decidable (row.GrowsClean columns n) :=
  inferInstanceAs (Decidable (∀ k ∈ strayEnd row.inner, _))

theorem Pulls.stray {above : List (Row Cell)} (hp : Pulls columns last row last' row' n)
    (h : Reflowed columns (last :: above)) (hshould : shouldReflow true columns last = true)
    (hclean : row.GrowsClean columns (readRows (last :: above).reverse).pending.length) :
    ∀ k ∈ strayEnd row.inner, k ≠ n := by
  intro k hk heq
  refine hclean k hk ?_
  rw [h.pending_mod hshould, heq]
  exact hp.free

theorem growPushed_reads {width : Nat} (h : Reflowed columns reversed) (hrow : row.Shaped width)
    (hpos : 0 < width) (hle : width ≤ columns) :
    Allows (growPushed columns false reversed row) fun reversed' => Reflowed columns reversed' ∧
      (row.GrowsClean columns (readRows reversed.reverse).pending.length →
        readRows reversed'.reverse = feed Cell.isEmpty (readRows reversed.reverse) row.piece) := by
  intro reversed' hrev
  unfold growPushed at hrev
  split at hrev
  · obtain rfl := Option.some.inj hrev
    exact ⟨h.push hrow hpos hle fun _ _ hnil => (nomatch hnil), fun _ => rfl⟩
  · next last above =>
      split at hrev
      · next hshould =>
          simp only [Option.bind_eq_bind, Option.bind_eq_some_iff, Option.some.injEq] at hrev
          obtain ⟨⟨last', row', n⟩, hpull, hrev⟩ := hrev
          have hp := pullCells_narrow (h.narrow last List.mem_cons_self) hrow.narrow _ hpull
          obtain ⟨-, hlt, hwraps⟩ := shouldReflow_iff.mp hshould
          have hfree := hp.free
          simp only [Bool.not_false, Bool.and_true] at hp hrev hfree
          by_cases hclear : row'.isClear = true
          · rw [if_pos hclear] at hrev
            subst hrev
            refine ⟨h.merge hp hrow, fun hclean => ?_⟩
            have hstray := hp.stray h hshould hclean
            rw [readRows_cons_reverse, readRows_cons_reverse]
            exact hp.feed_merged hwraps hstray (by omega) (hrow.len_eq ▸ hpos) hclear _
          · rw [if_neg hclear] at hrev
            subst hrev
            have hn : n < row.len := by
              refine Nat.lt_of_not_le fun hle => hclear (Row.isClear_iff.mpr fun cell hcell => ?_)
              rw [hp.left, List.drop_of_length_le hle] at hcell
              exact absurd hcell List.not_mem_nil
            refine ⟨h.split hp hrow hle hn, fun _ => ?_⟩
            rw [readRows_cons_reverse, readRows_cons_reverse, readRows_cons_reverse]
            exact hp.feed_pushed hwraps hn _
      · next hshould =>
          obtain rfl := Option.some.inj hrev
          refine ⟨h.push hrow hpos hle fun last' above' hrev => ?_, fun _ => ?_⟩
          · rw [← (List.cons.inj hrev).1]
            exact Bool.eq_false_iff.mpr hshould
          · rw [readRows_cons_reverse]

/-- Growing past rows says what they say. -/
theorem growPushed_foldlM_reads {width : Nat} {rows : List (Row Cell)} (h : Reflowed columns reversed)
    (hrows : ∀ r ∈ rows, r.Shaped width) (hpos : 0 < width) (hle : width ≤ columns) :
    Allows (rows.foldlM (growPushed columns false) reversed) fun reversed' =>
      Reflowed columns reversed' ∧
      (EachRow (fun n row => row.GrowsClean columns n) (readRows reversed.reverse) rows →
        readRows reversed'.reverse =
          (rows.map Row.piece).foldl (feed Cell.isEmpty) (readRows reversed.reverse)) := by
  induction rows generalizing reversed with
  | nil => exact .pure ⟨h, fun _ => rfl⟩
  | cons row rest ih =>
      rw [List.forall_mem_cons] at hrows
      rw [List.foldlM_cons]
      refine (growPushed_reads h hrows.1 hpos hle).bind fun next hnext => ?_
      refine (ih hnext.1 hrows.2).mono fun reversed' hrev => ⟨hrev.1, fun hclean => ?_⟩
      obtain ⟨hfirst, hrest⟩ := hclean
      rw [← hnext.2 hfirst] at hrest
      rw [hrev.2 hrest, hnext.2 hfirst]
      rfl

/-- A row only touches the newest one, unless it is the first. -/
theorem growPushed_shape {above : List (Row Cell)} :
    Allows (growPushed columns false (last :: above) row) fun reversed' =>
      ∃ news, reversed' = news ++ above ∧ 1 ≤ news.length ∧ news.length ≤ 2 := by
  intro reversed' hrev
  simp only [growPushed] at hrev
  split at hrev
  · simp only [Option.bind_eq_bind, Option.bind_eq_some_iff, Option.some.injEq] at hrev
    obtain ⟨⟨last', row', n⟩, -, rfl⟩ := hrev
    simp only
    split
    · exact ⟨[last'], rfl, Nat.le_refl _, Nat.le_succ _⟩
    · exact ⟨[row', last'.modifyLast (setWrapline true)], rfl, Nat.le_succ _, Nat.le_refl _⟩
  · obtain rfl := Option.some.inj hrev
    exact ⟨[row, last], rfl, Nat.le_succ _, Nat.le_refl _⟩

/-- Growing past rows leaves those above the newest alone. -/
theorem growPushed_foldlM_shape {rows above : List (Row Cell)} :
    Allows (rows.foldlM (growPushed columns false) (last :: above)) fun reversed' =>
      ∃ news, reversed' = news ++ above ∧ 1 ≤ news.length ∧ news.length ≤ rows.length + 1 := by
  induction rows generalizing last above with
  | nil => exact .pure ⟨[last], rfl, Nat.le_refl _, Nat.le_refl _⟩
  | cons row rest ih =>
      rw [List.foldlM_cons]
      refine growPushed_shape.bind fun next hnext => ?_
      obtain ⟨news, rfl, hpos, hle⟩ := hnext
      cases news with
      | nil => exact absurd hpos (by decide)
      | cons newest between =>
          rw [List.cons_append]
          refine ih.mono fun reversed' hrev => ?_
          obtain ⟨news', rfl, hpos', hle'⟩ := hrev
          refine ⟨news' ++ between, (List.append_assoc ..).symm, ?_, ?_⟩
          · rw [List.length_append]
            omega
          · simp only [List.length_append, List.length_cons] at hle ⊢
            omega

/-! ### The row of the cursor -/

/-- The cursor moves left by the free columns `n` of the row above, and there if it
has to. On the top line it cannot. -/
theorem reflowTarget_eq {d : Dimensions} {p : Point} (hlo : 0 ≤ p.line) (hhi : p.line < d.screenLines)
    (hp : p.column < d.columns) (hn : n < d.columns) (clear : Bool) :
    reflowTarget d p n clear =
      if n < p.column ∨ n = p.column ∧ clear = false then (⟨p.line, p.column - n⟩, false)
      else if p.line = 0 then (⟨0, 0⟩, clear)
      else if n = p.column then (⟨p.line - 1, d.columns - 1⟩, true)
      else (⟨p.line - 1, p.column + d.columns - n⟩, false) := by
  have hhome : ∀ {q : Point}, q = ⟨0, 0⟩ → q.sub d .cursor 1 = ⟨0, 0⟩ := by
    rintro q rfl
    rw [Point.sub_of_le (Int.le_refl 0) (by simp only; omega) (by simp only; omega) (by omega)]
    exact if_neg (by simp)
  have hsub := Point.sub_of_le hlo hhi hp (Nat.le_of_lt hn)
  by_cases hlt : n < p.column
  · rw [if_pos (Nat.le_of_lt hlt)] at hsub
    rw [if_pos (.inl hlt)]
    simp only [reflowTarget, hsub]
    exact if_neg fun h => by omega
  by_cases heq : n = p.column
  · subst heq
    rw [if_pos (Nat.le_refl _), Nat.sub_self] at hsub
    simp only [reflowTarget, hsub, true_and, lt_irrefl, false_or, if_true]
    cases clear with
    | false => simp only [Bool.false_eq_true, if_true, if_false, Nat.sub_self]
    | true =>
        simp only [Bool.true_eq_false, if_true, if_false]
        by_cases hzero : p.line = 0
        · rw [if_pos hzero, hhome (by rw [hzero])]
        · have hback := Point.sub_of_le (p := ⟨p.line, 0⟩) hlo hhi (by simp only; omega)
            (show 1 ≤ d.columns by omega)
          rw [if_neg (by simp), if_neg hzero, Nat.zero_add] at hback
          rw [if_neg hzero, hback]
  · rw [if_neg (show ¬ n ≤ p.column by omega)] at hsub
    rw [if_neg (by omega)]
    simp only [reflowTarget, hsub, if_neg heq]
    by_cases hzero : p.line = 0
    · simp only [hzero, if_true, true_and]
      cases clear with
      | false => exact if_neg (by simp)
      | true => rw [if_pos rfl, hhome rfl]
    · simp only [hzero, if_false]
      exact if_neg fun h => by omega

/-- What happens to the cursor's row, and where the cursor goes with its text. -/
inductive GrownCursor (columns : Nat) (row : Row Cell) (a b : GrowState Cell) : Prop
  /-- The line ended above: the row is one of its own. -/
  | pushed (hno : ∀ last above, a.reversed = last :: above → shouldReflow true columns last = false)
      (h : b = { a with reversed := row :: a.reversed })
  /-- The row joins the one above as a whole, and the cursor with it. -/
  | merged {last last' row' : Row Cell} {above : List (Row Cell)} {n : Nat}
      (hrev : a.reversed = last :: above) (hshould : shouldReflow true columns last = true)
      (hpulls : Pulls columns last row last' row' n) (hclear : row'.isClear = true)
      (hline : a.grid.cursor.point.line ≠ 0) (hbefore : a.grid.cursor.point.column ≤ n)
      (hkept : b.reversed = last' :: above) (hdelta : b.cursorLineDelta = a.cursorLineDelta)
      (hcolumn : b.grid.cursor.pastColumn = last.len + a.grid.cursor.point.column)
  /-- The cursor is in the part of the row that joins the one above. -/
  | lifted {last last' row' : Row Cell} {above : List (Row Cell)} {n : Nat}
      (hrev : a.reversed = last :: above) (hshould : shouldReflow true columns last = true)
      (hpulls : Pulls columns last row last' row' n) (hleft : n < row.len)
      (hline : a.grid.cursor.point.line ≠ 0) (hbefore : a.grid.cursor.point.column < n)
      (hkept : b.reversed = row' :: last'.modifyLast (setWrapline true) :: above)
      (hdelta : b.cursorLineDelta = a.cursorLineDelta + 1)
      (hcolumn : b.grid.cursor.pastColumn = last.len + a.grid.cursor.point.column)
  /-- The cursor is in the part of the row that stays. -/
  | stayed {last last' row' : Row Cell} {above : List (Row Cell)} {n : Nat}
      (hrev : a.reversed = last :: above) (hshould : shouldReflow true columns last = true)
      (hpulls : Pulls columns last row last' row' n) (hleft : n < row.len)
      (hkept : b.reversed = row' :: last'.modifyLast (setWrapline true) :: above)
      (hdelta : b.cursorLineDelta = a.cursorLineDelta)
      (hcolumn : n + b.grid.cursor.pastColumn = a.grid.cursor.point.column)
  /-- The cursor should follow the text up, but is on the top line. -/
  | stuck {last last' row' : Row Cell} {above : List (Row Cell)} {n : Nat}
      (hrev : a.reversed = last :: above) (hshould : shouldReflow true columns last = true)
      (hpulls : Pulls columns last row last' row' n)
      (hline : a.grid.cursor.point.line = 0)
      (hbefore : a.grid.cursor.point.column < n ∨ a.grid.cursor.point.column = n ∧ row'.isClear = true)
      (hkept : b.reversed = row' :: last'.modifyLast (setWrapline true) :: above)
      (hdelta : b.cursorLineDelta = a.cursorLineDelta)

theorem isClear_of_le (hp : Pulls columns last row last' row' n) (h : row.len ≤ n) :
    row'.isClear = true := by
  rw [Row.isClear_iff, hp.left, List.drop_of_length_le h]
  exact fun cell hcell => absurd hcell List.not_mem_nil

theorem GrownAt.cursor {width : Nat} {a b : GrowState Cell} (h : GrownAt columns row a b)
    (ha : Reflowed columns a.reversed) (hrow : row.Shaped width) (hlt : width < columns)
    (hlo : 0 ≤ a.grid.cursor.point.line) (hhi : a.grid.cursor.point.line < a.grid.lines)
    (hcol : a.grid.cursor.point.column ≤ width) (hnw : a.grid.cursor.inputNeedsWrap = false) :
    GrownCursor columns row a b := by
  cases h with
  | pushed hno h => exact .pushed hno h
  | @pulled last last' row' above n target clamp hrev hshould hpull htarget hgrid h =>
      have hnarrow : last.Narrow := ha.narrow last (by rw [hrev]; exact List.mem_cons_self)
      have hp := pullCells_narrow hnarrow hrow.narrow _ hpull
      simp only at hp
      have hn : n < columns := by
        have hfree := hp.free
        have hlen := (shouldReflow_iff.mp hshould).1
        omega
      have hleft : row'.isClear = false → n < row.len := fun hclear =>
        Nat.lt_of_not_le fun hle => by rw [isClear_of_le hp hle] at hclear; cases hclear
      have hlen := hrow.len_eq
      have hfree := hp.free
      have hcolumn : b.grid.cursor.pastColumn = target.column + if clamp then 1 else 0 := by
        rw [hgrid, Cursor.pastColumn, hnw, Bool.false_or]
      rw [reflowTarget_eq hlo hhi (Nat.lt_of_le_of_lt hcol hlt) hn] at htarget
      split at htarget
      · next hstays =>
          obtain ⟨rfl, rfl⟩ := Prod.mk.inj htarget
          rcases h with ⟨hline, -⟩ | ⟨-, hkept, hdelta⟩
          · exact absurd hline (lt_irrefl _)
          · refine .stayed hrev hshould hp ?_ hkept ?_ ?_
            · rcases hstays with h | ⟨-, h⟩
              · omega
              · exact hleft h
            · rw [hdelta]
              simp
            · rw [hcolumn]
              simp only [Bool.false_eq_true, if_false]
              omega
      · next hmoves =>
          have hbefore : a.grid.cursor.point.column < n ∨
              a.grid.cursor.point.column = n ∧ row'.isClear = true := by
            rcases Nat.lt_trichotomy n a.grid.cursor.point.column with h | h | h
            · exact absurd (.inl h) hmoves
            · refine .inr ⟨h.symm, ?_⟩
              rw [← Bool.not_eq_false]
              exact fun hclear => hmoves (.inr ⟨h, hclear⟩)
            · exact .inl h
          split at htarget
          · next hzero =>
              obtain ⟨rfl, rfl⟩ := Prod.mk.inj htarget
              rcases h with ⟨hline, -⟩ | ⟨-, hkept, hdelta⟩
              · simp only at hline
                omega
              · refine .stuck hrev hshould hp hzero hbefore hkept ?_
                rw [hdelta, hzero]
                simp
          · next hzero =>
              have hpast : b.grid.cursor.pastColumn = last.len + a.grid.cursor.point.column ∧
                  target.line = a.grid.cursor.point.line - 1 := by
                split at htarget
                · obtain ⟨rfl, rfl⟩ := Prod.mk.inj htarget
                  refine ⟨?_, rfl⟩
                  rw [hcolumn]
                  simp only [if_true]
                  omega
                · obtain ⟨rfl, rfl⟩ := Prod.mk.inj htarget
                  refine ⟨?_, rfl⟩
                  rw [hcolumn]
                  simp only [Bool.false_eq_true, if_false]
                  omega
              obtain ⟨hpast, hline⟩ := hpast
              rcases h with ⟨-, hclear, hkept, hdelta⟩ | ⟨hor, hkept, hdelta⟩
              · refine .merged hrev hshould hp hclear hzero ?_ hkept hdelta hpast
                omega
              · have hclear : row'.isClear = false := by
                  rcases hor with h | h
                  · omega
                  · exact h
                refine .lifted hrev hshould hp (hleft hclear) hzero ?_ hkept ?_ hpast
                · rcases hbefore with h | ⟨-, h⟩
                  · exact h
                  · rw [hclear] at h
                    cases h
                · rw [hdelta, hline]
                  omega

/-- The row of a cursor on the top line fits into the row above as a whole. -/
def Swallowed (columns width : Nat) (a : GrowState Cell) : Prop :=
  a.grid.cursor.point.line = 0 ∧ ∃ last above, a.reversed = last :: above ∧
    shouldReflow true columns last = true ∧ last.len + width ≤ columns

/-- The cursor is on the top line, and its text joins the row above. -/
def Stuck (columns : Nat) (row : Row Cell) (a : GrowState Cell) : Prop :=
  a.grid.cursor.point.line = 0 ∧ ∃ last last' row' above n, a.reversed = last :: above ∧
    shouldReflow true columns last = true ∧ Pulls columns last row last' row' n ∧
    (a.grid.cursor.point.column < n ∨ a.grid.cursor.point.column = n ∧ row'.isClear = true)

/-- The cursor's row is said like the others. -/
theorem GrownCursor.reads {width : Nat} {a b : GrowState Cell} (h : GrownCursor columns row a b)
    (ha : Reflowed columns a.reversed) (hrow : row.Shaped width) (hpos : 0 < width)
    (hle : width ≤ columns) (hslip : ¬ Swallowed columns width a) :
    Reflowed columns b.reversed ∧
      (row.GrowsClean columns (readRows a.reversed.reverse).pending.length →
        readRows b.reversed.reverse = feed Cell.isEmpty (readRows a.reversed.reverse) row.piece) := by
  have hsplit : ∀ {last last' row' : Row Cell} {above : List (Row Cell)} {n : Nat},
      a.reversed = last :: above → shouldReflow true columns last = true →
      Pulls columns last row last' row' n → n < row.len →
      b.reversed = row' :: last'.modifyLast (setWrapline true) :: above →
      Reflowed columns b.reversed ∧
        (row.GrowsClean columns (readRows a.reversed.reverse).pending.length →
          readRows b.reversed.reverse = feed Cell.isEmpty (readRows a.reversed.reverse) row.piece) := by
    intro last last' row' above n hrev hshould hp hn hkept
    rw [hrev] at ha
    rw [hkept, hrev]
    refine ⟨ha.split hp hrow hle hn, fun _ => ?_⟩
    rw [readRows_cons_reverse, readRows_cons_reverse, readRows_cons_reverse]
    exact hp.feed_pushed (shouldReflow_iff.mp hshould).2.2 hn _
  cases h with
  | pushed hno h =>
      rw [h]
      exact ⟨ha.push hrow hpos hle hno, fun _ => readRows_cons_reverse _ _⟩
  | merged hrev hshould hp hclear hline hbefore hkept hdelta hcolumn =>
      obtain ⟨-, hshort, hwraps⟩ := shouldReflow_iff.mp hshould
      have hfree := hp.free
      rw [hrev] at ha
      rw [hkept, hrev]
      refine ⟨ha.merge hp hrow, fun hclean => ?_⟩
      have hstray := hp.stray ha hshould hclean
      rw [readRows_cons_reverse, readRows_cons_reverse]
      exact hp.feed_merged hwraps hstray (by omega) (hrow.len_eq ▸ hpos) hclear _
  | lifted hrev hshould hp hleft _ _ hkept => exact hsplit hrev hshould hp hleft hkept
  | stayed hrev hshould hp hleft hkept => exact hsplit hrev hshould hp hleft hkept
  | @stuck last last' row' above n hrev hshould hp hline hbefore hkept hdelta =>
      refine hsplit hrev hshould hp (Nat.lt_of_not_le fun hle => hslip ?_) hkept
      have hfree := hp.free
      have hlen := hrow.len_eq
      exact ⟨hline, last, above, hrev, hshould, by omega⟩

/-- The cursor stays on its text, unless it is stuck on the top line. -/
theorem GrownCursor.place {a b : GrowState Cell} (h : GrownCursor columns row a b)
    (hnw : a.grid.cursor.inputNeedsWrap = false) (hdelta : a.cursorLineDelta = 0)
    (hstuck : ¬ Stuck columns row a) :
    placeOf (b.reversed.drop (1 + b.cursorLineDelta)).reverse b.grid.cursor.pastColumn =
      placeOf a.reversed.reverse a.grid.cursor.point.column := by
  cases h with
  | pushed hno h =>
      rw [h, hdelta, Cursor.pastColumn, hnw]
      rfl
  | merged hrev hshould hp hclear hline hbefore hkept hdelta' hcolumn =>
      rw [hkept, hdelta', hdelta, hcolumn, hrev, placeOf_wraps (shouldReflow_iff.mp hshould).2.2]
      rfl
  | lifted hrev hshould hp hleft hline hbefore hkept hdelta' hcolumn =>
      rw [hkept, hdelta', hdelta, hcolumn, hrev, placeOf_wraps (shouldReflow_iff.mp hshould).2.2]
      rfl
  | @stayed last last' row' above n hrev hshould hp hleft hkept hdelta' hcolumn =>
      have hlast : last'.inner ≠ [] := hp.filled_ne_nil (shouldReflow_iff.mp hshould).1
      have hwraps : wraps (last'.modifyLast (setWrapline true)).inner = true :=
        congrArg Piece.wraps (Row.piece_modifyLast true hlast)
      have hlen := hp.len_filled
      rw [hkept, hdelta', hdelta, hrev, placeOf_wraps (shouldReflow_iff.mp hshould).2.2]
      refine (placeOf_wraps hwraps _ _).trans ?_
      rw [Row.len_modifyLast, hlen, Nat.min_eq_left (Nat.le_of_lt hleft), Nat.add_assoc, hcolumn]
  | stuck hrev hshould hp hline hbefore hkept hdelta' =>
      exact absurd ⟨hline, _, _, _, _, _, hrev, hshould, hp, hbefore⟩ hstuck

/-! ### Filling the rows -/

theorem piece_new (columns : Nat) : (Row.new columns).piece.wraps = false ∧
    ∀ cell ∈ (Row.new columns).piece.cells, cell.isEmpty = true :=
  ⟨wraps_of_isEmpty (isEmpty_replicate columns), isEmpty_map_unwrapped (isEmpty_replicate columns)⟩

theorem piece_grow_of_lt (h : row.len < columns) : (row.grow columns).piece =
    ⟨row.inner.map Cell.unwrapped ++ (List.replicate (columns - row.len) default).map Cell.unwrapped,
      false⟩ := by
  have hne : List.replicate (columns - row.len) (default : Cell) ≠ [] := by
    rw [List.ne_nil_iff_length_pos, List.length_replicate]
    exact Nat.sub_pos_of_lt h
  rw [Row.grow, if_neg (Nat.not_le_of_lt h), Row.piece, pieceOf_append _ hne,
    wraps_of_isEmpty (isEmpty_replicate _)]

/-- Blanks behind a row say nothing, unless the line went on. -/
theorem feed_grow (hfull : wraps row.inner = true → row.len = columns) (s : Reading Cell) :
    feed Cell.isEmpty s (row.grow columns).piece = feed Cell.isEmpty s row.piece := by
  by_cases hlt : row.len < columns
  · have hw : wraps row.inner = false :=
      Bool.eq_false_iff.mpr fun h => absurd (hfull h) (Nat.ne_of_lt hlt)
    rw [piece_grow_of_lt hlt,
      Flow.feed_append_blank s _ (isEmpty_map_unwrapped (isEmpty_replicate (columns - row.len)))]
    rw [Row.piece, pieceOf, hw]
  · rw [Row.grow, if_pos (Nat.le_of_not_lt hlt)]

/-- Behind the last row, even if it wraps. -/
theorem close_feed_grow (hpos : 0 < row.len) (s : Reading Cell) :
    Flow.close Cell.isEmpty (feed Cell.isEmpty s (row.grow columns).piece) =
      Flow.close Cell.isEmpty (feed Cell.isEmpty s row.piece) := by
  by_cases hlt : row.len < columns
  · have hne : row.inner.map Cell.unwrapped ≠ [] := by
      rw [ne_eq, List.map_eq_nil_iff]
      exact List.ne_nil_of_length_pos hpos
    rw [piece_grow_of_lt hlt,
      Flow.feed_append_blank s _ (isEmpty_map_unwrapped (isEmpty_replicate (columns - row.len))), Row.piece,
      pieceOf, Flow.close_feed s hne, Flow.close_feed s hne]
  · rw [Row.grow, if_pos (Nat.le_of_not_lt hlt)]

theorem readRows_grow (h : ∀ r ∈ reversed, wraps r.inner = true → r.len = columns) :
    readRows (reversed.map (Row.grow · columns)).reverse = readRows reversed.reverse := by
  induction reversed with
  | nil => rfl
  | cons row rest ih =>
      rw [List.forall_mem_cons] at h
      rw [List.map_cons, readRows_cons_reverse, readRows_cons_reverse, ih h.2, feed_grow h.1]

/-- Rows of the new width, and blank rows below them, say what the rows said. -/
theorem Reflowed.logicalLines_grow (h : Reflowed columns reversed) (k : Nat) :
    logicalLines ((reversed.map (Row.grow · columns)).reverse ++ List.replicate k (Row.new columns)) =
      logicalLines reversed.reverse := by
  obtain ⟨hw, hblank⟩ := piece_new columns
  have hclose : Flow.close Cell.isEmpty (readRows (reversed.map (Row.grow · columns)).reverse) =
      Flow.close Cell.isEmpty (readRows reversed.reverse) := by
    cases reversed with
    | nil => rfl
    | cons row rest =>
        have hrest : readRows (rest.map (Row.grow · columns)).reverse = readRows rest.reverse :=
          readRows_grow h.full
        rw [List.map_cons, readRows_cons_reverse, readRows_cons_reverse, hrest]
        exact close_feed_grow (h.len_pos row List.mem_cons_self) _
  rw [logicalLines, List.map_append, List.map_replicate, Flow.text_append_blank hw hblank]
  exact congrArg (List.rdropWhile List.isEmpty) hclose

end Velacritty
