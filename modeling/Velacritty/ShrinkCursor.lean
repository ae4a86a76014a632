import Velacritty.ShrinkText
import Velacritty.StorageLines

/-! Shrinking keeps the cursor on its text. -/
namespace Velacritty
open Fallible
open Flow (Piece Reading feed trim)
variable {columns width i rest q : Nat} {p : Nat × Nat} {g : Grid Cell} {row row' kept : Row Cell}
  {st st' : ShrinkState Cell} {A : Prop}

/-- The content of a row ends in a wrap flag after `len` cells. The cursor is right behind
it and no cell is left over, or it is in the cells left over or behind them, and they join
the next row. -/
def Torn (columns i len column : Nat) : Prop :=
  columns ≤ len ∧ (len % columns = 0 ∧ column = len ∨
    len % columns ≠ 0 ∧ 1 ≤ i ∧ columns * (len / columns) ≤ column)

theorem Torn.add {len column : Nat} (h : Torn columns i len column) (hc : 1 ≤ columns) :
    Torn columns i (columns + len) (columns + column) := by
  unfold Torn at h ⊢
  rw [Nat.add_mod_left, Nat.add_div_left len hc, Nat.mul_succ]
  omega

/-- The cursor's row was pushed, and `q` rows after it; `rest` rows are still to come. On
the top line the cursor no longer follows. -/
structure LeftBehind (columns : Nat) (p : Nat × Nat) (rest q : Nat) (st : ShrinkState Cell) : Prop where
  row : ∃ kept above, st.newRaw.drop q = kept :: above ∧
    placeOf above.reverse st.grid.cursor.point.column = p ∧
    (st.grid.cursor.point.column < columns ∨
      st.grid.cursor.point.column = columns ∧ wraps kept.inner = false)
  below : st.grid.below = min ((q : Int) + rest) (st.grid.lines - 1)

/-- Where the cursor is in the inner loop of row `i`: ahead (and `A` is known of the rows
to come), on the row under way, or on a row that was pushed. -/
inductive Tracked (columns i : Nat) (p : Nat × Nat) (g : Grid Cell) (A : Prop) (target : Reading Cell)
    (row : Row Cell) (st : ShrinkState Cell) : Prop
  | ahead (ha : A) (hreading : ShrinkSays columns i target row st) (hline : st.grid.below < i)
      (hsame : st.grid.cursor.point = g.cursor.point ∧ st.grid.lines = g.lines)
  | here (hline : (i : Int) = st.grid.below)
      (hplace : placeOf st.newRaw.reverse st.grid.cursor.point.column = p)
      (htorn : ∀ k ∈ wrapEnd row.inner, ¬ Torn columns i k st.grid.cursor.point.column)
  | gone {q : Nat} (h : LeftBehind columns p (i + 1) q st) (hle : (i : Int) ≤ st.grid.below)
      (hlt : st.grid.cursor.point.column < columns ∨ (i : Int) < st.grid.below)

/-- After the inner loop of row `i`. -/
inductive Followed (columns i : Nat) (p : Nat × Nat) (g : Grid Cell) (A : Prop) (target : Reading Cell)
    (st : ShrinkState Cell) : Prop
  | ahead (ha : A) (hread : st.reading = target) (hline : st.grid.below < i)
      (hsame : st.grid.cursor.point = g.cursor.point ∧ st.grid.lines = g.lines)
  | gone {q : Nat} (h : LeftBehind columns p i q st) (hle : (i : Int) ≤ st.grid.below)

theorem LeftBehind.push (h : LeftBehind columns p (rest + 1) q st) (r : Row Cell)
    (hraw : st'.newRaw = r :: st.newRaw) (hgrid : st'.grid = st.grid) :
    LeftBehind columns p rest (q + 1) st' := by
  obtain ⟨hrow, hbelow⟩ := h
  refine ⟨?_, ?_⟩
  · rw [hraw, hgrid]
    exact hrow
  · rw [hgrid, hbelow]
    push_cast
    congr 1
    omega

namespace ShrinkLoop
variable {target : Reading Cell}

theorem below_bounds (h : ShrinkLoop columns width i row st) :
    0 ≤ st.grid.below ∧ st.grid.below ≤ st.grid.lines - 1 := by
  have hlo := h.line_nonneg
  have hhi := h.line_lt
  simp only [Grid.below]
  omega

theorem tracked_fits (h : ShrinkLoop columns width i row st) (hc : 1 ≤ columns)
    (ht : Tracked columns i p g A target row st) (hkept : kept.inner = row.inner.take columns)
    (hover : overflow columns row = [])
    (hcursor : ¬ ((i : Int) = st.grid.below ∧ columns < st.grid.cursor.point.column)) :
    Followed columns i p g A target { st with newRaw := kept :: st.newRaw } := by
  obtain ⟨hnonneg, hbelow⟩ := h.below_bounds
  cases ht with
  | ahead ha hreading hline hsame =>
      exact .ahead ha ((hreading.fits h hc hkept hover).reads (by omega)) hline hsame
  | here hline hplace htorn =>
      refine .gone (q := 0) ⟨⟨kept, st.newRaw, rfl, hplace, ?_⟩, ?_⟩ (Int.le_of_eq hline)
      · simp only
        rcases Nat.lt_trichotomy st.grid.cursor.point.column columns with hlt | heq | hgt
        · exact .inl hlt
        · refine .inr ⟨heq, Bool.eq_false_iff.mpr fun hw => ?_⟩
          rw [hkept] at hw
          exact htorn columns (wrapEnd_of_kept h.long hover hw) ⟨Nat.le_refl _, .inl ⟨Nat.mod_self _, heq⟩⟩
        · exact absurd ⟨hline, hgt⟩ hcursor
      · simp only
        omega
  | gone hleft hle hlt => exact .gone (hleft.push kept rfl rfl) hle

theorem tracked_joins (h : ShrinkLoop columns width i row st) (hc : 1 ≤ columns)
    (ht : Tracked columns i p g A target row st) (hkept : kept.inner = row.inner.take columns)
    (hover : overflow columns row ≠ []) (hwraps : wraps (overflow columns row) = true) (hnext : 1 ≤ i)
    (hshort : (overflow columns row).length < columns) :
    Followed columns i p g A target { st with
      newRaw := kept.modifyLast (setWrapline true) :: st.newRaw
      buffered := some (updateLast (setWrapline false) (overflow columns row)) } := by
  obtain ⟨-, hbelow⟩ := h.below_bounds
  cases ht with
  | ahead ha hreading hline hsame =>
      exact .ahead ha ((hreading.joins (h.kept_ne_nil hc hkept) hkept hover hwraps hnext).reads hnext) hline hsame
  | here hline hplace htorn =>
      have hpos := List.length_pos_of_ne_nil hover
      have hone : (columns + (overflow columns row).length) / columns = 1 :=
        Nat.div_eq_of_lt_le (by omega) (by omega)
      have hmod : (columns + (overflow columns row).length) % columns = (overflow columns row).length := by
        rw [Nat.add_mod_left, Nat.mod_eq_of_lt hshort]
      refine .gone (q := 0) ⟨⟨_, st.newRaw, rfl, hplace, .inl ?_⟩, ?_⟩ (Int.le_of_eq hline)
      · refine Nat.lt_of_not_le fun hle => htorn _ (wrapEnd_of_overflow hwraps).2 ⟨Nat.le_add_right _ _, .inr ?_⟩
        rw [hmod, hone, Nat.mul_one]
        exact ⟨Nat.ne_of_gt hpos, hnext, hle⟩
      · simp only
        omega
  | gone hleft hle hlt => exact .gone (hleft.push _ rfl rfl) hle

theorem tracked_goesOn {cbl offset : Nat} (h : ShrinkLoop columns width i row st) (hc : 1 ≤ columns)
    (ht : Tracked columns i p g A target row st) (hbelow : (cbl : Int) = st.grid.below)
    (hkept : kept.inner = row.inner.take columns)
    (hover : overflow columns row ≠ [] ∨
      (i : Int) = st.grid.below ∧ columns < st.grid.cursor.point.column)
    (hown : ¬ (wraps (overflow columns row) = true ∧ 1 ≤ i ∧ (overflow columns row).length < columns))
    (hrow' : row'.inner = overflow columns row ++
      List.replicate (columns - (overflow columns row).length) default) :
    Tracked columns i p g A target row' { st with
      grid := { st.grid with
        cursor.point.line :=
          if i = cbl ∧ st.grid.cursor.point.column < columns ∨ i < cbl then
            max (st.grid.cursor.point.line - 1) 0
          else st.grid.cursor.point.line
        cursor.point.column :=
          if i = cbl ∧ columns ≤ st.grid.cursor.point.column then
            st.grid.cursor.point.column - columns
          else st.grid.cursor.point.column
        displayOffset := offset }
      newRaw := kept.modifyLast (setWrapline true) :: st.newRaw } := by
  have hlo := h.line_nonneg
  have hhi := h.line_lt
  have hlen := h.len_kept hkept
  cases ht with
  | ahead ha hreading hline hsame =>
      have hi : ¬ (i = cbl ∧ st.grid.cursor.point.column < columns ∨ i < cbl) := by omega
      have hi' : ¬ (i = cbl ∧ columns ≤ st.grid.cursor.point.column) := by omega
      refine .ahead ha (hreading.goesOn (h.kept_ne_nil hc hkept) h.long hlo hbelow hkept hover hown hrow') ?_ ?_
      · simp only [Grid.below, if_neg hi] at hline ⊢
        exact hline
      · simp only [if_neg hi, if_neg hi']
        exact hsame
  | here hline hplace htorn =>
      by_cases hcol : columns ≤ st.grid.cursor.point.column
      · have hi : ¬ (i = cbl ∧ st.grid.cursor.point.column < columns ∨ i < cbl) := by omega
        have hi' : i = cbl ∧ columns ≤ st.grid.cursor.point.column := ⟨by omega, hcol⟩
        have hwraps : wraps (kept.modifyLast (setWrapline true)).inner = true := by
          have hne : kept.inner ≠ [] := List.ne_nil_of_length_pos (by unfold Row.len at hlen; omega)
          exact congrArg Piece.wraps (Row.piece_modifyLast true hne)
        refine .here ?_ ?_ fun k hk htorn' => ?_
        · simp only [Grid.below, if_neg hi] at hline ⊢
          exact hline
        · simp only [if_pos hi']
          rw [placeOf_wraps hwraps, Row.len_modifyLast, hlen, Nat.add_sub_cancel' hcol]
          exact hplace
        · obtain ⟨hwraps', rfl⟩ := mem_wrapEnd_rest hrow' hk
          simp only [if_pos hi'] at htorn'
          have hwhole := htorn'.add hc
          rw [Nat.add_sub_cancel' hcol] at hwhole
          exact htorn _ (wrapEnd_of_overflow hwraps').2 hwhole
      · have hi : i = cbl ∧ st.grid.cursor.point.column < columns ∨ i < cbl := by omega
        have hi' : ¬ (i = cbl ∧ columns ≤ st.grid.cursor.point.column) := by omega
        have hcol' := Nat.lt_of_not_le hcol
        refine .gone (q := 0) ⟨⟨_, st.newRaw, rfl, ?_, .inl ?_⟩, ?_⟩ ?_ (.inl ?_)
        · simp only [if_neg hi']
          exact hplace
        · simp only [if_neg hi']
          exact hcol'
        · simp only [Grid.below, if_pos hi] at hline ⊢
          omega
        · simp only [Grid.below, if_pos hi] at hline ⊢
          omega
        · simp only [if_neg hi']
          exact hcol'
  | @gone q hleft hle hlt =>
      have hi : i = cbl ∧ st.grid.cursor.point.column < columns ∨ i < cbl := by omega
      have hi' : ¬ (i = cbl ∧ columns ≤ st.grid.cursor.point.column) := by omega
      obtain ⟨hrow, hbelow'⟩ := hleft
      refine .gone (q := q + 1) ⟨?_, ?_⟩ ?_ ?_
      · simp only [if_neg hi', List.drop_succ_cons]
        exact hrow
      · simp only [Grid.below, if_pos hi] at hbelow' ⊢
        push_cast at hbelow' ⊢
        omega
      · simp only [Grid.below, if_pos hi] at hle ⊢
        omega
      · simp only [if_neg hi', Grid.below, if_pos hi] at hlt ⊢
        omega

/-- One round keeps track of the cursor. -/
theorem track (h : ShrinkLoop columns width i row st) (hc : 1 ≤ columns)
    (ht : Tracked columns i p g A target row st) :
    Allows (shrinkStep true columns i (row, st))
      (Sum.elim (Followed columns i p g A target) fun s => Tracked columns i p g A target s.1 s.2) := by
  refine (shrinkStep_cases h.narrow h.line_nonneg h.line_lt).mono fun r hr => ?_
  cases hr with
  | fits hkept hover hcursor => exact h.tracked_fits hc ht hkept hover hcursor
  | joins hkept hover hwraps hnext hshort => exact h.tracked_joins hc ht hkept hover hwraps hnext hshort
  | goesOn hbelow hkept hover hown hrow' => exact h.tracked_goesOn hc ht hbelow hkept hover hown hrow'

end ShrinkLoop

/-! ### All rows -/

inductive AheadIn (columns : Nat) (p : Nat × Nat) (g : Grid Cell) (rows : List (Row Cell))
    (said : Reading Cell) : Prop
  | intro {above below : List (Row Cell)} {row : Row Cell} {s : Reading Cell}
      (hrows : rows = above ++ row :: below) (hline : (below.length : Int) = g.below)
      (hclean : EachRow (fun n row => row.ShrinksClean columns n) said above)
      (hsaid : (above.map Row.piece).foldl (feed Cell.isEmpty) said = s)
      (hplace : (s.lines.length, s.pending.length + g.cursor.point.column) = p)
      (htorn : ∀ k ∈ wrapEnd row.inner, ¬ Torn columns below.length
        (s.pending.length % columns + k) (s.pending.length % columns + g.cursor.point.column))

inductive Following (columns : Nat) (p : Nat × Nat) (g : Grid Cell) (rows : List (Row Cell))
    (st : ShrinkState Cell) : Prop
  | ahead (ha : AheadIn columns p g rows st.reading)
      (hsame : st.grid.cursor.point = g.cursor.point ∧ st.grid.lines = g.lines)
  | gone {q : Nat} (h : LeftBehind columns p rows.length q st) (hle : (rows.length : Int) ≤ st.grid.below)

theorem below_of_same {a : Grid Cell} (h : a.cursor.point = g.cursor.point ∧ a.lines = g.lines) :
    a.below = g.below := by
  rw [Grid.below, Grid.below, h.1, h.2]

/-- The cursor on the way into the loop. -/
theorem Following.prepend {rest : List (Row Cell)} {s : Row Cell × ShrinkState Cell}
    (hf : Following columns p g (row :: rest) st) (h : ShrinkReady columns width (rest.length + 1) st)
    (hs : Prepended rest.length row st s) (hc : 1 ≤ columns) (hrow : row.Shaped width)
    (hle : columns ≤ width) :
    Tracked columns rest.length p g (AheadIn columns p g (row :: rest) st.reading)
      (feed Cell.isEmpty st.reading
        ⟨row.inner.map Cell.unwrapped, wraps row.inner && decide (1 ≤ rest.length)⟩) s.1 s.2 := by
  have hreading := hs.reads h hc hrow hle
  have hbuffered := h.length_buffered
  obtain ⟨row', st'⟩ := s
  obtain ⟨hraw, -, hinner, hgrid⟩ := hs
  simp only at hraw hinner hgrid hreading ⊢
  obtain ⟨hlines, hpending, hmod⟩ := h.pending_mod
  generalize (st.buffered.map List.length).getD 0 = left at *
  have hbelow : st'.grid.below = st.grid.below := by
    rw [hgrid]
    rfl
  cases hf with
  | ahead ha hsame =>
      have hstbelow := below_of_same hsame
      obtain @⟨above, below, row₀, s, hrows, hline, hclean, hsaid, hplace, htorn⟩ := id ha
      cases above with
      | nil =>
          obtain ⟨rfl, rfl⟩ := List.cons.inj hrows
          obtain rfl := hsaid
          rw [List.map_nil, List.foldl_nil] at hplace htorn
          rw [if_pos (by omega), hsame.1] at hgrid
          have hcol : st'.grid.cursor.point.column = left + g.cursor.point.column := by
            rw [hgrid, Nat.add_comm]
          refine .here (hline.trans (hstbelow.symm.trans hbelow.symm)) ?_ fun k hk htorn' => ?_
          · rw [hraw, hcol, placeOf, ← Nat.add_assoc, ← hpending, ← hlines]
            exact hplace
          · rw [hinner] at hk
            rw [hcol] at htorn'
            rcases mem_wrapEnd_append hk with hle' | ⟨k', hk', rfl⟩
            · have hlt := Nat.mod_lt st.reading.pending.length (show columns > 0 by omega)
              have hlong := htorn'.1
              omega
            · rw [hbuffered, ← hmod] at htorn'
              exact htorn k' hk' htorn'
      | cons first above =>
          obtain ⟨rfl, hrest⟩ := List.cons.inj hrows
          have hlength : rest.length = (above ++ row₀ :: below).length := congrArg List.length hrest
          rw [List.length_append, List.length_cons] at hlength
          rw [if_neg (by omega)] at hgrid
          refine .ahead ha (hreading hclean.1) (show st'.grid.below < rest.length by omega) ?_
          rw [hgrid]
          exact hsame
  | @gone q hleft hle =>
      rw [List.length_cons] at hleft hle
      rw [if_neg (by omega)] at hgrid
      have hsame : st'.grid = st.grid := hgrid
      have hlt : (rest.length : Int) < st'.grid.below := by omega
      refine .gone (q := q) ⟨?_, ?_⟩ (Int.le_of_lt hlt) (.inr hlt)
      · rw [hraw, hsame]
        exact hleft.row
      · rw [hsame]
        exact hleft.below

theorem shrinkRow_follows {target : Reading Cell} (h : ShrinkLoop columns width i row st)
    (ht : Tracked columns i p g A target row st) (hc : 1 ≤ columns) :
    Allows (shrinkRow true columns i row st) fun s =>
      ShrinkReady columns width i s ∧ Followed columns i p g A target s := by
  refine loop_allows (P := fun s : Row Cell × ShrinkState Cell =>
    ShrinkLoop columns width i s.1 s.2 ∧ Tracked columns i p g A target s.1 s.2) ⟨h, ht⟩ fun s hs r hr => ?_
  have hshape := hs.1.step r hr
  have hfollow := hs.1.track hc hs.2 r hr
  cases r with
  | inl s' => exact ⟨hshape, hfollow⟩
  | inr s' => exact ⟨hshape, hfollow⟩

/-- The next rows find the cursor where the last one left it. -/
theorem Followed.next {rest : List (Row Cell)} {said : Reading Cell}
    (hs : Followed columns rest.length p g (AheadIn columns p g (row :: rest) said)
      (feed Cell.isEmpty said ⟨row.inner.map Cell.unwrapped, wraps row.inner && decide (1 ≤ rest.length)⟩)
      st) : Following columns p g rest st := by
  cases hs with
  | ahead ha hread hline hsame =>
      refine .ahead ?_ hsame
      rw [below_of_same hsame] at hline
      obtain @⟨above, below, row₀, s, hrows, hbelow, hclean, hsaid, hplace, htorn⟩ := ha
      cases above with
      | nil =>
          obtain ⟨-, rfl⟩ := List.cons.inj hrows
          omega
      | cons first above =>
          obtain ⟨rfl, hrest⟩ := List.cons.inj hrows
          rw [decide_eq_true (show 1 ≤ rest.length by omega), Bool.and_true] at hread
          rw [hread]
          exact ⟨hrest, hbelow, hclean.2, hsaid, hplace, htorn⟩
  | gone hleft hle => exact .gone hleft hle

/-- The cursor's row ends up with a known number of rows below it. -/
theorem shrinkRows_follows {rows : List (Row Cell)} (hne : rows ≠ [])
    (h : ShrinkReady columns width rows.length st) (hf : Following columns p g rows st)
    (hrows : ∀ r ∈ rows, r.Shaped width) (hc : 1 ≤ columns) (hle : columns ≤ width) :
    Allows (shrinkRows true columns rows st) fun st' => (∃ q, LeftBehind columns p 0 q st') ∧
      ∀ r ∈ st'.newRaw, r.len = columns := by
  induction rows generalizing st with
  | nil => exact absurd rfl hne
  | cons row rest ih =>
      rw [List.forall_mem_cons] at hrows
      obtain ⟨hrow, hrest⟩ := hrows
      unfold shrinkRows
      refine h.prepended.bind fun s hs => ?_
      refine (shrinkRow_follows (hs.shape h hrow hle) (hf.prepend h hs hc hrow hle) hc).bind fun u hu => ?_
      obtain ⟨hready, hfollow⟩ := hu
      cases rest with
      | nil =>
          refine .pure ?_
          have hlt := hready.line_lt
          cases hfollow with
          | ahead _ _ hline _ =>
              simp only [Grid.below, List.length_nil] at hline
              omega
          | gone hleft _ => exact ⟨⟨_, hleft⟩, hready.rows⟩
      | cons next rest => exact ih (List.cons_ne_nil _ _) hready hfollow.next hrest

/-! ### The grid -/

namespace Grid

/-- The content of the cursor's row ends in a wrap flag, and the cursor is in the cells that
join the next row, or behind all of them if they fill rows of their own. -/
def TearsCursor (g : Grid Cell) (columns : Nat) : Prop :=
  ∃ row ∈ g.cursorRow, ∃ k ∈ wrapEnd row.inner, Torn columns g.below.toNat
    (g.pendingAbove % columns + k) (g.pendingAbove % columns + g.cursor.pastColumn)

/-- No wrap flag inside of a row above the cursor's is left over by a shrunk row. -/
def ShrinksClean (g : Grid Cell) (columns : Nat) : Prop :=
  EachRow (fun n row => row.ShrinksClean columns n) (readRows []) g.rowsAbove

theorem WF.following (hg : g.WF) (hclean : g.ShrinksClean columns) (hslip : ¬ g.TearsCursor columns)
    (raw : Storage Cell) :
    Following columns g.cursorPlace (({ g with columns }.unwrapCursor true)) g.textRows
      ⟨{ ({ g with columns }.unwrapCursor true) with raw }, [], none⟩ := by
  obtain ⟨row, below, hrow, hbelow, hrows⟩ := hg.cursorRow
  have hunwrap := (hg.unwrapCursor columns true).1
  have hline : (Grid.unwrapCursor { g with columns } true).cursor.point.line = g.cursor.point.line := by
    unfold Grid.unwrapCursor
    split <;> rfl
  have hcolumn := unwrapCursor_pastColumn { g with columns }
  refine .ahead (.intro hrows ?_ hclean rfl ?_ fun k hk htorn => hslip ⟨row, hrow, k, hk, ?_⟩) ⟨rfl, rfl⟩
  · rw [hbelow, Grid.below, Grid.below, hline, hunwrap.lines]
  · rw [hcolumn]
    rfl
  · rw [hcolumn] at htorn
    have hcount : below.length = g.below.toNat := by omega
    rw [← hcount]
    exact htorn

/-- A cursor that fits is left where it is, and one behind the last column needs to wrap. -/
theorem settleCursor_keeps {row : Row Cell} (hc : 1 ≤ columns) (hcolumns : g.columns = columns)
    (hraw : g.raw.Filled) (hvis : g.raw.visibleLines = g.lines)
    (hlo : 0 ≤ g.cursor.point.line) (hhi : g.cursor.point.line < g.lines)
    (hneeds : g.cursor.inputNeedsWrap = false) (hq : (q : Int) = g.below)
    (hrow : g.raw.rows[q]? = some row) (hlen : row.len = columns)
    (hfits : g.cursor.point.column < columns ∨
      g.cursor.point.column = columns ∧ wraps row.inner = false) :
    Allows (g.settleCursor true columns) fun g' => ∃ cursor, g' = { g with cursor } ∧
      cursor.point.line = g.cursor.point.line ∧ cursor.pastColumn = g.cursor.point.column := by
  intro g' hg'
  simp only [settleCursor, usub_of_le hc, Option.bind_eq_bind, Option.bind_some, Bool.true_eq_false,
    if_false, Option.bind_eq_some_iff] at hg'
  obtain ⟨pending, hpending, hg'⟩ := hg'
  rcases hfits with hlt | ⟨heq, hwraps⟩
  · rw [if_neg (Nat.ne_of_lt hlt)] at hpending
    obtain rfl := Option.some.inj hpending
    have hclamp : g.cursor.point.gridClamp g.dims .cursor = g.cursor.point := by
      rw [Point.gridClamp_of_screen hlo hhi]
      simp only [Dimensions.lastColumn, dims, hcolumns]
      rw [Nat.min_eq_left (Nat.le_sub_one_of_lt hlt)]
    simp only [Bool.false_eq_true, if_false, hclamp] at hg'
    obtain rfl := Option.some.inj hg'
    refine ⟨_, rfl, rfl, ?_⟩
    simp only [Cursor.pastColumn, hneeds, Bool.false_eq_true, if_false, Nat.add_zero]
  · have hget : g.raw.get g.cursor.point.line = some row := by
      have hle := hraw.visible_le
      have hline : g.raw.HasLine g.cursor.point.line := by
        rw [Storage.HasLine, hvis]
        omega
      have hposition : g.raw.position g.cursor.point.line = q := by
        simp only [Storage.position, hvis, Grid.below] at hq ⊢
        omega
      rw [hraw.get_eq hline, hposition, hrow]
    rw [if_pos heq, cellAt, hget] at hpending
    simp only [Option.bind_eq_bind, Option.bind_some, Option.bind_eq_some_iff, Option.some.injEq] at hpending
    obtain ⟨cell, hcell, rfl⟩ := hpending
    have hflag : (GridCell.flags cell).wrapline = false := by
      rw [Row.get, ← hlen, Row.len, ← List.getLast?_eq_getElem?] at hcell
      rw [wraps, hcell] at hwraps
      exact hwraps
    simp only [hflag, Bool.not_false, if_true] at hg'
    obtain rfl := Option.some.inj hg'
    refine ⟨_, rfl, rfl, ?_⟩
    simp only [Cursor.pastColumn, if_true]
    omega

namespace Shrunk
variable {settled g' : Grid Cell}

/-- What the loop keeps of the grid, and where it leaves the cursor's row. -/
structure Follows (g : Grid Cell) (columns q : Nat) (st : ShrinkState Cell) : Prop where
  left : LeftBehind columns g.cursorPlace 0 q st
  rows : ∀ r ∈ st.newRaw, r.len = columns
  line_nonneg : 0 ≤ st.grid.cursor.point.line
  line_lt : st.grid.cursor.point.line < st.grid.lines
  needsWrap : st.grid.cursor.inputNeedsWrap = false
  columns_eq : st.grid.columns = columns
  visible : st.grid.raw.visibleLines = st.grid.lines
  lines_pos : 1 ≤ st.grid.lines
  lines_le : st.grid.lines ≤ st.newRaw.length

theorem follows (h : Shrunk g columns st settled g') (hg : g.WF) (hn : g.Narrow) (hc : 1 ≤ columns)
    (hle : columns ≤ g.columns) (hclean : g.ShrinksClean columns) (hslip : ¬ g.TearsCursor columns) :
    ∃ q, Follows g columns q st := by
  obtain ⟨raw, -, hvis, hst⟩ := h.rows
  obtain ⟨⟨q, hleft⟩, hrows⟩ := shrinkRows_follows hg.textRows_ne_nil (hg.shrinkReady columns raw)
    (hg.following hclean hslip raw) (hn.rows hg) hc hle st hst
  obtain ⟨hunwrap, -⟩ := hg.unwrapCursor columns true
  have hstart : ShrinkState.WF { g with columns, raw } columns 0
      ⟨{ ({ g with columns }.unwrapCursor true) with raw }, [], none⟩ :=
    ⟨hunwrap.withRaw, fun r hr => absurd hr List.not_mem_nil, Nat.le_refl _⟩
  have hwf : ∀ r ∈ g.textRows, r.WF g.columns := fun r hr' =>
    hg.raw.rows r (List.mem_rotate.mp (List.mem_of_mem_take (List.mem_reverse.mp hr')))
  obtain ⟨hgrid, -, hcount⟩ := (shrinkRows_returns hc hle hwf hstart).2 st hst
  have hlines : st.grid.lines = g.lines := hgrid.lines
  have hbeside := shrinkRows_beside g.textRows st hst
  have hlength : g.textRows.length = g.raw.len := by
    rw [Grid.textRows, List.length_reverse, hg.raw.filled.length_rows]
  have hle' := hg.lines_le
  refine ⟨q, hleft, hrows, hgrid.line_nonneg, hgrid.line_lt, ?_, hgrid.columns, ?_, ?_, ?_⟩
  · exact hbeside.needsWrap.trans (unwrapCursor_needsWrap { g with columns })
  · rw [hgrid.raw, hlines]
    exact hvis.trans hg.visible
  · rw [hlines]
    exact hg.lines_pos
  · rw [hlines]
    omega

/-- Text above the screen is before its first row. -/
theorem offScreen (h : Shrunk g columns st settled g') {q : Nat} (hf : Follows g columns q st)
    (hq : st.grid.lines ≤ q) : ¬ g'.OnScreen (dropped st) g.cursorPlace := by
  obtain ⟨⟨kept, above, hdrop, hplace, hfits⟩, -⟩ := hf.left
  have hlines := hf.lines_le
  have hscreen : dropped st ++ g'.textRows.take g'.historySize =
      above.reverse ++ kept :: ((st.newRaw.drop st.grid.lines).take (q - st.grid.lines)).reverse := by
    have hhistory : g'.historySize =
        (st.newRaw.take (st.grid.maxScrollLimit + st.grid.lines)).length - st.grid.lines := by
      obtain ⟨cursor, savedCursor, hgrid⟩ := h.grid
      rw [hgrid]
      rfl
    have hcut : (st.newRaw.take (st.grid.maxScrollLimit + st.grid.lines)).drop st.grid.lines ++
        st.newRaw.drop (st.grid.maxScrollLimit + st.grid.lines) = st.newRaw.drop st.grid.lines := by
      conv_rhs => rw [← List.take_append_drop (st.grid.maxScrollLimit + st.grid.lines) st.newRaw]
      rw [List.drop_append_of_le_length]
      rw [List.length_take]
      omega
    have hrest : (st.newRaw.drop st.grid.lines).drop (q - st.grid.lines) = kept :: above := by
      rw [List.drop_drop, Nat.add_sub_cancel' hq]
      exact hdrop
    rw [Grid.textRows, h.rows_eq, hhistory, List.take_reverse, Nat.sub_sub_self, dropped,
      ← List.reverse_append, hcut]
    · conv_lhs => rw [← List.take_append_drop (q - st.grid.lines) (st.newRaw.drop st.grid.lines), hrest]
      rw [List.reverse_append, List.reverse_cons, List.append_assoc, List.singleton_append]
    · rw [List.length_take]
      omega
  have hlen : kept.len = columns := by
    refine hf.rows kept (List.mem_of_mem_drop (i := q) ?_)
    rw [hdrop]
    exact List.mem_cons_self
  have hbefore : st.grid.cursor.point.column < kept.len ∨ wraps kept.inner = false := by
    rw [hlen]
    exact hfits.imp id And.right
  have hlt := placeOf_lt hbefore above.reverse
    ((st.newRaw.drop st.grid.lines).take (q - st.grid.lines)).reverse
  rw [hplace, ← hscreen] at hlt
  unfold OnScreen
  simp only
  omega

theorem place (h : Shrunk g columns st settled g') (hg : g.WF) (hn : g.Narrow) (hc : 1 ≤ columns)
    (hle : columns ≤ g.columns) (hclean : g.ShrinksClean columns) (hslip : ¬ g.TearsCursor columns)
    (hg' : g'.WF)
    (hscreen : g'.OnScreen (dropped st) g.cursorPlace) :
    placeOf (dropped st ++ g'.rowsAbove) g'.cursor.pastColumn = g.cursorPlace := by
  obtain ⟨q, hf⟩ := h.follows hg hn hc hle hclean hslip
  have hq : q < st.grid.lines := Nat.lt_of_not_le fun hq => h.offScreen hf hq hscreen
  obtain ⟨⟨kept, above, hdrop, hplace, hfits⟩, hbelow⟩ := hf.left
  have hlines := hf.lines_le
  have hqbelow : (q : Int) = st.grid.below := by
    rw [hbelow]
    omega
  have hkept : st.newRaw[q]? = some kept := by
    rw [← List.head?_drop, hdrop]
    rfl
  have hfilled : (st.grid.raw.replaceInner (st.newRaw.take (st.grid.maxScrollLimit + st.grid.lines))).Filled ∧
      (st.grid.raw.replaceInner (st.newRaw.take (st.grid.maxScrollLimit + st.grid.lines))).rows =
        st.newRaw.take (st.grid.maxScrollLimit + st.grid.lines) :=
    Storage.replaceInner_filled (hf.visible.symm ▸ hf.lines_pos)
      (by rw [hf.visible, List.length_take]; omega)
  have hlen : kept.len = columns := hf.rows kept (List.mem_of_getElem? hkept)
  obtain ⟨cursor, hsettled, hline, hpast⟩ := settleCursor_keeps
    (g := st.grid.adoptRows (st.newRaw.take (st.grid.maxScrollLimit + st.grid.lines))) hc
    hf.columns_eq hfilled.1 hf.visible hf.line_nonneg hf.line_lt hf.needsWrap hqbelow
    (by
      rw [show (st.grid.adoptRows _).raw.rows = _ from hfilled.2, List.getElem?_take_of_lt (by omega)]
      exact hkept) hlen hfits settled h.settle
  obtain ⟨savedCursor, hresult⟩ := h.result
  have hcursor : g'.cursor = cursor := by rw [hresult, hsettled]
  have hlines' : g'.lines = st.grid.lines := by
    rw [hresult, hsettled]
    rfl
  obtain ⟨n, hn, -, habove⟩ := hg'.rowsAbove
  have hnq : n = q := by
    simp only [Grid.below, hcursor, hline, hlines'] at hn hqbelow
    simp only [adoptRows] at hn
    omega
  have hrows : dropped st ++ g'.rowsAbove = above.reverse := by
    rw [habove, h.rows_eq, hnq, dropped, ← List.reverse_append,
      ← List.drop_append_of_le_length (by rw [List.length_take]; omega), List.take_append_drop,
      ← List.drop_drop, hdrop]
    rfl
  rw [hrows, hcursor, hpast]
  exact hplace

end Shrunk

end Grid
end Velacritty
