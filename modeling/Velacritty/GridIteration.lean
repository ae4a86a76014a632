import Velacritty.GridCells
import Velacritty.GridResizeSound
import Velacritty.Iterators
import Velacritty.PointArith

/-! The cells that an iterator over the grid yields, and how many there are left. -/
namespace Velacritty
open Fallible

namespace Dimensions
variable {d : Dimensions} {p q : Point} {i n m : Nat}

/-- Where an iterator is that has passed a number of cells: before the first cell, on a cell, or
behind the last column of a line. -/
inductive Placed (d : Dimensions) : Point → Nat → Prop
  | first : Placed d ⟨d.topmostLine - 1, d.lastColumn⟩ 0
  | cell {i : Nat} (lt : i < d.cells) : Placed d (d.point i) (i + 1)
  | behind {i : Nat} (lt : i < d.cells) (last : (d.point i).column = d.lastColumn) :
      Placed d ⟨(d.point i).line, d.columns⟩ (i + 1)

theorem placed_of_line (h : d.Valid) (htop : d.topmostLine ≤ p.line)
    (hbottom : p.line ≤ d.bottommostLine) (hcolumn : p.column ≤ d.columns) : ∃ n, d.Placed p n := by
  rcases Nat.lt_or_eq_of_le hcolumn with hlt | heq
  · have hp : d.Has p := ⟨htop, hbottom, hlt⟩
    have hplaced := Placed.cell (index_lt h hp)
    rw [point_index hp] at hplaced
    exact ⟨_, hplaced⟩
  · have hlast : d.Has ⟨p.line, d.lastColumn⟩ := ⟨htop, hbottom, Nat.sub_lt h.columns_pos Nat.one_pos⟩
    have hpoint := point_index hlast
    have hplaced : d.Placed ⟨(d.point (d.index ⟨p.line, d.lastColumn⟩)).line, d.columns⟩ _ :=
      .behind (index_lt h hlast) (congrArg Point.column hpoint)
    rw [hpoint, ← heq] at hplaced
    exact ⟨_, hplaced⟩

theorem Placed.le_iff (hp : d.Placed p n) (h : d.Valid) (hi : i < d.cells) : d.point i ≤ p ↔ i < n := by
  cases hp with
  | first =>
      refine iff_of_false (fun hle => ?_) (Nat.not_lt_zero i)
      have htop := (point_has h hi).1
      rw [Point.le_def] at hle
      simp only at hle
      omega
  | cell hj => rw [point_le_iff h hi hj, Nat.lt_succ_iff]
  | behind hj hlast =>
      rw [Nat.lt_succ_iff, ← point_le_iff h hi hj, Point.le_def, Point.le_def, hlast]
      have hcolumn := (point_has h hi).2.2
      unfold lastColumn
      simp only
      omega

/-- The next cell is the one with the number of the cells that were passed. -/
theorem Placed.next (hp : d.Placed p n) (h : d.Valid) :
    (if d.lastColumn ≤ p.column then ⟨p.line + 1, 0⟩ else { p with column := p.column + 1 } : Point) =
      d.point n := by
  cases hp with
  | first =>
      rw [if_pos (Nat.le_refl _), point_zero, Point.eq_iff]
      exact ⟨Int.sub_add_cancel _ _, rfl⟩
  | cell hi => exact (point_succ h _).symm
  | behind hi hlast =>
      have hle : d.lastColumn ≤ d.columns := Nat.sub_le _ _
      rw [if_pos hle, point_succ h, if_pos (Nat.le_of_eq hlast.symm)]

/-- The number of the cells that were passed, by whole lines from the one above the topmost. -/
theorem Placed.count (hp : d.Placed p n) (h : d.Valid) : d.topmostLine - 1 ≤ p.line ∧
    n + d.columns = (p.line - (d.topmostLine - 1)).toNat * d.columns + min (p.column + 1) d.columns := by
  have hpos := h.columns_pos
  have hline {i : Nat} (hi : i < d.cells) : d.topmostLine - 1 ≤ (d.point i).line ∧
      i + d.columns =
        ((d.point i).line - (d.topmostLine - 1)).toNat * d.columns + (d.point i).column := by
    obtain ⟨htop, -, -⟩ := point_has h hi
    have hlines : ((d.point i).line - (d.topmostLine - 1)).toNat =
        ((d.point i).line - d.topmostLine).toNat + 1 := by omega
    have hindex := index_point d i
    unfold index at hindex
    rw [hlines, Nat.succ_mul]
    exact ⟨by omega, by omega⟩
  cases hp with
  | first =>
      have hzero : (d.topmostLine - 1 - (d.topmostLine - 1)).toNat = 0 := by omega
      rw [hzero, Nat.zero_mul]
      unfold lastColumn
      exact ⟨Int.le_refl _, by simp only; omega⟩
  | cell hi =>
      obtain ⟨hle, hcount⟩ := hline hi
      have hcolumn := (point_has h hi).2.2
      exact ⟨hle, by omega⟩
  | behind hi hlast =>
      obtain ⟨hle, hcount⟩ := hline hi
      rw [hlast] at hcount
      unfold lastColumn at hcount
      exact ⟨hle, by simp only; omega⟩

end Dimensions

namespace GridIterator
variable {T : Type} {it it' : GridIterator T}

/-- The steps of an iterator. -/
inductive Op where
  | next
  | prev
  deriving DecidableEq, Repr

def step (it : GridIterator T) : Op → Option (GridIterator T)
  | .next => it.next.map Prod.snd
  | .prev => it.prev.map Prod.snd

/-- The items are the cells behind the iterator, up to its end, in reading order. -/
def Remaining (it : GridIterator T) (items : List (Point × T)) : Prop :=
  items.Pairwise (fun x y => x.1 < y.1) ∧ ∀ q cell, (q, cell) ∈ items ↔
    it.point < q ∧ q ≤ it.stop ∧ it.grid.dims.Has q ∧ it.grid.cellAt q = some cell

/-- The iterator yields the cells that are left, and says how many. -/
def Exact (it : GridIterator T) : Prop :=
  ∃ items last, Iterates next it items last ∧ it.Remaining (items.map Prod.snd) ∧
    it.sizeHint = some (items.length, some items.length)

/-- Steps go to cells of the grid only. -/
def Inside (it : GridIterator T) : Prop :=
  (Returns it.next fun r => ∀ item, r.1 = some item → it.grid.dims.Has item.1) ∧
    Returns it.prev fun r => ∀ item, r.1 = some item → it.grid.dims.Has item.1

/-- A step back takes a step back that was taken from a cell. -/
def Reversible (it : GridIterator T) : Prop :=
  it.grid.dims.Has it.point → ∀ item it', it.next = some (some item, it') →
    ∃ cell, it.grid.cellAt it.point = some cell ∧ it'.prev = some (some (it.point, cell), it)

end GridIterator

namespace Grid
variable {T : Type} {g : Grid T} {p stop : Point} {i n m : Nat}

theorem WF.valid (h : g.WF) : g.dims.Valid where
  columns_pos := h.columns_pos
  lines_pos := h.lines_pos
  lines_le := h.lines_le

theorem cellAt_isSome (h : g.WF) (hi : i < g.dims.cells) :
    ∃ cell, g.cellAt (g.dims.point i) = some cell := by
  obtain ⟨hlo, hhi, hc⟩ := Dimensions.point_has h.valid hi
  obtain ⟨cell, hcell, -⟩ := cellAt_returns h hlo (Int.lt_of_le_sub_one hhi) hc
  exact ⟨cell, hcell⟩

/-! ### Steps -/

/-- A step goes to the next cell, until the end. -/
theorem next_eq (h : g.WF) (hp : g.dims.Placed p n) (hm : m < g.dims.cells) :
    (⟨g, p, g.dims.point m⟩ : GridIterator T).next =
      if n ≤ m then (g.cellAt (g.dims.point n)).map fun cell =>
        (some (g.dims.point n, cell), ⟨g, g.dims.point n, g.dims.point m⟩)
      else some (none, ⟨g, p, g.dims.point m⟩) := by
  have hend := hp.le_iff h.valid hm
  unfold GridIterator.next
  simp only [hend]
  by_cases hle : n ≤ m
  · rw [if_neg (Nat.not_lt.mpr hle), if_pos hle, hp.next h.valid]
    exact (Option.map_eq_bind ..).symm
  · rw [if_pos (Nat.not_le.mp hle), if_neg hle]

/-- A step back from a cell goes to the one before, until the first one. -/
theorem prev_cell (h : g.WF) (hi : i < g.dims.cells) :
    (⟨g, g.dims.point i, stop⟩ : GridIterator T).prev =
      if 0 < i then (g.cellAt (g.dims.point (i - 1))).map fun cell =>
        (some (g.dims.point (i - 1), cell), ⟨g, g.dims.point (i - 1), stop⟩)
      else some (none, ⟨g, g.dims.point i, stop⟩) := by
  have hfirst : g.dims.point i ≤ ⟨g.dims.topmostLine, 0⟩ ↔ i ≤ 0 := by
    rw [← Dimensions.point_zero, Dimensions.point_le_iff h.valid hi h.valid.cells_pos]
  unfold GridIterator.prev
  simp only [hfirst]
  by_cases hprev : 0 < i
  · have hpred := Dimensions.point_pred h.valid (i - 1)
    rw [Nat.sub_add_cancel hprev] at hpred
    rw [if_neg (by omega), if_pos hprev, ← hpred]
    exact (Option.map_eq_bind ..).symm
  · rw [if_pos (by omega), if_neg hprev]

/-- A step back from behind a line goes to its last cell. -/
theorem prev_behind (h : g.WF) (hlast : (g.dims.point i).column = g.dims.lastColumn) :
    (⟨g, ⟨(g.dims.point i).line, g.columns⟩, stop⟩ : GridIterator T).prev =
      (g.cellAt (g.dims.point i)).map fun cell =>
        (some (g.dims.point i, cell), ⟨g, g.dims.point i, stop⟩) := by
  have hpos := h.columns_pos
  have hcolumn : g.columns - 1 = (g.dims.point i).column := hlast.symm
  have hbelow : ¬ (⟨(g.dims.point i).line, g.columns⟩ : Point) ≤ ⟨g.dims.topmostLine, 0⟩ := by
    have htop : g.dims.topmostLine ≤ (g.dims.point i).line := Int.le_add_of_nonneg_right (Int.natCast_nonneg _)
    rw [Point.le_def]
    simp only
    omega
  have hne : ¬ g.columns = 0 := by omega
  unfold GridIterator.prev
  rw [if_neg hbelow]
  simp only [if_neg hne, hcolumn]
  exact (Option.map_eq_bind ..).symm

theorem prev_first : (⟨g, ⟨g.dims.topmostLine - 1, g.dims.lastColumn⟩, stop⟩ : GridIterator T).prev =
    some (none, ⟨g, ⟨g.dims.topmostLine - 1, g.dims.lastColumn⟩, stop⟩) :=
  if_pos (.inl (Int.sub_one_lt_of_le (Int.le_refl _)))

/-- What a step of an iterator does: it stays, or it goes to a cell of the grid. -/
def Moves (g : Grid T) (it : GridIterator T) (r : Option (Point × T) × GridIterator T) : Prop :=
  r = (none, it) ∨ ∃ i < g.dims.cells, ∃ cell, g.cellAt (g.dims.point i) = some cell ∧
    r = (some (g.dims.point i, cell), { it with point := g.dims.point i })

theorem moves_to (h : g.WF) (hi : i < g.dims.cells) :
    Returns ((g.cellAt (g.dims.point i)).map fun cell =>
      (some (g.dims.point i, cell), (⟨g, g.dims.point i, stop⟩ : GridIterator T)))
      (g.Moves ⟨g, p, stop⟩) := by
  obtain ⟨cell, hcell⟩ := cellAt_isSome h hi
  rw [hcell]
  exact .pure (.inr ⟨i, hi, cell, hcell, rfl⟩)

theorem next_moves (h : g.WF) (hp : g.dims.Placed p n) (hm : m < g.dims.cells) :
    Returns (GridIterator.next ⟨g, p, g.dims.point m⟩) (g.Moves ⟨g, p, g.dims.point m⟩) := by
  rw [next_eq h hp hm]
  split
  · next hle => exact moves_to h (Nat.lt_of_le_of_lt hle hm)
  · exact .pure (.inl rfl)

theorem prev_moves (h : g.WF) (hp : g.dims.Placed p n) :
    Returns (GridIterator.prev ⟨g, p, stop⟩) (g.Moves ⟨g, p, stop⟩) := by
  cases hp with
  | first =>
      rw [prev_first]
      exact .pure (.inl rfl)
  | @cell i hi =>
      rw [prev_cell h hi]
      split
      · exact moves_to h (Nat.lt_of_le_of_lt (Nat.sub_le i 1) hi)
      · exact .pure (.inl rfl)
  | behind hi hlast =>
      rw [show g.dims.columns = g.columns from rfl, prev_behind h hlast]
      exact moves_to h hi

/-! ### The remaining cells -/

/-- The remaining cells are counted in three parts. -/
theorem sizeHint_eq (h : g.WF) (hp : g.dims.Placed p n) (hm : m < g.dims.cells)
    (hlast : (g.dims.point m).column = g.dims.lastColumn) :
    (⟨g, p, g.dims.point m⟩ : GridIterator T).sizeHint = some (m + 1 - n, some (m + 1 - n)) := by
  have hpos := h.columns_pos
  have hend := hp.le_iff h.valid hm
  obtain ⟨hline, hcount⟩ := hp.count h.valid
  obtain ⟨hline', hcount'⟩ := (Dimensions.Placed.cell hm).count h.valid
  have hcolumn : g.dims.lastColumn = g.columns - 1 := rfl
  have hcolumns : g.dims.columns = g.columns := rfl
  unfold GridIterator.sizeHint
  simp only [hend]
  by_cases hlt : m < n
  · rw [if_pos hlt, Nat.sub_eq_zero_of_le hlt]
  · rw [if_neg hlt]
    have hbefore : p < g.dims.point m := Point.not_le.mp (mt hend.mp hlt)
    rw [Point.lt_def, hlast] at hbefore
    rw [hlast] at hcount' ⊢
    rw [hcolumns] at hcount hcount'
    have hboth {size : Nat} (hsize : size = m + 1 - n) :
        some (size, some size) = some (m + 1 - n, some (m + 1 - n)) := by rw [hsize]
    split
    · next hsame =>
        rw [hsame] at hcount
        rw [usub_of_le (by omega)]
        exact hboth (by omega)
    · next hdiff =>
        obtain ⟨k, hk⟩ : ∃ k : Nat, (g.dims.point m).line - p.line = (k + 1 : Nat) :=
          ⟨((g.dims.point m).line - p.line - 1).toNat, by omega⟩
        have hlines : ((g.dims.point m).line - (g.dims.topmostLine - 1)).toNat =
            (p.line - (g.dims.topmostLine - 1)).toNat + (k + 1) := by omega
        rw [hlines, Nat.add_mul, Nat.succ_mul] at hcount'
        rw [hk, toUsize_of_nonneg (Int.natCast_nonneg _), Int.toNat_natCast]
        simp only [Option.bind_eq_bind, Option.bind_some, usub_of_le (Nat.le_add_left 1 k),
          Nat.add_sub_cancel]
        exact hboth (by omega)

theorem remaining_nil {it : GridIterator T} (hend : it.stop ≤ it.point) : it.Remaining [] := by
  refine ⟨.nil, fun q cell => iff_of_false (fun hq => nomatch hq) ?_⟩
  rintro ⟨hbehind, hstop, -⟩
  exact Point.not_lt.mpr (Point.le_trans hstop hend) hbehind

/-- The next cell, and the ones behind it. -/
theorem remaining_cons (h : g.WF) (hp : g.dims.Placed p n) (hm : m < g.dims.cells) (hle : n ≤ m)
    {cell : T} (hcell : g.cellAt (g.dims.point n) = some cell) {items : List (Point × T)}
    (hitems : GridIterator.Remaining ⟨g, g.dims.point n, g.dims.point m⟩ items) :
    GridIterator.Remaining ⟨g, p, g.dims.point m⟩ ((g.dims.point n, cell) :: items) := by
  obtain ⟨hpairs, hmem⟩ := hitems
  have hn : n < g.dims.cells := Nat.lt_of_le_of_lt hle hm
  have hstep : p < g.dims.point n := Point.not_le.mp fun hnot =>
    Nat.lt_irrefl n ((hp.le_iff h.valid hn).mp hnot)
  refine ⟨List.pairwise_cons.mpr ⟨fun x hx => ((hmem x.1 x.2).mp hx).1, hpairs⟩, fun q c => ?_⟩
  rw [List.mem_cons, hmem, Prod.mk.injEq]
  constructor
  · rintro (⟨rfl, rfl⟩ | ⟨hbehind, hrest⟩)
    · exact ⟨hstep, (Dimensions.point_le_iff h.valid hn hm).mpr hle, Dimensions.point_has h.valid hn, hcell⟩
    · exact ⟨Point.lt_trans hstep hbehind, hrest⟩
  · rintro ⟨hbehind, hstop, hq, hc⟩
    have hj := Dimensions.index_lt h.valid hq
    have hqj := Dimensions.point_index hq
    have hnj : n ≤ g.dims.index q := by
      rw [← hqj] at hbehind
      exact Nat.not_lt.mp fun hlt => Point.not_lt.mpr ((hp.le_iff h.valid hj).mpr hlt) hbehind
    rcases Nat.eq_or_lt_of_le hnj with heq | hlt
    · rw [heq, hqj] at hcell
      rw [heq, hqj]
      exact .inl ⟨rfl, Option.some.inj (hc.symm.trans hcell)⟩
    · refine .inr ⟨?_, hstop, hq, hc⟩
      have hlt := (Dimensions.point_lt_iff h.valid hn hj).mpr hlt
      rwa [hqj] at hlt

theorem iterates_remaining (h : g.WF) (hp : g.dims.Placed p n) (hm : m < g.dims.cells) :
    ∃ items last, Iterates GridIterator.next ⟨g, p, g.dims.point m⟩ items last ∧
      GridIterator.Remaining ⟨g, p, g.dims.point m⟩ (items.map Prod.snd) ∧ items.length = m + 1 - n := by
  have hnext := next_eq h hp hm
  induction hleft : m + 1 - n generalizing p n with
  | zero =>
      have hlt : m < n := by omega
      rw [if_neg (Nat.not_le.mpr hlt)] at hnext
      exact ⟨[], _, .stop hnext, remaining_nil ((hp.le_iff h.valid hm).mpr hlt), rfl⟩
  | succ left ih =>
      have hle : n ≤ m := by omega
      have hplaced : g.dims.Placed (g.dims.point n) (n + 1) := .cell (Nat.lt_of_le_of_lt hle hm)
      obtain ⟨cell, hcell⟩ := cellAt_isSome h (Nat.lt_of_le_of_lt hle hm)
      rw [if_pos hle, hcell] at hnext
      obtain ⟨items, last, hrun, hitems, hlength⟩ := ih hplaced (next_eq h hplaced hm) (by omega)
      exact ⟨_ :: items, last, .yield hnext hrun, remaining_cons h hp hm hle hcell hitems,
        congrArg Nat.succ hlength⟩

/-! ### Runs of an iterator -/

/-- An iterator of the grid, which ends at the end of a line. -/
inductive Iterating (g : Grid T) : GridIterator T → Prop
  | mk {p : Point} {n m : Nat} (placed : g.dims.Placed p n) (lt : m < g.dims.cells)
      (last : (g.dims.point m).column = g.dims.lastColumn) : Iterating g ⟨g, p, g.dims.point m⟩

/-- The iterators over the visible cells, and from any place of a line, also behind its cells. -/
inductive Starts (g : Grid T) : GridIterator T → Prop
  | display (bounded : g.OffsetBounded) : Starts g g.displayIter
  | line {p : Point} (top : g.dims.topmostLine ≤ p.line) (bottom : p.line ≤ g.dims.bottommostLine)
      (column : p.column ≤ g.columns) : Starts g (g.iterFrom p)

theorem iterating_of_stop (h : g.WF) (hp : g.dims.Placed p n) {line : Int}
    (htop : g.dims.topmostLine ≤ line) (hbottom : line ≤ g.dims.bottommostLine) :
    g.Iterating ⟨g, p, ⟨line, g.dims.lastColumn⟩⟩ := by
  have hstop : g.dims.Has ⟨line, g.dims.lastColumn⟩ :=
    ⟨htop, hbottom, Nat.sub_lt h.columns_pos Nat.one_pos⟩
  have hpoint := Dimensions.point_index hstop
  rw [← hpoint]
  exact .mk hp (Dimensions.index_lt h.valid hstop) (congrArg Point.column hpoint)

theorem Starts.iterating {it : GridIterator T} (hit : g.Starts it) (h : g.WF) : g.Iterating it := by
  have hbottom := Dimensions.bottommost_has h.valid
  cases hit with
  | display hbounded =>
      have hhistory : g.displayOffset ≤ g.dims.historySize := hbounded
      have htop : g.dims.topmostLine = -(g.dims.historySize : Int) := rfl
      have hlast : g.dims.bottommostLine = (g.lines : Int) - 1 := rfl
      have hlines := h.lines_pos
      obtain ⟨n, hp⟩ : ∃ n, g.dims.Placed ⟨-(g.displayOffset : Int) - 1, g.dims.lastColumn⟩ n := by
        rcases Nat.lt_or_eq_of_le hhistory with hlt | heq
        · exact Dimensions.placed_of_line h.valid (by simp only; omega) (by simp only; omega) (Nat.sub_le _ _)
        · rw [heq, ← htop]
          exact ⟨0, .first⟩
      have hstop : g.dims.topmostLine ≤ -(g.displayOffset : Int) - 1 + g.lines := by omega
      exact iterating_of_stop h hp (Int.le_min.mpr ⟨hstop, hbottom.1⟩) (Int.min_le_right _ _)
  | line htop hbottom' hcolumn =>
      obtain ⟨n, hp⟩ := Dimensions.placed_of_line h.valid htop hbottom' hcolumn
      exact iterating_of_stop h hp hbottom.1 (Int.le_refl _)

theorem Moves.iterating {it : GridIterator T} {r : Option (Point × T) × GridIterator T}
    (hr : g.Moves it r) (hit : g.Iterating it) : g.Iterating r.2 := by
  rcases hr with rfl | ⟨i, hi, cell, -, rfl⟩
  · exact hit
  · cases hit with
    | mk _ hm hlast => exact .mk (.cell hi) hm hlast

theorem step_iterating (h : g.WF) {it it' : GridIterator T} (hit : g.Iterating it)
    (op : GridIterator.Op) (hstep : it.step op = some it') : g.Iterating it' := by
  cases hit with
  | mk hp hm hlast =>
      cases op with
      | next =>
          obtain ⟨r, hr, rfl⟩ := Option.map_eq_some_iff.mp hstep
          exact ((next_moves h hp hm).of_eq hr).iterating (.mk hp hm hlast)
      | prev =>
          obtain ⟨r, hr, rfl⟩ := Option.map_eq_some_iff.mp hstep
          exact ((prev_moves h hp).of_eq hr).iterating (.mk hp hm hlast)

theorem Iterating.exact {it : GridIterator T} (hit : g.Iterating it) (h : g.WF) : it.Exact := by
  cases hit with
  | mk hp hm hlast =>
      obtain ⟨items, last, hrun, hitems, hlength⟩ := iterates_remaining h hp hm
      refine ⟨items, last, hrun, hitems, ?_⟩
      rw [sizeHint_eq h hp hm hlast, hlength]

theorem Moves.has {it : GridIterator T} {r : Option (Point × T) × GridIterator T}
    (hr : g.Moves it r) (h : g.WF) {item : Point × T} (hitem : r.1 = some item) :
    g.dims.Has item.1 := by
  rcases hr with rfl | ⟨i, hi, cell, -, rfl⟩
  · cases hitem
  · obtain rfl := Option.some.inj hitem
    exact Dimensions.point_has h.valid hi

theorem Iterating.inside {it : GridIterator T} (hit : g.Iterating it) (h : g.WF) : it.Inside := by
  cases hit with
  | mk hp hm hlast =>
      exact ⟨(next_moves h hp hm).mono fun r hr item hitem => hr.has h hitem,
        (prev_moves h hp).mono fun r hr item hitem => hr.has h hitem⟩

theorem Iterating.reversible {it : GridIterator T} (hit : g.Iterating it) (h : g.WF) :
    it.Reversible := by
  cases hit with
  | mk hp hm hlast =>
      intro hhas item it' hnext
      obtain ⟨i, hi, rfl⟩ : ∃ i < g.dims.cells, _ = g.dims.point i :=
        ⟨_, Dimensions.index_lt h.valid hhas, (Dimensions.point_index hhas).symm⟩
      rw [next_eq h (.cell hi) hm] at hnext
      split at hnext
      · next hle =>
          obtain ⟨cell, hcell⟩ := cellAt_isSome h hi
          obtain ⟨cell', -, hmoved⟩ := Option.map_eq_some_iff.mp hnext
          obtain ⟨-, rfl⟩ := Prod.mk.inj hmoved
          refine ⟨cell, hcell, ?_⟩
          rw [prev_cell h (Nat.lt_of_le_of_lt hle hm), if_pos (Nat.succ_pos i), Nat.add_sub_cancel, hcell]
          rfl
      · cases hnext

/-- An iterator that starts behind the end has nothing to yield. -/
theorem exact_of_stop_le {it : GridIterator T} (hend : it.stop ≤ it.point) : it.Exact :=
  ⟨[], it, .stop (if_pos hend), remaining_nil hend, if_pos hend⟩

/-- Every iterator that is reached by steps back and forth yields the cells up to its end and says
how many, stays inside of the grid, and takes its steps back. -/
theorem iteration_exact (h : g.WF) :
    (∀ start it, g.Starts start → Reaches GridIterator.step (fun _ _ => True) start it →
      it.Exact ∧ it.Inside ∧ it.Reversible) ∧
    ∀ p, ⟨g.dims.bottommostLine, g.dims.lastColumn⟩ ≤ p → (g.iterFrom p).Exact := by
  refine ⟨fun start it hstart hrun => ?_, fun p hp => exact_of_stop_le hp⟩
  have hit : g.Iterating it := hrun.invariant (hstart.iterating h) fun _ op _ hs _ hstep =>
    step_iterating h hs op hstep
  exact ⟨hit.exact h, hit.inside h, hit.reversible h⟩

/-- Behind the first line of two, the cells of the second one are left, after a step one less. -/
theorem iteration_exact_behind : ∃ it : GridIterator Cell,
    Reaches GridIterator.step (fun _ _ => True) ((new 2 2 0).iterFrom ⟨0, 2⟩) it ∧
      it.point = ⟨1, 0⟩ ∧ it.sizeHint = some (1, some 1) ∧ it.Exact := by
  have hstart : (new 2 2 0 : Grid Cell).Starts ((new 2 2 0).iterFrom ⟨0, 2⟩) :=
    .line (by decide) (by decide) (by decide)
  have hrun : Reaches GridIterator.step (fun _ _ => True) ((new 2 2 0 : Grid Cell).iterFrom ⟨0, 2⟩) _ :=
    .step .refl (a := .next) trivial rfl
  exact ⟨_, hrun, rfl, rfl, ((iteration_exact (new_wf (by decide) (by decide) 0)).1 _ _ hstart hrun).1⟩

end Grid
end Velacritty
