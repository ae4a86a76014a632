import Velacritty.SelectionRange
import Velacritty.ViMotions
import Velacritty.TermSteps

/-! Which cells a simple selection contains. -/
namespace Velacritty
open Fallible

/-- The half of a cell that an anchor is on, with two columns for each cell. -/
def Anchor.half (a : Anchor) : Point :=
  ⟨a.point.line, 2 * a.point.column + if a.side = .right then 1 else 0⟩

/-- The column left of an anchor, counting the cell of an anchor on a right half as left of it. -/
def Anchor.edge (a : Anchor) : Nat := a.point.column + if a.side = .right then 1 else 0

namespace Point

def leftHalf (p : Point) : Point := ⟨p.line, 2 * p.column⟩

def rightHalf (p : Point) : Point := ⟨p.line, 2 * p.column + 1⟩

end Point

namespace Selection
variable {s : Selection} {t : Term} {p q : Point}

/-- Both halves of the cell are between the anchors. -/
def CoversCell (s : Selection) (p : Point) : Prop :=
  s.start.half ≤ p.leftHalf ∧ p.rightHalf ≤ s.stop.half ∨
    s.stop.half ≤ p.leftHalf ∧ p.rightHalf ≤ s.start.half

instance (s : Selection) (p : Point) : Decidable (s.CoversCell p) :=
  inferInstanceAs (Decidable (_ ∨ _))

def RangeExact (t : Term) (s : Selection) : Option SelectionRange → Prop
  | some r => t.InGrid r.start ∧ t.InGrid r.stop ∧ r.start ≤ r.stop ∧
      ∀ p, t.InGrid p → (r.contains p = true ↔ s.CoversCell p)
  | none => ∀ p, t.InGrid p → ¬ s.CoversCell p

/-- The selection covers cells of the grid, and an anchor that is moved into the grid is on the
half that is still between the anchors, unless a single cell is left. -/
structure Anchored (t : Term) (s : Selection) : Prop where
  covers : ∃ p, t.InGrid p ∧ s.CoversCell p
  above : s.upper.point.line < t.topmostLine → s.upper.side = .left ∨
    s.lower.point = ⟨t.topmostLine, 0⟩ ∨ s.lower.point = ⟨t.topmostLine, 1⟩ ∧ s.lower.side = .left
  wide : t.topmostLine ≤ s.upper.point.line → t.columns ≤ s.upper.point.column → s.upper.side = .right
  below : t.bottommostLine < s.lower.point.line ∨ t.columns ≤ s.lower.point.column →
    s.lower.side = .right ∨ s.upper.point = s.lower.point.gridClamp t.dims .grid

theorem half_le_iff {a : Anchor} : a.half ≤ p.leftHalf ↔
    a.point.line < p.line ∨ a.point.line = p.line ∧ a.edge ≤ p.column := by
  simp only [Point.le_def, Anchor.half, Anchor.edge, Point.leftHalf]
  split
  · omega
  · omega

theorem half_le_of_le {a : Anchor} (h : a.half ≤ p.leftHalf) (hle : p ≤ q) : a.half ≤ q.leftHalf := by
  rw [half_le_iff] at h ⊢
  rw [Point.le_def] at hle
  omega

theorem rightHalf_le_iff {a : Anchor} : p.rightHalf ≤ a.half ↔
    p.line < a.point.line ∨ p.line = a.point.line ∧ p.column < a.edge := by
  simp only [Point.le_def, Anchor.half, Anchor.edge, Point.rightHalf]
  split
  · omega
  · omega

theorem not_lower_lt (s : Selection) : ¬ s.lower.point < s.upper.point := by
  unfold upper lower isReversed
  split
  · next h =>
      have hlt := Point.lt_def.mp (of_decide_eq_true h)
      rw [Point.lt_def]
      omega
  · next h => exact fun hlt => h (decide_eq_true hlt)

theorem coversCell_ordered : s.CoversCell p ↔
    s.upper.half ≤ p.leftHalf ∧ p.rightHalf ≤ s.lower.half ∨
      s.lower.half ≤ p.leftHalf ∧ p.rightHalf ≤ s.upper.half := by
  unfold upper lower CoversCell
  split
  · exact or_comm
  · rfl

/-- From one cell to a later one, the cells are those between the edges. -/
theorem coversCell_iff (hne : s.upper.point ≠ s.lower.point) : s.CoversCell p ↔
    (s.upper.point.line < p.line ∨ s.upper.point.line = p.line ∧ s.upper.edge ≤ p.column) ∧
      (p.line < s.lower.point.line ∨ p.line = s.lower.point.line ∧ p.column < s.lower.edge) := by
  have hle := s.not_lower_lt
  have hupper : s.upper.edge ≤ s.upper.point.column + 1 := by
    unfold Anchor.edge
    split <;> omega
  have hlower : s.lower.point.column ≤ s.lower.edge := Nat.le_add_right _ _
  rw [coversCell_ordered, half_le_iff, rightHalf_le_iff, half_le_iff, rightHalf_le_iff]
  rw [Point.lt_def] at hle
  rw [ne_eq, Point.eq_iff] at hne
  omega

/-- On one cell, that one is covered if the anchors are on its two halves. -/
theorem coversCell_same (heq : s.upper.point = s.lower.point) : s.CoversCell p ↔
    p = s.upper.point ∧ s.upper.side ≠ s.lower.side := by
  rw [coversCell_ordered, half_le_iff, rightHalf_le_iff, half_le_iff, rightHalf_le_iff, ← heq,
    Point.eq_iff]
  unfold Anchor.edge
  rw [← heq]
  cases s.upper.side with
  | left =>
      cases s.lower.side with
      | left =>
          simp only [reduceCtorEq, if_false, ne_eq, not_true_eq_false, and_false, iff_false]
          omega
      | right =>
          simp only [reduceCtorEq, if_false, if_true, ne_eq, not_false_eq_true, and_true]
          omega
  | right =>
      cases s.lower.side with
      | left =>
          simp only [reduceCtorEq, if_false, if_true, ne_eq, not_false_eq_true, and_true]
          omega
      | right =>
          simp only [if_true, ne_eq, not_true_eq_false, and_false, iff_false]
          omega

/-- Whether a simple selection is empty: both anchors are the same, or one on the left half
follows one on the right half in the same line. -/
theorem isEmpty_simple_iff (hty : s.ty = .simple) : s.isEmpty = true ↔ s.upper = s.lower ∨
    s.upper.side = .right ∧ s.lower.side = .left ∧
      s.upper.point.line = s.lower.point.line ∧ s.upper.point.column + 1 = s.lower.point.column := by
  unfold isEmpty upper lower
  rw [hty]
  simp only
  cases s.isReversed with
  | true => exact decide_eq_true_iff
  | false => exact decide_eq_true_iff

theorem not_coversCell_of_isEmpty (hty : s.ty = .simple) (hempty : s.isEmpty = true) :
    ¬ s.CoversCell p := by
  rcases (isEmpty_simple_iff hty).mp hempty with heq | ⟨hupper, hlower, hline, hcolumn⟩
  · rw [coversCell_same (congrArg Anchor.point heq), heq]
    exact fun h => h.2 rfl
  · have hne : s.upper.point ≠ s.lower.point := fun heq => by
      rw [heq] at hcolumn
      omega
    rw [coversCell_iff hne]
    unfold Anchor.edge
    rw [hupper, hlower]
    simp only [reduceCtorEq, if_false, if_true]
    omega

theorem gridClamp_cases (t : Term) (p : Point) :
    p.line < t.topmostLine ∧ p.gridClamp t.dims .grid = ⟨t.topmostLine, 0⟩ ∨
      t.topmostLine ≤ p.line ∧ t.bottommostLine < p.line ∧
        p.gridClamp t.dims .grid = ⟨t.bottommostLine, t.columns - 1⟩ ∨
      t.topmostLine ≤ p.line ∧ p.line ≤ t.bottommostLine ∧
        p.gridClamp t.dims .grid = ⟨p.line, min p.column (t.columns - 1)⟩ := by
  simp only [Point.gridClamp]
  split
  · next h => exact .inl ⟨h, rfl⟩
  · next h =>
      split
      · next h' => exact .inr (.inl ⟨Int.not_lt.mp h, h', rfl⟩)
      · next h' => exact .inr (.inr ⟨Int.not_lt.mp h, Int.not_lt.mp h', rfl⟩)

theorem simpleStop_cases (start stop : Anchor) (columns : Nat) :
    stop.side = .left ∧ start.point ≠ stop.point ∧
        (stop.point.column = 0 ∧ simpleStop start stop columns = ⟨stop.point.line - 1, columns - 1⟩ ∨
          0 < stop.point.column ∧
            simpleStop start stop columns = ⟨stop.point.line, stop.point.column - 1⟩) ∨
      (stop.side = .right ∨ start.point = stop.point) ∧ simpleStop start stop columns = stop.point := by
  unfold simpleStop
  split
  · next h =>
      refine .inl ⟨h.1, h.2, ?_⟩
      split
      · next hzero => exact .inl ⟨hzero, rfl⟩
      · next hpos => exact .inr ⟨Nat.pos_of_ne_zero hpos, rfl⟩
  · next h =>
      refine .inr ⟨?_, rfl⟩
      cases hside : stop.side with
      | left => exact .inr (by_contra fun hne => h ⟨hside, hne⟩)
      | right => exact .inl rfl

theorem simpleStart_cases (start : Anchor) (stop : Point) (columns : Nat) :
    start.side = .right ∧ start.point ≠ stop ∧
        (start.point.column + 1 = columns ∧ simpleStart start stop columns = ⟨start.point.line + 1, 0⟩ ∨
          start.point.column + 1 ≠ columns ∧
            simpleStart start stop columns = ⟨start.point.line, start.point.column + 1⟩) ∨
      (start.side = .left ∨ start.point = stop) ∧ simpleStart start stop columns = start.point := by
  unfold simpleStart
  split
  · next h =>
      refine .inl ⟨h.1, h.2, ?_⟩
      split
      · next hlast => exact .inl ⟨hlast, rfl⟩
      · next hlast => exact .inr ⟨hlast, rfl⟩
  · next h =>
      refine .inr ⟨?_, rfl⟩
      cases hside : start.side with
      | left => exact .inl rfl
      | right => exact .inr (by_contra fun hne => h ⟨hside, hne⟩)

theorem contains_iff {r : SelectionRange} (hb : r.isBlock = false) :
    r.contains p = true ↔ r.start ≤ p ∧ p ≤ r.stop := by
  unfold SelectionRange.contains
  rw [decide_eq_true_iff, hb, Point.le_def, Point.le_def]
  simp only [and_true]
  omega

/-- The anchors `U` and `L` of a selection whose lower end is in the grid or below, moved into the
grid at `A` and `B`, and the cells `r` and `q` that the range starts and ends with. -/
structure Ends (t : Term) (U L : Anchor) (A B q r : Point) : Prop where
  two_le : 2 ≤ t.columns
  top_le : t.topmostLine ≤ t.bottommostLine
  ordered : ¬ L.point < U.point
  lower : t.topmostLine ≤ L.point.line
  A_eq : A = U.point.gridClamp t.dims .grid
  B_eq : B = L.point.gridClamp t.dims .grid
  stop : q = simpleStop ⟨A, U.side⟩ ⟨B, L.side⟩ t.columns
  start : r = simpleStart ⟨A, U.side⟩ q t.columns

namespace Ends
variable {U L : Anchor} {A B r : Point}

theorem edge_of_left {a : Anchor} (h : a.side = .left) : a.edge = a.point.column := by
  rw [Anchor.edge, h]
  rfl

theorem edge_of_right {a : Anchor} (h : a.side = .right) : a.edge = a.point.column + 1 := by
  rw [Anchor.edge, h]
  rfl

theorem le_edge (a : Anchor) : a.point.column ≤ a.edge := Nat.le_add_right _ _

theorem edge_le (a : Anchor) : a.edge ≤ a.point.column + 1 := by
  unfold Anchor.edge
  split
  · omega
  · omega

theorem gridClamp_inGrid (h : t.InGrid p) : p.gridClamp t.dims .grid = p := by
  obtain ⟨htop, hbottom, hcolumn⟩ := h
  rcases gridClamp_cases t p with ⟨hlt, -⟩ | ⟨-, hlt, -⟩ | ⟨-, -, heq⟩
  · omega
  · omega
  · rw [heq, Point.eq_iff]
    exact ⟨rfl, Nat.min_eq_left (by omega)⟩

/-- A lower anchor on a left half outside of the grid is only kept on the cell it is moved to. -/
theorem right_or_eq (h : Ends t U L A B q r)
    (hbelow : t.bottommostLine < L.point.line ∨ t.columns ≤ L.point.column →
      L.side = .right ∨ U.point = B)
    (hout : t.bottommostLine < L.point.line ∨ t.columns ≤ L.point.column) :
    L.side = .right ∨ A = B := by
  refine (hbelow hout).imp_right fun heq => ?_
  have hB : t.InGrid B := by
    rw [h.B_eq]
    exact Term.inGrid_gridClamp (Nat.zero_lt_of_lt h.two_le) h.top_le L.point
  rw [h.A_eq, heq, gridClamp_inGrid hB]

/-- The cells before one that is not the first cell are those up to the cell on its left. -/
theorem lt_iff_le_before {B q : Point} (hB : t.InGrid B) (hfirst : B.column = 0 → t.topmostLine < B.line)
    (hq : B.column = 0 ∧ q = ⟨B.line - 1, t.columns - 1⟩ ∨ 0 < B.column ∧ q = ⟨B.line, B.column - 1⟩) :
    t.InGrid q ∧ ∀ p, t.InGrid p → (p < B ↔ p ≤ q) := by
  obtain ⟨htop, hbottom, hcolumn⟩ := hB
  rcases hq with ⟨hzero, rfl⟩ | ⟨hpos, rfl⟩
  · have hline := hfirst hzero
    refine ⟨⟨by simp only; omega, by simp only; omega, by simp only; omega⟩, fun p ⟨_, _, hp⟩ => ?_⟩
    rw [Point.lt_def, Point.le_def]
    simp only
    omega
  · refine ⟨⟨htop, hbottom, by simp only; omega⟩, fun p _ => ?_⟩
    rw [Point.lt_def, Point.le_def]
    simp only
    omega

/-- The cells behind a cell are those from the cell on its right. -/
theorem lt_iff_after_le {A r q : Point} (hA : t.InGrid A) (hq : t.InGrid q) (hlt : A < q)
    (hr : A.column + 1 = t.columns ∧ r = ⟨A.line + 1, 0⟩ ∨
      A.column + 1 ≠ t.columns ∧ r = ⟨A.line, A.column + 1⟩) :
    t.InGrid r ∧ ∀ p, t.InGrid p → (A < p ↔ r ≤ p) := by
  obtain ⟨htop, hbottom, hcolumn⟩ := hA
  obtain ⟨-, hqbottom, hqcolumn⟩ := hq
  rw [Point.lt_def] at hlt
  rcases hr with ⟨hlast, rfl⟩ | ⟨hlast, rfl⟩
  · refine ⟨⟨by simp only; omega, by simp only; omega, by simp only; omega⟩, fun p ⟨_, _, hp⟩ => ?_⟩
    rw [Point.lt_def, Point.le_def]
    simp only
    omega
  · refine ⟨⟨htop, hbottom, by simp only; omega⟩, fun p _ => ?_⟩
    rw [Point.lt_def, Point.le_def]
    simp only
    omega

/-- The range ends with the last cell before the lower anchor. -/
theorem le_stop_iff (h : Ends t U L A B q r)
    (hbelow : t.bottommostLine < L.point.line ∨ t.columns ≤ L.point.column →
      L.side = .right ∨ U.point = B)
    {p₀ : Point} (hp₀ : t.InGrid p₀) (hafter : U.half ≤ p₀.leftHalf) (hbefore : p₀.rightHalf ≤ L.half) :
    t.InGrid q ∧ ∀ p, t.InGrid p → (p.rightHalf ≤ L.half ↔ p ≤ q) := by
  have hmoved := h.right_or_eq hbelow
  obtain ⟨hC, htop, hord, hlower, hA, hB, hq, -⟩ := h
  rw [half_le_iff] at hafter
  rw [rightHalf_le_iff] at hbefore
  rw [Point.lt_def] at hord
  simp only [rightHalf_le_iff]
  simp only [Point.le_def]
  obtain ⟨h₁, h₂, h₃⟩ := hp₀
  have hl := le_edge L
  have hu := le_edge U
  have hcA := gridClamp_cases t U.point
  have hstop := simpleStop_cases ⟨A, U.side⟩ ⟨B, L.side⟩ t.columns
  rw [← hq] at hstop
  rw [← hA] at hcA
  rcases gridClamp_cases t L.point with ⟨hlt, -⟩ | ⟨-, hlt, heq⟩ | ⟨-, hle, heq⟩
  · omega
  · rw [← hB] at heq
    have hqB : q = B := by
      rcases hstop with ⟨hleft, hne', -⟩ | ⟨-, heq⟩
      · rcases hmoved (.inl hlt) with hright | hAB
        · exact nomatch hleft.symm.trans hright
        · exact absurd hAB hne'
      · exact heq
    rw [hqB, heq]
    refine ⟨⟨htop, Int.le_refl _, ?_⟩, fun p ⟨hp₁, hp₂, hp₃⟩ => ?_⟩
    · simp only
      omega
    · simp only
      omega
  · rw [← hB] at heq
    rcases hstop with ⟨hleft, hne', hcol⟩ | ⟨hright, hqB⟩
    · have hlt : L.point.column < t.columns := by
        refine Nat.not_le.mp fun hout => ?_
        rcases hmoved (.inr hout) with hright | hAB
        · exact nomatch hleft.symm.trans hright
        · exact hne' hAB
      rw [Nat.min_eq_left (by omega)] at heq
      have hedge := edge_of_left (a := L) hleft
      have hne' : A ≠ B := hne'
      rw [ne_eq, Point.eq_iff] at hne'
      have hBgrid : t.InGrid B := by
        rw [heq]
        exact ⟨hlower, hle, hlt⟩
      have hfirst (hzero : B.column = 0) : t.topmostLine < B.line := by
        rw [heq] at hne' hzero ⊢
        simp only at hne' hzero ⊢
        rcases hcA with ⟨habove, hA⟩ | ⟨-, hout, -⟩ | ⟨-, -, hA⟩
        · rw [hA] at hne'
          simp only at hne'
          omega
        · omega
        · rw [hA] at hne'
          simp only at hne'
          omega
      obtain ⟨hqgrid, hbefore_iff⟩ := lt_iff_le_before hBgrid hfirst hcol
      refine ⟨hqgrid, fun p hp => ?_⟩
      rw [← Point.le_def, ← hbefore_iff p hp, Point.lt_def, heq]
      simp only
      omega
    · have hqB : q = B := hqB
      rw [hqB]
      refine ⟨by rw [hB]; exact Term.inGrid_gridClamp (by omega) htop L.point, fun p ⟨hp₁, hp₂, hp₃⟩ => ?_⟩
      rw [heq]
      simp only
      rcases Nat.lt_or_ge L.point.column t.columns with hin | hout
      · rcases hright with hright | hAB
        · have hedge := edge_of_right (a := L) hright
          omega
        · -- then the upper anchor is moved as well, over cells that it does not cover
          have hAB : A = B := hAB
          rw [hAB, heq, Point.eq_iff, Point.eq_iff, Point.eq_iff] at hcA
          simp only at hcA
          have hedge := edge_le L
          omega
      · omega

/-- The range starts with the first cell after the upper anchor. -/
theorem start_le_iff (h : Ends t U L A B q r) (hin : t.InGrid q)
    (hq : ∀ p, t.InGrid p → (p.rightHalf ≤ L.half ↔ p ≤ q))
    (habove : U.point.line < t.topmostLine → U.side = .left ∨
      L.point = ⟨t.topmostLine, 0⟩ ∨ L.point = ⟨t.topmostLine, 1⟩ ∧ L.side = .left)
    (hwide : t.topmostLine ≤ U.point.line → t.columns ≤ U.point.column → U.side = .right)
    {p₀ : Point} (hp₀ : t.InGrid p₀) (hafter : U.half ≤ p₀.leftHalf) (hbefore : p₀.rightHalf ≤ L.half) :
    t.InGrid r ∧ r ≤ q ∧ ∀ p, t.InGrid p → p ≤ q → (U.half ≤ p.leftHalf ↔ r ≤ p) := by
  obtain ⟨hC, htop, hord, hlower, hA, -, -, hr⟩ := h
  have hle' := (hq p₀ hp₀).mp hbefore
  rw [half_le_iff] at hafter
  simp only [half_le_iff]
  simp only [Point.le_def] at hle' ⊢
  obtain ⟨h₁, h₂, h₃⟩ := hp₀
  obtain ⟨hq₁, hq₂, hq₃⟩ := hin
  have hstart := simpleStart_cases ⟨A, U.side⟩ q t.columns
  rw [← hr] at hstart
  have hu := le_edge U
  rcases gridClamp_cases t U.point with ⟨hlt, heq⟩ | ⟨-, hlt, heq⟩ | ⟨hge, hle, heq⟩
  · rw [← hA] at heq
    have hre : r = ⟨t.topmostLine, 0⟩ := by
      rcases hstart with ⟨hright, hne, -⟩ | ⟨-, hre⟩
      · have hlast := (hq q ⟨hq₁, hq₂, hq₃⟩).mpr (Point.le_refl q)
        rw [rightHalf_le_iff] at hlast
        have hne : A ≠ q := hne
        rw [heq, ne_eq, Point.eq_iff] at hne
        simp only at hne
        rcases habove hlt with hleft | hL | ⟨hL, hleft⟩
        · exact nomatch hleft.symm.trans hright
        · have hedge := edge_le L
          rw [hL] at hlast hedge
          simp only at hlast hedge
          omega
        · have hedge := edge_of_left hleft
          rw [hL] at hlast hedge
          simp only at hlast hedge
          omega
      · exact hre.trans heq
    rw [hre]
    refine ⟨⟨Int.le_refl _, htop, ?_⟩, ?_, fun p ⟨hp₁, hp₂, hp₃⟩ hpq => ?_⟩
    · simp only
      omega
    · simp only
      omega
    · simp only
      omega
  · omega
  · rw [← hA] at heq
    rcases hstart with ⟨hright, hne', hcol⟩ | ⟨hleft, hre⟩
    · have hedge := edge_of_right (a := U) hright
      have hAgrid : t.InGrid A := by
        rw [heq]
        exact ⟨hge, hle, by simp only; omega⟩
      have hAq : A < q := by
        have hne' : A ≠ q := hne'
        rw [ne_eq, Point.eq_iff, heq] at hne'
        rw [Point.lt_def, heq]
        simp only at hne' ⊢
        omega
      obtain ⟨hrgrid, hafter_iff⟩ := lt_iff_after_le hAgrid ⟨hq₁, hq₂, hq₃⟩ hAq hcol
      refine ⟨hrgrid, (hafter_iff q ⟨hq₁, hq₂, hq₃⟩).mp hAq, fun p hp hpq => ?_⟩
      rw [← Point.le_def, ← hafter_iff p hp, Point.lt_def, heq]
      obtain ⟨hp₁, hp₂, hp₃⟩ := hp
      simp only
      omega
    · have hre : r = A := hre
      rw [hre, heq]
      cases hside : U.side with
      | left =>
          have hedge := edge_of_left hside
          have hin : U.point.column < t.columns := by
            refine Nat.not_le.mp fun hout => ?_
            exact nomatch hside.symm.trans (hwide hge hout)
          rw [Nat.min_eq_left (by omega)]
          refine ⟨⟨hge, hle, hin⟩, ?_, fun p ⟨hp₁, hp₂, hp₃⟩ hpq => ?_⟩
          · simp only
            omega
          · simp only
            omega
      | right =>
          have hedge := edge_of_right hside
          have hAq : A = q := hleft.resolve_left fun hleft => nomatch hside.symm.trans hleft
          rw [← hAq, heq] at hle'
          simp only at hle'
          omega

/-- What an exact range says about an upper anchor above the grid. -/
theorem above_of_exact (h : Ends t U L A B q r)
    (hexact : ∀ p, t.InGrid p → (r ≤ p ∧ p ≤ q ↔ U.half ≤ p.leftHalf ∧ p.rightHalf ≤ L.half))
    (hlt : U.point.line < t.topmostLine) : U.side = .left ∨
      L.point = ⟨t.topmostLine, 0⟩ ∨ L.point = ⟨t.topmostLine, 1⟩ ∧ L.side = .left := by
  obtain ⟨hC, htop, hord, hlower, hA, -, -, hr⟩ := h
  have hstart := simpleStart_cases ⟨A, U.side⟩ q t.columns
  have hA : A = ⟨t.topmostLine, 0⟩ := by
    rcases gridClamp_cases t U.point with ⟨-, heq⟩ | ⟨hge, -, -⟩ | ⟨hge, -, -⟩
    · rw [hA, heq]
    · omega
    · omega
  rw [← hr, hA] at hstart
  have hfirst := hexact ⟨t.topmostLine, 0⟩ ⟨Int.le_refl _, htop, by simp only; omega⟩
  have hsecond := hexact ⟨t.topmostLine, 1⟩ ⟨Int.le_refl _, htop, by simp only; omega⟩
  rw [half_le_iff, rightHalf_le_iff] at hfirst hsecond
  simp only [Point.le_def] at hfirst hsecond
  simp only [Point.eq_iff] at hstart ⊢
  have hl := le_edge L
  cases hside : L.side with
  | left =>
      have hedge := edge_of_left hside
      simp only [and_true]
      rcases hstart with ⟨-, hne, hcol⟩ | ⟨hleft, hline, hcolumn⟩
      · omega
      · refine hleft.imp_right fun hq => ?_
        omega
  | right =>
      have hedge := edge_of_right hside
      rcases hstart with ⟨-, hne, hcol⟩ | ⟨hleft, hline, hcolumn⟩
      · omega
      · refine hleft.imp_right fun hq => ?_
        omega

/-- What an exact range says about a lower anchor outside of the grid. -/
theorem below_of_exact (h : Ends t U L A B q r)
    (hr : t.InGrid r) (hrq : r ≤ q)
    (hexact : ∀ p, t.InGrid p → (r ≤ p ∧ p ≤ q ↔ U.half ≤ p.leftHalf ∧ p.rightHalf ≤ L.half))
    (hout : t.bottommostLine < L.point.line ∨ t.columns ≤ L.point.column) :
    L.side = .right ∨ U.point = B := by
  obtain ⟨hC, htop, hord, hlower, hA, hB, hq, hr'⟩ := h
  cases hside : L.side with
  | right => exact .inl rfl
  | left =>
      refine .inr ?_
      have hstart := simpleStart_cases ⟨A, U.side⟩ q t.columns
      have hstop := simpleStop_cases ⟨A, U.side⟩ ⟨B, L.side⟩ t.columns
      rw [← hr'] at hstart
      rw [← hq, hside] at hstop
      have hcov := (hexact r hr).mp ⟨Point.le_refl _, hrq⟩
      have hlast := hexact B (by rw [hB]; exact Term.inGrid_gridClamp (by omega) htop L.point)
      rw [half_le_iff, rightHalf_le_iff] at hcov hlast
      have hLtop : t.topmostLine ≤ L.point.line := by
        rcases hcov.2 with hbelow | ⟨hline, -⟩
        · exact Int.le_trans hr.1 hbelow.le
        · exact Int.le_trans hr.1 hline.le
      have hlB : B.line < L.point.line ∨ B.line = L.point.line ∧ B.column < L.point.column := by
        rcases gridClamp_cases t L.point with ⟨hlt, -⟩ | ⟨-, hlt, heq⟩ | ⟨-, hle, heq⟩
        · exact absurd hLtop (Int.not_le.mpr hlt)
        · rw [hB, heq]
          exact .inl hlt
        · have hbeyond : t.columns ≤ L.point.column := hout.resolve_left (Int.not_lt.mpr hle)
          rw [hB, heq]
          refine .inr ⟨rfl, lt_of_le_of_lt (Nat.min_le_right _ _) ?_⟩
          exact Nat.lt_of_lt_of_le (Nat.sub_one_lt_of_lt hC) hbeyond
      have hcolumn : B.column = t.columns - 1 := by
        rcases gridClamp_cases t L.point with ⟨hlt, -⟩ | ⟨-, hlt, heq⟩ | ⟨-, hle, heq⟩
        · exact absurd hLtop (Int.not_le.mpr hlt)
        · rw [hB, heq]
        · have hbeyond : t.columns ≤ L.point.column := hout.resolve_left (Int.not_lt.mpr hle)
          rw [hB, heq]
          exact Nat.min_eq_right (Nat.le_trans (Nat.sub_le _ _) hbeyond)
      have hedge := edge_of_left hside
      have hu := le_edge U
      have huU := edge_le U
      have hqB : q.line < B.line ∨ q.line = B.line ∧ q.column ≤ B.column := by
        rcases hstop with ⟨-, -, ⟨-, hpred⟩ | ⟨-, hpred⟩⟩ | ⟨-, heq⟩
        · rw [hpred]
          exact .inl (Int.sub_lt_self _ (by decide))
        · rw [hpred]
          exact .inr ⟨rfl, Nat.sub_le _ _⟩
        · rw [heq]
          exact .inr ⟨rfl, Nat.le_refl _⟩
      have hprev := half_le_iff.mp
        (half_le_of_le (half_le_of_le (half_le_iff.mpr hcov.1) hrq) (Point.le_def.mpr hqB))
      simp only [Point.le_def] at hlast
      have hBq : B.line < q.line ∨ B.line = q.line ∧ B.column ≤ q.column :=
        (hlast.mpr ⟨hprev, by omega⟩).2
      have hAB : A = B := by
        rcases hstop with ⟨-, -, ⟨hzero, hpred⟩ | ⟨hpos, hpred⟩⟩ | ⟨hleft | heq, -⟩
        · rw [hpred] at hBq
          simp only at hBq hzero
          omega
        · rw [hpred] at hBq
          simp only at hBq hpos
          omega
        · nomatch hleft
        · exact heq
      have hcA := gridClamp_cases t U.point
      rw [← hA, hAB] at hcA
      rcases hcA with ⟨habove, heq⟩ | ⟨-, hlt, heq⟩ | ⟨-, -, heq⟩
      · rw [heq] at hcolumn
        simp only at hcolumn
        omega
      · rw [heq] at hprev
        simp only at hprev
        omega
      · rw [Point.eq_iff] at heq ⊢
        simp only at heq
        omega

end Ends

theorem RangeExact.anchored {A B : Point} (h : Ends t s.upper s.lower A B q r)
    (hne : s.upper.point ≠ s.lower.point) (he : RangeExact t s (some ⟨r, q, false⟩)) :
    Anchored t s := by
  obtain ⟨hr, hq, hrq, hexact⟩ := he
  have hexact (p : Point) (hp : t.InGrid p) :
      r ≤ p ∧ p ≤ q ↔ s.upper.half ≤ p.leftHalf ∧ p.rightHalf ≤ s.lower.half := by
    rw [half_le_iff, rightHalf_le_iff, ← coversCell_iff hne, ← hexact p hp, contains_iff rfl]
  refine ⟨⟨r, hr, ?_⟩, h.above_of_exact hexact, fun hge hout => ?_, fun hout => ?_⟩
  · rw [coversCell_iff hne, ← half_le_iff, ← rightHalf_le_iff, ← hexact r hr]
    exact ⟨Point.le_refl _, hrq⟩
  · cases hside : s.upper.side with
    | right => rfl
    | left =>
        have hfirst := ((hexact r hr).mp ⟨Point.le_refl _, hrq⟩).1
        rw [half_le_iff, Ends.edge_of_left hside] at hfirst
        have hstart := simpleStart_cases ⟨A, s.upper.side⟩ q t.columns
        rw [← h.start] at hstart
        rcases hstart with ⟨hright, -⟩ | ⟨-, heq⟩
        · exact nomatch hside.symm.trans hright
        · have heq : r = A := heq
          have hC := h.two_le
          rcases gridClamp_cases t s.upper.point with ⟨hlt, -⟩ | ⟨-, hlt, hA⟩ | ⟨-, -, hA⟩
          · omega
          · rw [heq, h.A_eq, hA] at hfirst
            simp only at hfirst
            omega
          · rw [heq, h.A_eq, hA] at hfirst
            simp only at hfirst
            omega
  · rw [← h.B_eq]
    exact h.below_of_exact hr hrq hexact hout

/-- A selection that is not empty is given exactly if its ends are anchored. -/
theorem Ends.rangeExact_iff {A B : Point} (h : Ends t s.upper s.lower A B q r)
    (hne : s.upper.point ≠ s.lower.point) :
    RangeExact t s (some ⟨r, q, false⟩) ↔ Anchored t s := by
  refine ⟨fun he => he.anchored h hne, fun ⟨⟨p₀, hp₀, hcov⟩, habove, hwide, hbelow⟩ => ?_⟩
  rw [← h.B_eq] at hbelow
  rw [coversCell_iff hne, ← half_le_iff, ← rightHalf_le_iff] at hcov
  obtain ⟨hq, hstop⟩ := h.le_stop_iff hbelow hp₀ hcov.1 hcov.2
  obtain ⟨hr, hrq, hstart⟩ := h.start_le_iff hq hstop habove hwide hp₀ hcov.1 hcov.2
  refine ⟨hr, hq, hrq, fun p hp => ?_⟩
  rw [contains_iff rfl, coversCell_iff hne, ← half_le_iff, ← rightHalf_le_iff, hstop p hp]
  constructor
  · intro ⟨hrp, hpq⟩
    exact ⟨(hstart p hp hpq).mpr hrp, hpq⟩
  · intro ⟨hup, hpq⟩
    exact ⟨(hstart p hp hpq).mp hup, hpq⟩

theorem Ends.rangeExact_same_iff {A B : Point} (h : Ends t s.upper s.lower A B q r)
    (heq : s.upper.point = s.lower.point) (hside : s.upper.side ≠ s.lower.side) :
    RangeExact t s (some ⟨r, q, false⟩) ↔ Anchored t s := by
  have hAB : A = B := by rw [h.A_eq, h.B_eq, heq]
  have hq : q = B := by
    rw [h.stop]
    exact if_neg fun hc => hc.2 hAB
  have hr : r = B := by
    rw [h.start, hq, ← hAB]
    exact if_neg fun hc => hc.2 rfl
  have hcover (p : Point) : s.CoversCell p ↔ p = s.upper.point := by
    rw [coversCell_same heq]
    exact and_iff_left hside
  constructor
  · rintro ⟨hin, -, -, hexact⟩
    have hB : B = s.upper.point := by
      rw [← hcover, ← hr, ← hexact r hin, contains_iff rfl, hr, hq]
      exact ⟨Point.le_refl _, Point.le_refl _⟩
    have hin : t.InGrid s.upper.point := by rwa [hr, hB] at hin
    obtain ⟨htop, hbottom, hcolumn⟩ := id hin
    refine ⟨⟨s.upper.point, hin, (hcover _).mpr rfl⟩, fun hlt => ?_, fun _ hout => ?_, fun hout => ?_⟩
    · omega
    · omega
    · rw [← heq] at hout
      omega
  · rintro ⟨⟨p₀, hp₀, hcov⟩, -, -, -⟩
    have hB : B = s.upper.point := by
      rw [h.B_eq, ← heq, ← (hcover p₀).mp hcov, Ends.gridClamp_inGrid hp₀]
    have hin : t.InGrid B := by rwa [hB, ← (hcover p₀).mp hcov]
    rw [hr, hq]
    refine ⟨hin, hin, Point.le_refl _, fun p _ => ?_⟩
    rw [contains_iff rfl, hcover, ← hB, Point.le_def, Point.le_def, Point.eq_iff]
    simp only
    omega

theorem not_coversCell_of_above (h : s.lower.point.line < t.topmostLine) (hp : t.InGrid p) :
    ¬ s.CoversCell p := by
  have hle := s.upper_le_lower
  obtain ⟨htop, -⟩ := hp
  rw [coversCell_ordered, half_le_iff, rightHalf_le_iff, half_le_iff, rightHalf_le_iff]
  omega

theorem toRange_above (h : s.lower.point.line < t.topmostLine) :
    s.toRange t = some none := if_pos h

theorem toRange_empty (hty : s.ty = .simple) (h : s.isEmpty = true) : s.toRange t = some none := by
  unfold toRange
  simp only [hty]
  split
  · rfl
  · exact congrArg some (if_pos h)

theorem toRange_simple (hty : s.ty = .simple) (h : t.topmostLine ≤ s.lower.point.line)
    (hempty : ¬ s.isEmpty = true) :
    ∃ A B q r, s.toRange t = some (some ⟨r, q, false⟩) ∧
      A = s.upper.point.gridClamp t.dims .grid ∧ B = s.lower.point.gridClamp t.dims .grid ∧
      q = simpleStop ⟨A, s.upper.side⟩ ⟨B, s.lower.side⟩ t.columns ∧
      r = simpleStart ⟨A, s.upper.side⟩ q t.columns := by
  refine ⟨_, _, _, _, ?_, rfl, rfl, rfl, rfl⟩
  unfold toRange rangeSimple
  simp only [hty]
  rw [if_neg (Int.not_lt.mpr h), if_neg hempty]

/-- When `to_range` gives exactly the covered cells: the selection is empty or ends above the
history, or its ends are anchored. -/
theorem toRange_exact_iff (ht : t.WF) (hty : s.ty = .simple) :
    Returns (s.toRange t) fun range => RangeExact t s range ↔
      s.lower.point.line < t.topmostLine ∨ s.isEmpty = true ∨ Anchored t s := by
  by_cases habove : s.lower.point.line < t.topmostLine
  · rw [toRange_above habove]
    exact .pure ⟨fun _ => .inl habove, fun _ p hp => not_coversCell_of_above habove hp⟩
  · by_cases hempty : s.isEmpty = true
    · rw [toRange_empty hty hempty]
      exact .pure ⟨fun _ => .inr (.inl hempty), fun _ p _ => not_coversCell_of_isEmpty hty hempty⟩
    · obtain ⟨A, B, q, r, heq, hA, hB, hq, hr⟩ := toRange_simple hty (Int.not_lt.mp habove) hempty
      have hends : Ends t s.upper s.lower A B q r := {
        two_le := ht.two_le
        top_le := Int.le_trans (Term.topmostLine_le_zero ht.grid) (Term.bottommostLine_nonneg ht.grid)
        ordered := s.not_lower_lt
        lower := Int.not_lt.mp habove
        A_eq := hA
        B_eq := hB
        stop := hq
        start := hr }
      rw [heq, or_iff_right habove, or_iff_right hempty]
      refine .pure ?_
      by_cases hsame : s.upper.point = s.lower.point
      · refine hends.rangeExact_same_iff hsame fun hside => hempty ?_
        exact (isEmpty_simple_iff hty).mpr (.inl (Anchor.mk.injEq .. ▸ ⟨hsame, hside⟩))
      · exact hends.rangeExact_iff hsame

/-- From the left half of the first cell to the right half of the last one, all are selected. -/
theorem toRange_exact_screen : RangeExact (Term.new .initial 2 2)
    ⟨.simple, ⟨⟨0, 0⟩, .left⟩, ⟨⟨1, 1⟩, .right⟩⟩ (some ⟨⟨0, 0⟩, ⟨1, 1⟩, false⟩) :=
  ((toRange_exact_iff (Term.new_wf .initial (by decide) (by decide)) rfl).of_eq rfl).mpr
    (.inr (.inr ⟨⟨⟨0, 0⟩, ⟨by decide, by decide, by decide⟩, by decide⟩, by decide, by decide,
      by decide⟩))

/-- Between the right half of the last cell of a line and the left half of the next line there
is no cell, but the range has one. An anchor on the right half of a cell above the history
takes the first cell of the history away, one on the left half of a cell below the screen the
last cell of the screen. -/
theorem toRange_not_exact :
    (toRange ⟨.simple, ⟨⟨0, 1⟩, .right⟩, ⟨⟨1, 0⟩, .left⟩⟩ (Term.new .initial 2 2) =
        some (some ⟨⟨0, 1⟩, ⟨0, 1⟩, false⟩) ∧
      ¬ CoversCell ⟨.simple, ⟨⟨0, 1⟩, .right⟩, ⟨⟨1, 0⟩, .left⟩⟩ ⟨0, 1⟩) ∧
    (toRange ⟨.simple, ⟨⟨-1, 0⟩, .right⟩, ⟨⟨1, 1⟩, .right⟩⟩ (Term.new .initial 2 2) =
        some (some ⟨⟨0, 1⟩, ⟨1, 1⟩, false⟩) ∧
      CoversCell ⟨.simple, ⟨⟨-1, 0⟩, .right⟩, ⟨⟨1, 1⟩, .right⟩⟩ ⟨0, 0⟩) ∧
    (toRange ⟨.simple, ⟨⟨0, 0⟩, .left⟩, ⟨⟨2, 0⟩, .left⟩⟩ (Term.new .initial 2 2) =
        some (some ⟨⟨0, 0⟩, ⟨1, 0⟩, false⟩) ∧
      CoversCell ⟨.simple, ⟨⟨0, 0⟩, .left⟩, ⟨⟨2, 0⟩, .left⟩⟩ ⟨1, 1⟩) :=
  ⟨⟨rfl, by decide⟩, ⟨rfl, by decide⟩, ⟨rfl, by decide⟩⟩

end Selection
end Velacritty
