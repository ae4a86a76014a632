import Velacritty.Index

/-! The cells of the grid, numbered in reading order from the first cell of the history, and
the arithmetic of points as the arithmetic of their numbers. -/
namespace Velacritty

namespace Dimensions
variable {d : Dimensions} {p q : Point} {i j : Nat}

def cells (d : Dimensions) : Nat := d.totalLines * d.columns

/-- The number of cells before a point. -/
def index (d : Dimensions) (p : Point) : Nat := (p.line - d.topmostLine).toNat * d.columns + p.column

def point (d : Dimensions) (i : Nat) : Point :=
  ⟨d.topmostLine + (i / d.columns : Nat), i % d.columns⟩

def Has (d : Dimensions) (p : Point) : Prop :=
  d.topmostLine ≤ p.line ∧ p.line ≤ d.bottommostLine ∧ p.column < d.columns

structure Valid (d : Dimensions) : Prop where
  columns_pos : 1 ≤ d.columns
  lines_pos : 1 ≤ d.screenLines
  lines_le : d.screenLines ≤ d.totalLines

theorem bottommostLine_eq (h : d.Valid) : d.bottommostLine = d.topmostLine + d.totalLines - 1 := by
  have hle := h.lines_le
  unfold bottommostLine topmostLine historySize
  omega

theorem Valid.cells_pos (h : d.Valid) : 0 < d.cells :=
  Nat.mul_pos (Nat.lt_of_lt_of_le h.lines_pos h.lines_le) h.columns_pos

theorem point_mul_add (line : Nat) {column : Nat} (h : column < d.columns) :
    d.point (line * d.columns + column) = ⟨d.topmostLine + line, column⟩ := by
  have hpos : 0 < d.columns := Nat.lt_of_le_of_lt (Nat.zero_le _) h
  unfold point
  rw [Nat.mul_comm, Nat.mul_add_div hpos, Nat.mul_add_mod, Nat.div_eq_of_lt h, Nat.mod_eq_of_lt h,
    Nat.add_zero]

theorem point_has (h : d.Valid) (hi : i < d.cells) : d.Has (d.point i) := by
  have hline : i / d.columns < d.totalLines := Nat.div_lt_of_lt_mul (by rwa [Nat.mul_comm])
  have hbottom := bottommostLine_eq h
  unfold point
  generalize i / d.columns = line at hline
  exact ⟨by simp only; omega, by simp only; omega, Nat.mod_lt _ h.columns_pos⟩

theorem index_lt (h : d.Valid) (hp : d.Has p) : d.index p < d.cells := by
  obtain ⟨htop, hbottom, hcolumn⟩ := hp
  have heq := bottommostLine_eq h
  have hline : (p.line - d.topmostLine).toNat + 1 ≤ d.totalLines := by omega
  have hmul := Nat.mul_le_mul_right d.columns hline
  rw [Nat.succ_mul] at hmul
  unfold index cells
  omega

theorem index_point (d : Dimensions) (i : Nat) : d.index (d.point i) = i := by
  have hline : (d.topmostLine + (i / d.columns : Nat) - d.topmostLine).toNat = i / d.columns := by
    rw [Int.add_comm, Int.add_sub_cancel, Int.toNat_natCast]
  simp only [index, point, hline]
  exact Nat.div_add_mod' i d.columns

theorem point_injective (d : Dimensions) : Function.Injective d.point :=
  Function.LeftInverse.injective d.index_point

theorem point_index (hp : d.Has p) : d.point (d.index p) = p := by
  obtain ⟨htop, -, hcolumn⟩ := hp
  unfold index
  rw [point_mul_add _ hcolumn, Point.eq_iff]
  exact ⟨by simp only; omega, rfl⟩

/-- Reading order is that of the numbers. -/
theorem index_lt_iff (hp : d.Has p) (hq : d.Has q) : d.index p < d.index q ↔ p < q := by
  obtain ⟨hp₁, hp₂, hp₃⟩ := hp
  obtain ⟨hq₁, hq₂, hq₃⟩ := hq
  unfold index
  rw [Point.lt_def]
  rcases Int.lt_trichotomy p.line q.line with hlt | heq | hgt
  · have hline : (p.line - d.topmostLine).toNat + 1 ≤ (q.line - d.topmostLine).toNat := by omega
    have hmul := Nat.mul_le_mul_right d.columns hline
    rw [Nat.succ_mul] at hmul
    exact ⟨fun _ => .inl hlt, fun _ => by omega⟩
  · rw [heq]
    omega
  · have hline : (q.line - d.topmostLine).toNat + 1 ≤ (p.line - d.topmostLine).toNat := by omega
    have hmul := Nat.mul_le_mul_right d.columns hline
    rw [Nat.succ_mul] at hmul
    exact ⟨fun _ => by omega, fun _ => by omega⟩

theorem index_le_iff (hp : d.Has p) (hq : d.Has q) : d.index p ≤ d.index q ↔ p ≤ q := by
  have hlt := index_lt_iff hq hp
  rw [Point.lt_def] at hlt
  rw [Point.le_def]
  omega

theorem point_lt_iff (h : d.Valid) (hi : i < d.cells) (hj : j < d.cells) :
    d.point i < d.point j ↔ i < j := by
  rw [← index_lt_iff (point_has h hi) (point_has h hj), index_point, index_point]

theorem point_le_iff (h : d.Valid) (hi : i < d.cells) (hj : j < d.cells) :
    d.point i ≤ d.point j ↔ i ≤ j := by
  rw [← index_le_iff (point_has h hi) (point_has h hj), index_point, index_point]

theorem point_zero : d.point 0 = ⟨d.topmostLine, 0⟩ := by
  unfold point
  rw [Nat.zero_div, Nat.zero_mod, Int.natCast_zero, Int.add_zero]

theorem index_bottommost (h : d.Valid) : d.index ⟨d.bottommostLine, d.lastColumn⟩ = d.cells - 1 := by
  have hpos := h.columns_pos
  have hlines := h.lines_pos
  have hle := h.lines_le
  have hbottom := bottommostLine_eq h
  have hline : (d.bottommostLine - d.topmostLine).toNat = d.totalLines - 1 := by omega
  have hmul : d.totalLines * d.columns = (d.totalLines - 1) * d.columns + d.columns := by
    rw [← Nat.succ_mul, Nat.succ_eq_add_one, Nat.sub_add_cancel (by omega)]
  simp only [index, cells, lastColumn, hline, hmul]
  omega

theorem bottommost_has (h : d.Valid) : d.Has ⟨d.bottommostLine, d.lastColumn⟩ := by
  have hpos := h.columns_pos
  have hlines := h.lines_pos
  have hle := h.lines_le
  have hbottom := bottommostLine_eq h
  exact ⟨by simp only; omega, Int.le_refl _, Nat.sub_lt hpos Nat.one_pos⟩

theorem point_last (h : d.Valid) : d.point (d.cells - 1) = ⟨d.bottommostLine, d.lastColumn⟩ := by
  rw [← index_bottommost h, point_index (bottommost_has h)]

/-- The next cell is in the next column, or in the first one of the next line. -/
theorem point_succ (h : d.Valid) (i : Nat) : d.point (i + 1) =
    if d.lastColumn ≤ (d.point i).column then ⟨(d.point i).line + 1, 0⟩
    else ⟨(d.point i).line, (d.point i).column + 1⟩ := by
  have hpos := h.columns_pos
  have hlt := Nat.mod_lt i hpos
  have hi := Nat.div_add_mod' i d.columns
  have hcolumn : (d.point i).column = i % d.columns := rfl
  by_cases hlast : i % d.columns = d.columns - 1
  · have hnext : i + 1 = (i / d.columns + 1) * d.columns + 0 := by
      rw [Nat.succ_mul]
      omega
    have hle : d.lastColumn ≤ i % d.columns := Nat.le_of_eq hlast.symm
    rw [hnext, point_mul_add _ hpos, hcolumn, if_pos hle, Point.eq_iff]
    exact ⟨by simp only [point]; omega, rfl⟩
  · have hnext : i + 1 = i / d.columns * d.columns + (i % d.columns + 1) := by omega
    have hlt' : i % d.columns + 1 < d.columns := by omega
    rw [hnext, point_mul_add _ hlt', hcolumn, if_neg (by unfold lastColumn; omega)]
    rfl

theorem point_pred (h : d.Valid) (i : Nat) : d.point i =
    if (d.point (i + 1)).column = 0 then ⟨(d.point (i + 1)).line - 1, d.lastColumn⟩
    else ⟨(d.point (i + 1)).line, (d.point (i + 1)).column - 1⟩ := by
  have hlt : (d.point i).column < d.columns := Nat.mod_lt i h.columns_pos
  rw [point_succ h]
  by_cases hlast : d.lastColumn ≤ (d.point i).column
  · rw [if_pos hlast, if_pos rfl, Point.eq_iff]
    refine ⟨by simp only; omega, ?_⟩
    unfold lastColumn at *
    simp only
    omega
  · rw [if_neg hlast, if_neg (Nat.succ_ne_zero _)]
    rfl

/-- `(line - topmost) * columns + column`: negative above the history. -/
def number (d : Dimensions) (p : Point) : Int := (p.line - d.topmostLine) * d.columns + p.column

/-- Where a number ends up: the grid without boundaries is a circle. -/
def bound (d : Dimensions) : Boundary → Int → Int
  | .cursor, n => max (d.number ⟨0, 0⟩) (min (d.number ⟨d.bottommostLine, d.lastColumn⟩) n)
  | .grid, n => max (d.number ⟨d.topmostLine, 0⟩) (min (d.number ⟨d.bottommostLine, d.lastColumn⟩) n)
  | .none, n => n % (d.columns * d.totalLines : Nat)

theorem number_eq_index (hp : d.topmostLine ≤ p.line) : d.number p = d.index p := by
  have hline : ((p.line - d.topmostLine).toNat : Int) = p.line - d.topmostLine :=
    Int.toNat_of_nonneg (by omega)
  rw [index, Int.natCast_add, Int.natCast_mul, hline]
  rfl

theorem number_point (d : Dimensions) (i : Nat) : d.number (d.point i) = i := by
  rw [number_eq_index (Int.le_add_of_nonneg_right (Int.natCast_nonneg _)), index_point]

theorem eq_point (hp : d.Has p) (hn : d.number p = i) : p = d.point i := by
  rw [number_eq_index hp.1] at hn
  rw [← Int.natCast_inj.mp hn, point_index hp]

theorem number_inj (hp : d.Has p) (hq : d.Has q) (heq : d.number p = d.number q) : p = q := by
  rw [number_eq_index hq.1] at heq
  rw [eq_point hp heq, point_index hq]

/-- Cells of lines further up have smaller numbers. -/
theorem number_lt_of_line (hp : p.column < d.columns) (hline : p.line < q.line) :
    d.number p < d.number q := by
  have hmul : (p.line - d.topmostLine + 1) * (d.columns : Int) ≤ (q.line - d.topmostLine) * d.columns :=
    Int.mul_le_mul_of_nonneg_right (by omega) (Int.natCast_nonneg _)
  rw [Int.add_mul, Int.one_mul] at hmul
  unfold number
  omega

theorem number_le_of_line (hp : p.column < d.columns) (hle : p.line ≤ q.line)
    (hcolumn : p.column ≤ q.column) : d.number p ≤ d.number q := by
  rcases Int.lt_or_eq_of_le hle with hlt | heq
  · exact Int.le_of_lt (number_lt_of_line hp hlt)
  · unfold number
    rw [heq]
    omega

/-- Any line, without boundaries, is counted from the topmost one. -/
theorem lineGridClamp_none (h : d.Valid) (line : Int) :
    lineGridClamp line d .none = d.topmostLine + (line - d.topmostLine) % d.totalLines := by
  have hbottom := bottommostLine_eq h
  have hbottom' : d.bottommostLine = d.screenLines - 1 := rfl
  have hlines : 0 < (d.totalLines : Int) := by
    have := h.lines_pos
    have := h.lines_le
    omega
  simp only [lineGridClamp]
  split
  · next hbelow =>
      have heq : line - d.topmostLine = line - d.screenLines + d.totalLines := by omega
      rw [heq, Int.add_emod_right, Int.tmod_eq_emod_of_nonneg (by omega)]
  · next habove =>
      -- Above the screen's end the remainder is not positive.
      have hneg : 0 ≤ d.screenLines - 1 - line := by omega
      have hlo := Int.emod_nonneg (d.screenLines - 1 - line) (Int.ne_of_gt hlines)
      have hhi := Int.emod_lt_of_pos (d.screenLines - 1 - line) hlines
      have hdiv := Int.mul_ediv_add_emod (d.screenLines - 1 - line) d.totalLines
      rw [show line - d.screenLines + 1 = -(d.screenLines - 1 - line) by omega, Int.neg_tmod,
        Int.tmod_eq_emod_of_nonneg hneg]
      have hmod : (line - d.topmostLine) % (d.totalLines : Int) =
          d.totalLines - 1 - (d.screenLines - 1 - line) % (d.totalLines : Int) := by
        rw [show line - d.topmostLine = d.totalLines - 1 - (d.screenLines - 1 - line) % (d.totalLines : Int) +
          d.totalLines * -((d.screenLines - 1 - line) / (d.totalLines : Int)) by
            rw [Int.mul_neg]
            omega, Int.add_mul_emod_self_left]
        exact Int.emod_eq_of_lt (by omega) (by omega)
      rw [hmod]
      omega

theorem number_gridClamp_none (h : d.Valid) (hp : p.column < d.columns) :
    d.Has (p.gridClamp d .none) ∧ d.number (p.gridClamp d .none) = d.bound .none (d.number p) := by
  have hcolumn : min p.column d.lastColumn = p.column := Nat.min_eq_left (Nat.le_sub_one_of_lt hp)
  have hbottom := bottommostLine_eq h
  have hlines : 0 < (d.totalLines : Int) := by
    have := h.lines_pos
    have := h.lines_le
    omega
  have hlo := Int.emod_nonneg (p.line - d.topmostLine) (Int.ne_of_gt hlines)
  have hhi := Int.emod_lt_of_pos (p.line - d.topmostLine) hlines
  have hdiv := Int.mul_ediv_add_emod (p.line - d.topmostLine) d.totalLines
  simp only [Point.gridClamp, hcolumn, lineGridClamp_none h]
  generalize (p.line - d.topmostLine) % (d.totalLines : Int) = rest at hlo hhi hdiv
  generalize (p.line - d.topmostLine) / (d.totalLines : Int) = round at hdiv
  refine ⟨⟨by simp only; omega, by simp only; omega, hp⟩, ?_⟩
  have hsplit : d.number p = rest * d.columns + p.column + (d.columns * d.totalLines : Nat) * round := by
    unfold number
    rw [← hdiv, Int.natCast_mul, Int.add_mul, Int.mul_comm (_ * round), ← Int.mul_assoc]
    omega
  have hmul : (rest + 1) * (d.columns : Int) ≤ d.totalLines * d.columns :=
    Int.mul_le_mul_of_nonneg_right (by omega) (Int.natCast_nonneg _)
  rw [Int.add_mul, Int.one_mul, Int.mul_comm (d.totalLines : Int), ← Int.natCast_mul] at hmul
  have hpos := Int.mul_nonneg hlo (Int.natCast_nonneg d.columns)
  rw [bound, hsplit, Int.add_mul_emod_self_left, Int.emod_eq_of_lt (by omega) (by omega)]
  unfold number
  simp only [Int.add_comm d.topmostLine, Int.add_sub_cancel]

/-- Clamping a point between two lines. -/
theorem number_clamp {first last : Int} (hpos : 0 < d.columns) (hp : p.column < d.columns)
    (hle : first ≤ last)
    (hq : q = if p.line < first then ⟨first, 0⟩
      else if last < p.line then ⟨last, d.lastColumn⟩ else p) :
    (first ≤ q.line ∧ q.line ≤ last ∧ q.column < d.columns) ∧
      d.number q = max (d.number ⟨first, 0⟩) (min (d.number ⟨last, d.lastColumn⟩) (d.number p)) := by
  have hlast : d.lastColumn < d.columns := Nat.sub_lt hpos Nat.one_pos
  have hends : d.number ⟨first, 0⟩ ≤ d.number ⟨last, d.lastColumn⟩ :=
    number_le_of_line hpos hle (Nat.zero_le _)
  split at hq
  · next habove =>
      subst hq
      have hlt : d.number p < d.number ⟨first, 0⟩ := number_lt_of_line hp habove
      exact ⟨⟨Int.le_refl _, hle, hpos⟩, by omega⟩
  · next hfirst =>
      have hlo : d.number ⟨first, 0⟩ ≤ d.number p :=
        number_le_of_line hpos (Int.not_lt.mp hfirst) (Nat.zero_le _)
      split at hq
      · next hbelow =>
          subst hq
          have hlt : d.number ⟨last, d.lastColumn⟩ < d.number p := number_lt_of_line hlast hbelow
          exact ⟨⟨hle, Int.le_refl _, hlast⟩, by omega⟩
      · next hin =>
          subst hq
          have hhi : d.number q ≤ d.number ⟨last, d.lastColumn⟩ :=
            number_le_of_line hp (Int.not_lt.mp hin) (Nat.le_sub_one_of_lt hp)
          exact ⟨⟨Int.not_lt.mp hfirst, Int.not_lt.mp hin, hp⟩, by omega⟩

theorem number_gridClamp (h : d.Valid) (hp : p.column < d.columns) (boundary : Boundary) :
    d.Has (p.gridClamp d boundary) ∧ d.number (p.gridClamp d boundary) = d.bound boundary (d.number p) := by
  have hcolumn : min p.column d.lastColumn = p.column := Nat.min_eq_left (Nat.le_sub_one_of_lt hp)
  have hpos := h.columns_pos
  have hlast := (bottommost_has h).1
  have hscreen : 0 ≤ d.bottommostLine := Int.sub_nonneg_of_le (Int.ofNat_le.mpr h.lines_pos)
  cases boundary with
  | cursor =>
      obtain ⟨⟨hlo, hhi, hlt⟩, hnumber⟩ := number_clamp (q := p.gridClamp d .cursor) hpos hp hscreen
        (by simp only [Point.gridClamp, hcolumn])
      exact ⟨⟨Int.le_trans (Int.neg_nonpos_of_nonneg (Int.natCast_nonneg _)) hlo, hhi, hlt⟩, hnumber⟩
  | grid => exact number_clamp hpos hp hlast (by simp only [Point.gridClamp, hcolumn])
  | none => exact number_gridClamp_none h hp

theorem number_add (p : Point) (rhs : Nat) :
    d.number ⟨p.line + ((rhs + p.column) / d.columns : Nat), (p.column + rhs) % d.columns⟩ =
      d.number p + rhs := by
  have hdiv := Nat.div_add_mod' (rhs + p.column) d.columns
  rw [Nat.add_comm p.column]
  unfold number
  generalize (rhs + p.column) / d.columns = lines at hdiv
  generalize (rhs + p.column) % d.columns = column at hdiv
  have hsum : (lines * d.columns + column : Int) = rhs + p.column := by exact_mod_cast hdiv
  rw [show p.line + lines - d.topmostLine = p.line - d.topmostLine + lines by omega, Int.add_mul]
  simp only
  omega

theorem number_sub (hp : p.column < d.columns) (rhs : Nat) :
    d.number ⟨p.line - ((rhs + d.columns - 1 - p.column) / d.columns : Nat),
      (d.columns + p.column - rhs % d.columns) % d.columns⟩ = d.number p - rhs := by
  have hpos : 0 < d.columns := Nat.lt_of_le_of_lt (Nat.zero_le _) hp
  have hdiv := Nat.div_add_mod' rhs d.columns
  have hlt := Nat.mod_lt rhs hpos
  generalize rhs / d.columns = lines at hdiv
  generalize rhs % d.columns = column at hdiv hlt
  have hsum : (lines * d.columns + column : Int) = rhs := by exact_mod_cast hdiv
  unfold number
  by_cases hle : column ≤ p.column
  · have hlines : (rhs + d.columns - 1 - p.column) / d.columns = lines :=
      Nat.div_eq_of_lt_le (by omega) (by rw [Nat.succ_mul]; omega)
    have hcolumn : (d.columns + p.column - column) % d.columns = p.column - column := by
      rw [Nat.add_sub_assoc hle, Nat.add_mod_left, Nat.mod_eq_of_lt (by omega)]
    rw [hlines, hcolumn, show p.line - lines - d.topmostLine = p.line - d.topmostLine - lines by omega,
      Int.sub_mul]
    simp only
    omega
  · have hlines : (rhs + d.columns - 1 - p.column) / d.columns = lines + 1 :=
      Nat.div_eq_of_lt_le (by rw [Nat.succ_mul]; omega) (by rw [Nat.succ_mul, Nat.succ_mul]; omega)
    have hcolumn : (d.columns + p.column - column) % d.columns = d.columns + p.column - column :=
      Nat.mod_eq_of_lt (by omega)
    rw [hlines, hcolumn, show p.line - (lines + 1 : Nat) - d.topmostLine =
      p.line - d.topmostLine - (lines + 1 : Nat) by omega, Int.sub_mul, Int.natCast_succ, Int.add_mul]
    simp only
    omega

theorem add_number (h : d.Valid) (p : Point) (boundary : Boundary) (rhs : Nat) :
    d.Has (p.add d boundary rhs) ∧ d.number (p.add d boundary rhs) = d.bound boundary (d.number p + rhs) := by
  rw [← number_add]
  exact number_gridClamp h (Nat.mod_lt _ h.columns_pos) boundary

theorem sub_number (h : d.Valid) (hp : p.column < d.columns) (boundary : Boundary) (rhs : Nat) :
    d.Has (p.sub d boundary rhs) ∧ d.number (p.sub d boundary rhs) = d.bound boundary (d.number p - rhs) := by
  rw [← number_sub hp]
  exact number_gridClamp h (Nat.mod_lt _ h.columns_pos) boundary

theorem bound_grid (h : d.Valid) (n : Int) : d.bound .grid n = max 0 (min ((d.cells - 1 : Nat) : Int) n) := by
  rw [bound, number_eq_index (Int.le_refl _), number_eq_index (bottommost_has h).1, index_bottommost h,
    ← point_zero, index_point]
  rfl

/-- Numbers around the circle of all cells are those of the cells. -/
theorem number_emod (h : d.Valid) (hp : d.Has p) :
    d.number p % (d.columns * d.totalLines : Nat) = d.number p := by
  rw [number_eq_index hp.1, Nat.mul_comm]
  exact Int.emod_eq_of_lt (Int.natCast_nonneg _) (Int.ofNat_lt.mpr (index_lt h hp))

/-- One column further, from the last cell to the first one. -/
theorem add_none (h : d.Valid) (i : Nat) :
    (d.point i).add d .none 1 = d.point ((i + 1) % d.cells) := by
  obtain ⟨hhas, hnumber⟩ := add_number h (d.point i) .none 1
  refine eq_point hhas ?_
  rw [hnumber, bound, number_point, cells, Nat.mul_comm, Int.natCast_emod]
  rfl

/-- One column further, which stays on the last cell. -/
theorem add_grid (h : d.Valid) (i : Nat) :
    (d.point i).add d .grid 1 = d.point (min (i + 1) (d.cells - 1)) := by
  obtain ⟨hhas, hnumber⟩ := add_number h (d.point i) .grid 1
  refine eq_point hhas ?_
  rw [hnumber, bound_grid h, number_point]
  omega

/-- One column back, which stays on the first cell. -/
theorem sub_grid (h : d.Valid) (hi : i < d.cells) :
    (d.point i).sub d .grid 1 = d.point (i - 1) := by
  obtain ⟨hhas, hnumber⟩ := sub_number (p := d.point i) h (Nat.mod_lt i h.columns_pos) .grid 1
  refine eq_point hhas ?_
  rw [hnumber, bound_grid h, number_point]
  omega

/-- Adding and subtracting columns is adding to and subtracting from the number of a cell:
around the circle of all cells, or up to the ends of the grid or of the screen. Around the
circle both take each other back. -/
theorem add_sub_number (h : d.Valid) (hp : d.Has p) (rhs : Nat) :
    (∀ boundary, d.Has (p.add d boundary rhs) ∧
      d.number (p.add d boundary rhs) = d.bound boundary (d.number p + rhs)) ∧
    (∀ boundary, d.Has (p.sub d boundary rhs) ∧
      d.number (p.sub d boundary rhs) = d.bound boundary (d.number p - rhs)) ∧
    (p.add d .none rhs).sub d .none rhs = p ∧ (p.sub d .none rhs).add d .none rhs = p := by
  refine ⟨fun boundary => add_number h p boundary rhs, fun boundary => sub_number h hp.2.2 boundary rhs, ?_, ?_⟩
  · obtain ⟨hadd, hnumber⟩ := add_number h p .none rhs
    obtain ⟨hsub, hback⟩ := sub_number h hadd.2.2 .none rhs
    refine number_inj hsub hp ?_
    rw [hback, hnumber, bound, bound, Int.emod_sub_emod, Int.add_sub_cancel, number_emod h hp]
  · obtain ⟨hsub, hnumber⟩ := sub_number h hp.2.2 .none rhs
    obtain ⟨hadd, hback⟩ := add_number h (p.sub d .none rhs) .none rhs
    refine number_inj hadd hp ?_
    rw [hback, hnumber, bound, bound, Int.emod_add_emod, Int.sub_add_cancel, number_emod h hp]

/-- Back from the first cell to the last one, and forth again. -/
theorem add_sub_number_first :
    (⟨-1, 0⟩ : Point).sub ⟨3, 2, 4⟩ .none 1 = ⟨1, 3⟩ ∧ (⟨1, 3⟩ : Point).add ⟨3, 2, 4⟩ .none 1 = ⟨-1, 0⟩ := by
  have h := (add_sub_number (d := ⟨3, 2, 4⟩) (p := ⟨-1, 0⟩) ⟨by decide, by decide, by decide⟩
    ⟨by decide, by decide, by decide⟩ 1).2.2.2
  exact ⟨by decide, h⟩

end Dimensions
end Velacritty
