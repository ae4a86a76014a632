import Mathlib.Order.Basic
import Mathlib.Data.Int.Order.Basic

/-! Lines, columns and points of the grid, and the arithmetic on them. Lines are
unbounded integers: no grid holds anything near `2^31` rows. -/
namespace Velacritty

/-- Checked `usize` subtraction; underflow is a panic. -/
def usub (a b : Nat) : Option Nat := if b ≤ a then some (a - b) else none

@[simp] theorem usub_of_le {a b : Nat} (h : b ≤ a) : usub a b = some (a - b) := if_pos h

theorem usub_eq_some {a b c : Nat} : usub a b = some c ↔ b ≤ a ∧ c = a - b := by
  unfold usub
  split <;> simp only [Option.some.injEq, reduceCtorEq, false_iff] <;> omega

/-- `line as usize`. A negative line wraps to a value that no caller survives. -/
def toUsize (l : Int) : Option Nat := if 0 ≤ l then some l.toNat else none

@[simp] theorem toUsize_of_nonneg {l : Int} (h : 0 ≤ l) : toUsize l = some l.toNat := if_pos h

theorem toUsize_eq_some {l : Int} {n : Nat} : toUsize l = some n ↔ l = n := by
  unfold toUsize
  split <;> simp <;> omega

/-- Index in the grid using row, column notation. -/
structure Point where
  line : Int
  column : Nat
  deriving DecidableEq, Repr, Inhabited

/-- Reading order. -/
instance : LT Point := ⟨fun p q => p.line < q.line ∨ p.line = q.line ∧ p.column < q.column⟩
instance : LE Point := ⟨fun p q => p.line < q.line ∨ p.line = q.line ∧ p.column ≤ q.column⟩

theorem Point.lt_def {p q : Point} :
    p < q ↔ p.line < q.line ∨ p.line = q.line ∧ p.column < q.column := Iff.rfl
theorem Point.le_def {p q : Point} :
    p ≤ q ↔ p.line < q.line ∨ p.line = q.line ∧ p.column ≤ q.column := Iff.rfl

theorem Point.le_refl (p : Point) : p ≤ p := .inr ⟨rfl, Nat.le_refl _⟩

theorem Point.eq_iff {p q : Point} : p = q ↔ p.line = q.line ∧ p.column = q.column := by
  obtain ⟨line, column⟩ := p
  obtain ⟨line', column'⟩ := q
  rw [Point.mk.injEq]

theorem Point.le_trans {p q r : Point} (hpq : p ≤ q) (hqr : q ≤ r) : p ≤ r := by
  rw [Point.le_def] at hpq hqr ⊢
  omega

theorem Point.le_antisymm {p q : Point} (hpq : p ≤ q) (hqp : q ≤ p) : p = q := by
  rw [Point.le_def] at hpq hqp
  rw [Point.eq_iff]
  omega

theorem Point.le_of_lt {p q : Point} (h : p < q) : p ≤ q := by
  rw [Point.lt_def] at h
  rw [Point.le_def]
  omega

theorem Point.lt_trans {p q r : Point} (hpq : p < q) (hqr : q < r) : p < r := by
  rw [Point.lt_def] at hpq hqr ⊢
  omega

theorem Point.not_lt {p q : Point} : ¬ p < q ↔ q ≤ p := by
  rw [Point.lt_def, Point.le_def]
  omega

theorem Point.not_le {p q : Point} : ¬ p ≤ q ↔ q < p := by
  rw [Point.lt_def, Point.le_def]
  omega

instance (p q : Point) : Decidable (p < q) := decidable_of_iff _ Point.lt_def.symm
instance (p q : Point) : Decidable (p ≤ q) := decidable_of_iff _ Point.le_def.symm

structure Dimensions where
  totalLines : Nat
  screenLines : Nat
  columns : Nat
  deriving DecidableEq, Repr

namespace Dimensions

def lastColumn (d : Dimensions) : Nat := d.columns - 1

/-- Number of invisible lines part of the scrollback history. -/
def historySize (d : Dimensions) : Nat := d.totalLines - d.screenLines

def topmostLine (d : Dimensions) : Int := -(d.historySize : Int)

/-- Line farthest down in the grid history. -/
def bottommostLine (d : Dimensions) : Int := (d.screenLines : Int) - 1

end Dimensions

inductive Boundary where
  | cursor
  | grid
  | none
  deriving DecidableEq, Repr

/-- Clamp a line to a grid boundary. Remainders truncate, as for `i32`. -/
def lineGridClamp (line : Int) (d : Dimensions) : Boundary → Int
  | .cursor => max 0 (min d.bottommostLine line)
  | .grid => max d.topmostLine (min d.bottommostLine line)
  | .none =>
      if (d.screenLines : Int) ≤ line then
        d.topmostLine + (line - d.screenLines).tmod d.totalLines
      else d.bottommostLine + (line - d.screenLines + 1).tmod d.totalLines

namespace Point

def gridClamp (p : Point) (d : Dimensions) (boundary : Boundary) : Point :=
  let p := { p with column := min p.column d.lastColumn }
  match boundary with
  | .cursor =>
      if p.line < 0 then ⟨0, 0⟩
      else if d.bottommostLine < p.line then ⟨d.bottommostLine, d.lastColumn⟩ else p
  | .grid =>
      if p.line < d.topmostLine then ⟨d.topmostLine, 0⟩
      else if d.bottommostLine < p.line then ⟨d.bottommostLine, d.lastColumn⟩ else p
  | .none => { p with line := lineGridClamp p.line d .none }

def sub (p : Point) (d : Dimensions) (boundary : Boundary) (rhs : Nat) : Point :=
  let cols := d.columns
  let lineChanges := (rhs + cols - 1 - p.column) / cols
  gridClamp ⟨p.line - lineChanges, (cols + p.column - rhs % cols) % cols⟩ d boundary

def add (p : Point) (d : Dimensions) (boundary : Boundary) (rhs : Nat) : Point :=
  let cols := d.columns
  gridClamp ⟨p.line + ((rhs + p.column) / cols : Nat), (p.column + rhs) % cols⟩ d boundary

end Point

theorem Point.gridClamp_of_neg {p : Point} (d : Dimensions) (h : p.line < 0) :
    p.gridClamp d .cursor = ⟨0, 0⟩ := if_pos h

theorem Point.gridClamp_of_screen {p : Point} {d : Dimensions} (hlo : 0 ≤ p.line)
    (hhi : p.line < d.screenLines) :
    p.gridClamp d .cursor = ⟨p.line, min p.column d.lastColumn⟩ := by
  have hbottom : ¬ d.bottommostLine < p.line := by
    simp only [Dimensions.bottommostLine]
    omega
  exact (if_neg (Int.not_lt.mpr hlo)).trans (if_neg hbottom)

/-- Moving left never leaves the screen, nor does it move down. -/
theorem Point.sub_cursor {p : Point} {d : Dimensions} (hc : 1 ≤ d.columns) (hlo : 0 ≤ p.line)
    (hhi : p.line < d.screenLines) (n : Nat) :
    0 ≤ (p.sub d .cursor n).line ∧ (p.sub d .cursor n).line ≤ p.line ∧
      (p.sub d .cursor n).column < d.columns := by
  have hmod : (d.columns + p.column - n % d.columns) % d.columns < d.columns := Nat.mod_lt _ hc
  simp only [Point.sub]
  generalize (n + d.columns - 1 - p.column) / d.columns = lineChanges
  rcases Int.lt_or_le (p.line - lineChanges) 0 with hneg | hpos
  · rw [gridClamp_of_neg d hneg]
    exact ⟨Int.le_refl 0, hlo, hc⟩
  · rw [gridClamp_of_screen hpos (by simp only; omega)]
    refine ⟨hpos, by simp only; omega, ?_⟩
    exact Nat.lt_of_le_of_lt (Nat.min_le_left _ _) hmod

/-- Moving left by at most a line: on the same line, or to the end of the one above. -/
theorem Point.sub_of_le {p : Point} {d : Dimensions} (hlo : 0 ≤ p.line) (hhi : p.line < d.screenLines)
    (hp : p.column < d.columns) {n : Nat} (hn : n ≤ d.columns) :
    p.sub d .cursor n = if n ≤ p.column then ⟨p.line, p.column - n⟩
      else if p.line = 0 then ⟨0, 0⟩ else ⟨p.line - 1, p.column + d.columns - n⟩ := by
  have hcolumn : (d.columns + p.column - n % d.columns) % d.columns =
      if n ≤ p.column then p.column - n else p.column + d.columns - n := by
    rcases Nat.lt_or_eq_of_le hn with hlt | rfl
    · rw [Nat.mod_eq_of_lt hlt]
      split
      · rw [show d.columns + p.column - n = d.columns + (p.column - n) by omega, Nat.add_mod_left]
        exact Nat.mod_eq_of_lt (by omega)
      · rw [Nat.add_comm]
        exact Nat.mod_eq_of_lt (by omega)
    · rw [Nat.mod_self, Nat.sub_zero, Nat.add_mod_left, Nat.mod_eq_of_lt hp, if_neg (Nat.not_le.mpr hp),
        Nat.add_sub_cancel]
  simp only [sub, hcolumn]
  by_cases hle : n ≤ p.column
  · rw [if_pos hle, if_pos hle, Nat.div_eq_of_lt (by omega), Int.natCast_zero, Int.sub_zero,
      gridClamp_of_screen (by exact hlo) (by exact hhi)]
    simp only [Dimensions.lastColumn, Nat.min_eq_left (show p.column - n ≤ d.columns - 1 by omega)]
  · rw [if_neg hle, if_neg hle, Nat.div_eq_of_lt_le (k := 1) (by omega) (by omega), Int.natCast_one]
    by_cases hzero : p.line = 0
    · rw [if_pos hzero]
      exact gridClamp_of_neg d (by simp only; omega)
    · rw [if_neg hzero, gridClamp_of_screen (by simp only; omega) (by simp only; omega)]
      simp only [Dimensions.lastColumn,
        Nat.min_eq_left (show p.column + d.columns - n ≤ d.columns - 1 by omega)]

def lineRange (a b : Int) : List Int := (List.range (b - a).toNat).map fun k : Nat => a + (k : Int)

@[simp] theorem mem_lineRange {a b l : Int} : l ∈ lineRange a b ↔ a ≤ l ∧ l < b := by
  simp only [lineRange, List.mem_map, List.mem_range]
  constructor
  · rintro ⟨k, hk, rfl⟩
    omega
  · rintro ⟨ha, hb⟩
    exact ⟨(l - a).toNat, by omega, by omega⟩

theorem pairwise_lineRange (a b : Int) : (lineRange a b).Pairwise fun j k => j < k := by
  refine List.pairwise_map.mpr (List.pairwise_lt_range.imp fun hjk => ?_)
  omega

theorem lineRange_eq_nil {a b : Int} (h : b ≤ a) : lineRange a b = [] :=
  List.eq_nil_iff_forall_not_mem.mpr fun l hl => by
    rw [mem_lineRange] at hl
    omega

theorem lineRange_cons {a b : Int} (h : a < b) : lineRange a b = a :: lineRange (a + 1) b := by
  have hsize : (b - a).toNat = (b - (a + 1)).toNat + 1 := by omega
  unfold lineRange
  rw [hsize, List.range_succ_eq_map, List.map_cons, List.map_map]
  refine congrArg₂ List.cons (Int.add_zero a) (List.map_congr_left fun k _ => ?_)
  simp only [Function.comp, Int.natCast_succ]
  omega

end Velacritty
