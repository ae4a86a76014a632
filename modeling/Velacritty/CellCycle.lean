import Mathlib.Data.Int.ModEq
import Velacritty.CellOrder

/-! The cells of the grid in a circle: the first cell follows the last one. -/
namespace Velacritty
open Fallible

/-- The change of a cell's number that one step in a direction makes. -/
def Side.sign : Side → Int
  | .right => 1
  | .left => -1

theorem Side.sign_mul_self (direction : Side) : direction.sign * direction.sign = 1 := by
  cases direction with
  | right => rfl
  | left => rfl

namespace Dimensions
variable {d : Dimensions} {p q r : Point} {i k : Nat} {direction : Side}

/-- The point some cells ahead, around the ends of the grid. -/
def cellAhead (d : Dimensions) (direction : Side) (p : Point) (k : Nat) : Point :=
  d.point ((d.index p + direction.sign * k) % d.cells).toNat

def ahead (d : Dimensions) (direction : Side) (p q : Point) : Nat :=
  ((direction.sign * (d.index q - d.index p)) % d.cells).toNat

theorem cells_ne_zero (h : d.Valid) : (d.cells : Int) ≠ 0 :=
  Int.natCast_ne_zero.mpr (Nat.pos_iff_ne_zero.mp h.cells_pos)

theorem cellAhead_right (d : Dimensions) (p : Point) (k : Nat) :
    d.cellAhead .right p k = d.point ((d.index p + k) % d.cells) := by
  unfold cellAhead Side.sign
  rw [Int.one_mul, ← Int.natCast_add, ← Int.natCast_emod, Int.toNat_natCast]

theorem index_cellAhead (h : d.Valid) :
    (d.index (d.cellAhead direction p k) : Int) = (d.index p + direction.sign * k) % d.cells := by
  unfold cellAhead
  rw [index_point, Int.toNat_of_nonneg (Int.emod_nonneg _ (cells_ne_zero h))]

theorem coe_ahead (h : d.Valid) :
    (d.ahead direction p q : Int) = (direction.sign * (d.index q - d.index p)) % d.cells :=
  Int.toNat_of_nonneg (Int.emod_nonneg _ (cells_ne_zero h))

theorem ahead_lt (h : d.Valid) (direction : Side) (p q : Point) : d.ahead direction p q < d.cells := by
  have hlt := Int.emod_lt_of_pos (direction.sign * (d.index q - d.index p))
    (Int.natCast_pos.mpr h.cells_pos)
  rw [← coe_ahead h] at hlt
  exact Int.ofNat_lt.mp hlt

theorem cellAhead_has (h : d.Valid) : d.Has (d.cellAhead direction p k) := by
  have hpos := Int.natCast_pos.mpr h.cells_pos
  have hlt := Int.emod_lt_of_pos (d.index p + direction.sign * k) hpos
  have hnonneg := Int.emod_nonneg (d.index p + direction.sign * k) (cells_ne_zero h)
  exact point_has h (by omega)

theorem ahead_self (d : Dimensions) (direction : Side) (p : Point) : d.ahead direction p p = 0 := by
  unfold ahead
  rw [Int.sub_self, Int.mul_zero, Int.zero_emod, Int.toNat_zero]

theorem cellAhead_zero (h : d.Valid) (hp : d.Has p) : d.cellAhead direction p 0 = p := by
  have hlt := Int.ofNat_lt.mpr (index_lt h hp)
  unfold cellAhead
  rw [Int.natCast_zero, Int.mul_zero, Int.add_zero, Int.emod_eq_of_lt (Int.natCast_nonneg _) hlt,
    Int.toNat_natCast, point_index hp]

theorem cellAhead_right_of_lt (hi : i + k < d.cells) :
    d.cellAhead .right (d.point i) k = d.point (i + k) := by
  rw [cellAhead_right, index_point, Nat.mod_eq_of_lt hi]

theorem cellAhead_left_of_le (hi : i < d.cells) (hk : k ≤ i) :
    d.cellAhead .left (d.point i) k = d.point (i - k) := by
  have hsub : (i : Int) + -1 * k = (i - k : Nat) := by omega
  have hlt : ((i - k : Nat) : Int) < d.cells := by omega
  unfold cellAhead Side.sign
  rw [index_point, hsub, Int.emod_eq_of_lt (Int.natCast_nonneg _) hlt, Int.toNat_natCast]

theorem cellAhead_right_last (h : d.Valid) :
    d.cellAhead .right (d.point (d.cells - 1)) 1 = d.point 0 := by
  rw [cellAhead_right, index_point, Nat.sub_add_cancel h.cells_pos, Nat.mod_self]

/-- To the left, the last cell follows the first one. -/
theorem cellAhead_left_zero (h : d.Valid) :
    d.cellAhead .left (d.point 0) 1 = d.point (d.cells - 1) := by
  have hpos := h.cells_pos
  have hsub : ((0 : Nat) : Int) + -1 * (1 : Nat) = (d.cells - 1 : Nat) - d.cells := by omega
  have hlt : ((d.cells - 1 : Nat) : Int) < d.cells := by omega
  unfold cellAhead Side.sign
  rw [index_point, hsub, Int.sub_emod_right, Int.emod_eq_of_lt (Int.natCast_nonneg _) hlt,
    Int.toNat_natCast]

/-- The cells ahead are counted around the grid. -/
theorem ahead_cellAhead (h : d.Valid) (direction : Side) (p : Point) (k : Nat) :
    d.ahead direction p (d.cellAhead direction p k) = k % d.cells := by
  have hmod : direction.sign * ((d.index p + direction.sign * k) % d.cells - d.index p) ≡
      k [ZMOD d.cells] := by
    have hback : direction.sign * (d.index p + direction.sign * k - d.index p) = k := by
      rw [Int.add_comm, Int.add_sub_cancel, ← Int.mul_assoc, direction.sign_mul_self, Int.one_mul]
    have hcell := ((Int.mod_modEq (d.index p + direction.sign * k) d.cells).sub_right
      (d.index p)).mul_left direction.sign
    rwa [hback] at hcell
  rw [← Int.ofNat_inj, coe_ahead h, index_cellAhead h, hmod, Int.natCast_emod]

theorem ahead_cellAhead_of_lt (h : d.Valid) (direction : Side) (p : Point) (hk : k < d.cells) :
    d.ahead direction p (d.cellAhead direction p k) = k := by
  rw [ahead_cellAhead h, Nat.mod_eq_of_lt hk]

theorem cellAhead_ahead (h : d.Valid) (direction : Side) (p : Point) (hq : d.Has q) :
    d.cellAhead direction p (d.ahead direction p q) = q := by
  have hlt := Int.ofNat_lt.mpr (index_lt h hq)
  have hmod : d.index p + direction.sign * ((direction.sign * (d.index q - d.index p)) % d.cells) ≡
      d.index q [ZMOD d.cells] := by
    have hback : d.index p + direction.sign * (direction.sign * (d.index q - d.index p)) =
        (d.index q : Int) := by
      rw [← Int.mul_assoc, direction.sign_mul_self]
      omega
    have hcell := ((Int.mod_modEq (direction.sign * (d.index q - d.index p)) d.cells).mul_left
      direction.sign).add_left (d.index p)
    rwa [hback] at hcell
  unfold cellAhead
  rw [coe_ahead h, hmod, Int.emod_eq_of_lt (Int.natCast_nonneg _) hlt, Int.toNat_natCast,
    point_index hq]

theorem cellAhead_add (h : d.Valid) (direction : Side) (p : Point) (a b : Nat) :
    d.cellAhead direction (d.cellAhead direction p a) b = d.cellAhead direction p (a + b) := by
  have hmod := (Int.mod_modEq (d.index p + direction.sign * a) d.cells).add_right (direction.sign * b)
  rw [cellAhead, index_cellAhead h, hmod, cellAhead, Int.natCast_add, Int.mul_add, Int.add_assoc]

theorem ahead_inj (h : d.Valid) (hq : d.Has q) (hr : d.Has r) :
    d.ahead direction p q = d.ahead direction p r ↔ q = r := by
  constructor
  · intro heq
    rw [← cellAhead_ahead h direction p hq, heq, cellAhead_ahead h direction p hr]
  · exact congrArg _

theorem ahead_eq_zero (h : d.Valid) (hp : d.Has p) (hq : d.Has q) :
    d.ahead direction p q = 0 ↔ p = q := by
  rw [← ahead_self d direction p, ahead_inj h hq hp, eq_comm]

/-- The way to a cell behind another one leads there first. -/
theorem ahead_add (h : d.Valid) (hr : d.Has r)
    (hle : d.ahead direction p q + d.ahead direction q r < d.cells) (hq : d.Has q) :
    d.ahead direction p r = d.ahead direction p q + d.ahead direction q r := by
  have heq : r = d.cellAhead direction p (d.ahead direction p q + d.ahead direction q r) := by
    rw [← cellAhead_add h, cellAhead_ahead h direction p hq, cellAhead_ahead h direction q hr]
  rw [congrArg (d.ahead direction p) heq, ahead_cellAhead_of_lt h direction p hle]

/-- From a cell on the way, the rest of the way is ahead. -/
theorem ahead_sub (h : d.Valid) (hp : d.Has p) (hq : d.Has q)
    (hle : d.ahead direction r p ≤ d.ahead direction r q) :
    d.ahead direction p q = d.ahead direction r q - d.ahead direction r p := by
  have hlt := ahead_lt h direction r q
  have heq : q = d.cellAhead direction p (d.ahead direction r q - d.ahead direction r p) := by
    have hp' := cellAhead_ahead h direction r hp
    rw [← congrArg (d.cellAhead direction · _) hp', cellAhead_add h, Nat.add_sub_cancel' hle,
      cellAhead_ahead h direction r hq]
  rw [congrArg (d.ahead direction p) heq, ahead_cellAhead_of_lt h direction p (by omega)]

end Dimensions
end Velacritty
