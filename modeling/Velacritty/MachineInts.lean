import Mathlib.Algebra.Group.Int.Defs
import Mathlib.Algebra.Group.Nat.Defs
import Mathlib.Order.Basic

/-! Machine integers: what arithmetic of a fixed width keeps of an integer. -/
namespace Velacritty
variable {x : Int}

/-- The value of an `i32` after arithmetic that wraps around. -/
def i32 (x : Int) : Int := x.bmod (2 ^ 32)

/-- The value of an `i16` after a cast that truncates. -/
def i16 (x : Int) : Int := x.bmod (2 ^ 16)

theorem i32_of_fits (hlow : -2 ^ 31 ≤ x) (hhigh : x < 2 ^ 31) : i32 x = x := by
  unfold i32
  apply Int.bmod_eq_of_le_mul_two
  · omega
  · omega

/-- The value of a `u32` after arithmetic that wraps around. -/
def u32 (n : Nat) : Nat := n % 2 ^ 32

theorem u32_of_lt {n : Nat} (h : n < 2 ^ 32) : u32 n = n := Nat.mod_eq_of_lt h

/-- `usize::wrapping_sub`. -/
def wrappingSub (a b : Nat) : Nat := (a + (2 ^ 64 - b)) % 2 ^ 64

theorem wrappingSub_of_le {a b : Nat} (hle : b ≤ a) (ha : a < 2 ^ 64) : wrappingSub a b = a - b := by
  unfold wrappingSub
  have hsum : a + (2 ^ 64 - b) = a - b + 2 ^ 64 := by omega
  rw [hsum, Nat.add_mod_right, Nat.mod_eq_of_lt (by omega)]

/-- The value of an integer as an `f32`: its first 24 bits, rounded to the nearest value, and to an
even one of two. -/
def f32OfNat (n : Nat) : Nat :=
  if n < 2 ^ 24 then n
  else
    let unit := 2 ^ (n.log2 - 23)
    let last := n / unit
    if 2 * (n % unit) < unit ∨ 2 * (n % unit) = unit ∧ last % 2 = 0 then last * unit
    else (last + 1) * unit

theorem f32OfNat_le (n : Nat) : f32OfNat n ≤ n + n / 2 := by
  unfold f32OfNat
  split
  · omega
  · next hlarge =>
      have hlog : 24 ≤ n.log2 := (Nat.le_log2 (by omega)).mpr (Nat.not_lt.mp hlarge)
      have hunit : 2 * 2 ^ (n.log2 - 23) ≤ n := by
        have hself : 2 ^ n.log2 ≤ n := Nat.log2_self_le (by omega)
        refine Nat.le_trans ?_ hself
        rw [Nat.mul_comm, ← Nat.pow_succ]
        exact Nat.pow_le_pow_right (by omega) (by omega)
      have hlast := Nat.div_mul_le_self n (2 ^ (n.log2 - 23))
      simp only
      generalize 2 ^ (n.log2 - 23) = unit at hunit hlast
      split
      · omega
      · rw [Nat.succ_mul]
        omega

theorem i32_natCast {n : Nat} (h : n < 2 ^ 31) : i32 n = n :=
  i32_of_fits (by omega) (by omega)

end Velacritty
