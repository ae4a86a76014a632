import Mathlib.Data.Set.Lattice
import Mathlib.Order.CompletePartialOrder

/-! Rectangles of pixels: which lie inside others, and which share no pixel. -/
namespace Velacritty

/-- A rectangle of pixels: its corner with the least coordinates, and its size. -/
@[ext]
structure Rect where
  x : Int
  y : Int
  width : Int
  height : Int
  deriving DecidableEq, Repr

namespace Rect
variable {r s t : Rect}

def pixels (r : Rect) : Set (Int × Int) :=
  {p | r.x ≤ p.1 ∧ p.1 < r.x + r.width ∧ r.y ≤ p.2 ∧ p.2 < r.y + r.height}

/-- No side of the rectangle lies out of the other one. -/
structure Inside (r s : Rect) : Prop where
  left : s.x ≤ r.x
  right : r.x + r.width ≤ s.x + s.width
  bottom : s.y ≤ r.y
  top : r.y + r.height ≤ s.y + s.height

theorem Inside.refl (r : Rect) : r.Inside r := by
  constructor <;> apply Int.le_refl

theorem Inside.trans (hrs : r.Inside s) (hst : s.Inside t) : r.Inside t where
  left := Int.le_trans hst.left hrs.left
  right := Int.le_trans hrs.right hst.right
  bottom := Int.le_trans hst.bottom hrs.bottom
  top := Int.le_trans hrs.top hst.top

/-- A vertical or a horizontal line lies between the rectangles. -/
def Apart (r s : Rect) : Prop :=
  r.x + r.width ≤ s.x ∨ s.x + s.width ≤ r.x ∨ r.y + r.height ≤ s.y ∨ s.y + s.height ≤ r.y

theorem Apart.disjoint (h : r.Apart s) : Disjoint r.pixels s.pixels := by
  apply Set.disjoint_left.mpr
  intro p hr hs
  obtain ⟨hr₁, hr₂, hr₃, hr₄⟩ := hr
  obtain ⟨hs₁, hs₂, hs₃, hs₄⟩ := hs
  rcases h with h | h | h | h
  · omega
  · omega
  · omega
  · omega

/-- The smallest rectangle that contains both. -/
def hull (r s : Rect) : Rect :=
  let left := min r.x s.x
  let bottom := min r.y s.y
  ⟨left, bottom, max (r.x + r.width) (s.x + s.width) - left,
    max (r.y + r.height) (s.y + s.height) - bottom⟩

theorem inside_hull_left (r s : Rect) : r.Inside (r.hull s) := by
  constructor
  · exact Int.min_le_left _ _
  · simp only [hull]
    omega
  · exact Int.min_le_left _ _
  · simp only [hull]
    omega

theorem inside_hull_right (r s : Rect) : s.Inside (r.hull s) := by
  constructor
  · exact Int.min_le_right _ _
  · simp only [hull]
    omega
  · exact Int.min_le_right _ _
  · simp only [hull]
    omega

/-- What contains both contains the smallest one. -/
theorem Inside.hull (hr : r.Inside t) (hs : s.Inside t) : (r.hull s).Inside t := by
  obtain ⟨hr₁, hr₂, hr₃, hr₄⟩ := hr
  obtain ⟨hs₁, hs₂, hs₃, hs₄⟩ := hs
  constructor
  · exact Int.le_min.mpr ⟨hr₁, hs₁⟩
  · simp only [Rect.hull]
    omega
  · exact Int.le_min.mpr ⟨hr₃, hs₃⟩
  · simp only [Rect.hull]
    omega

end Rect
end Velacritty
