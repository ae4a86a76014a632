import Velacritty.Rects

/-! Packing rectangles in rows that grow from the left, each above the row before. -/
namespace Velacritty

/-- The row that is being filled: its free place, its lower side and its tallest rectangle. -/
@[ext]
structure Shelf where
  extent : Int
  baseline : Int
  tallest : Int

namespace Shelf
variable {s : Shelf} {r : Rect} {placed : List Rect} {width height : Int}

/-- The free place of the row, for a rectangle of this size. -/
def slot (s : Shelf) (width height : Int) : Rect := ⟨s.extent, s.baseline, width, height⟩

/-- Put a rectangle at the free place. -/
def put (s : Shelf) (width height : Int) : Shelf :=
  ⟨s.extent + width, s.baseline, max s.tallest height⟩

/-- Start a row above the current one. -/
def next (s : Shelf) : Shelf := ⟨0, s.baseline + s.tallest, 0⟩

/-- The rectangle lies in a row below, or in the row to the left of the free place. -/
def Covers (s : Shelf) (r : Rect) : Prop :=
  r.y + r.height ≤ s.baseline ∨
    r.y = s.baseline ∧ r.x + r.width ≤ s.extent ∧ r.height ≤ s.tallest

theorem Covers.apart_slot (h : s.Covers r) : (s.slot width height).Apart r := by
  rcases h with hbelow | ⟨-, hleft, -⟩
  · exact .inr (.inr (.inr hbelow))
  · exact .inr (.inl hleft)

theorem Covers.put (h : s.Covers r) (hwidth : 0 ≤ width) : (s.put width height).Covers r := by
  rcases h with hbelow | ⟨hrow, hleft, htall⟩
  · exact .inl hbelow
  · refine .inr ⟨hrow, ?_, Int.le_trans htall (Int.le_max_left _ _)⟩
    exact Int.le_trans hleft (Int.le_add_of_nonneg_right hwidth)

theorem covers_slot : (s.put width height).Covers (s.slot width height) :=
  .inr ⟨rfl, Int.le_refl _, Int.le_max_right _ _⟩

theorem Covers.next (h : s.Covers r) (htallest : 0 ≤ s.tallest) : s.next.Covers r := by
  left
  have hnext : s.next.baseline = s.baseline + s.tallest := rfl
  rcases h with hbelow | ⟨hrow, -, htall⟩
  · omega
  · omega

/-- The rectangles are in rows up to the free place, and no two of them share a pixel. -/
structure Stores (s : Shelf) (placed : List Rect) : Prop where
  covers : ∀ r ∈ placed, s.Covers r
  apart : placed.Pairwise Rect.Apart

theorem Stores.empty (s : Shelf) : s.Stores [] where
  covers _ h := nomatch h
  apart := .nil

theorem Stores.next (h : s.Stores placed) (htallest : 0 ≤ s.tallest) : s.next.Stores placed where
  covers r hr := (h.covers r hr).next htallest
  apart := h.apart

theorem Stores.put (h : s.Stores placed) (hwidth : 0 ≤ width) :
    (s.put width height).Stores (s.slot width height :: placed) := by
  constructor
  · intro r hr
    rcases List.mem_cons.mp hr with rfl | hr
    · exact covers_slot
    · exact (h.covers r hr).put hwidth
  · apply List.Pairwise.cons
    · intro r hr
      exact (h.covers r hr).apart_slot
    · exact h.apart

theorem Stores.disjoint (h : s.Stores placed) :
    placed.Pairwise fun r t => Disjoint r.pixels t.pixels :=
  h.apart.imp Rect.Apart.disjoint

end Shelf
end Velacritty
