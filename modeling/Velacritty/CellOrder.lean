import Velacritty.GridIteration
import Velacritty.ViMotions

/-! The cells of the grid, numbered in reading order from the first cell of the history. -/
namespace Velacritty
open Fallible

namespace Grid
variable {g : Grid Cell} {i : Nat}

def cellNo (g : Grid Cell) (i : Nat) : Option Cell := g.cellAt (g.dims.point i)

theorem cellNo_isSome (h : g.WF) (hi : i < g.dims.cells) : ∃ cell, g.cellNo i = some cell :=
  cellAt_isSome h hi

theorem iterFrom_next (h : g.WF) (hi : i < g.dims.cells) : (g.iterFrom (g.dims.point i)).next =
    if i + 1 < g.dims.cells then (g.cellNo (i + 1)).map fun cell =>
      (some (g.dims.point (i + 1), cell), g.iterFrom (g.dims.point (i + 1)))
    else some (none, g.iterFrom (g.dims.point i)) := by
  have hlast : g.dims.cells - 1 < g.dims.cells := Nat.sub_lt h.valid.cells_pos Nat.one_pos
  have hnext := next_eq h (.cell hi) hlast
  have hle : i + 1 ≤ g.dims.cells - 1 ↔ i + 1 < g.dims.cells := by omega
  rw [Dimensions.point_last h.valid] at hnext
  simp only [hle] at hnext
  exact hnext

theorem iterFrom_prev (h : g.WF) (hi : i < g.dims.cells) : (g.iterFrom (g.dims.point i)).prev =
    if 0 < i then (g.cellNo (i - 1)).map fun cell =>
      (some (g.dims.point (i - 1), cell), g.iterFrom (g.dims.point (i - 1)))
    else some (none, g.iterFrom (g.dims.point i)) :=
  prev_cell h hi

end Grid

namespace Term
variable {t : Term} {p : Point} {i : Nat}

theorem InGrid.exists_index (h : t.grid.WF) (hp : t.InGrid p) :
    ∃ i < t.dims.cells, p = t.dims.point i :=
  ⟨t.dims.index p, Dimensions.index_lt h.valid hp, (Dimensions.point_index hp).symm⟩

theorem iterFrom_next (h : t.grid.WF) (hi : i < t.dims.cells) : (t.grid.iterFrom (t.dims.point i)).next =
    if i + 1 < t.dims.cells then (t.grid.cellNo (i + 1)).map fun cell =>
      (some (t.dims.point (i + 1), cell), t.grid.iterFrom (t.dims.point (i + 1)))
    else some (none, t.grid.iterFrom (t.dims.point i)) := Grid.iterFrom_next h hi

theorem iterFrom_prev (h : t.grid.WF) (hi : i < t.dims.cells) : (t.grid.iterFrom (t.dims.point i)).prev =
    if 0 < i then (t.grid.cellNo (i - 1)).map fun cell =>
      (some (t.dims.point (i - 1), cell), t.grid.iterFrom (t.dims.point (i - 1)))
    else some (none, t.grid.iterFrom (t.dims.point i)) := Grid.iterFrom_prev h hi

theorem bottommost_eq (h : t.WF) : t.bottommostLine = t.topmostLine + t.dims.totalLines - 1 :=
  Dimensions.bottommostLine_eq h.grid.valid

theorem searchFuel_eq (t : Term) : t.searchFuel = t.dims.cells + 2 := rfl

end Term
end Velacritty
