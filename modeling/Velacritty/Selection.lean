import Velacritty.Index

/-! Selections in the grid, as far as they move with its text. -/
namespace Velacritty

/-- Side of a cell, and horizontal direction. -/
inductive Side where
  | left
  | right
  deriving DecidableEq, Repr

structure Anchor where
  point : Point
  side : Side
  deriving DecidableEq, Repr

inductive SelectionType where
  | simple
  | block
  | semantic
  | lines
  deriving DecidableEq, Repr

/-- A region of a 2-dimensional area. The anchors are in the order they were made. -/
structure Selection where
  ty : SelectionType
  start : Anchor
  stop : Anchor
  deriving DecidableEq, Repr

namespace Selection

def new (ty : SelectionType) (location : Point) (side : Side) : Selection :=
  ⟨ty, ⟨location, side⟩, ⟨location, side⟩⟩

def update (s : Selection) (point : Point) (side : Side) : Selection :=
  { s with stop := ⟨point, side⟩ }

/-- Whether the anchors were made from the bottom up. -/
def isReversed (s : Selection) : Bool := decide (s.stop.point < s.start.point)

/-- Rotate the upper end of a selection; `none` if it leaves the region with the
lower one. -/
def rotateStart (ty : SelectionType) (d : Dimensions) (top bottom delta : Int) (start stop : Anchor) :
    Option Anchor :=
  if (top ≤ start.point.line ∨ top = 0) ∧ start.point.line < bottom then
    let line := min (start.point.line - delta) d.bottommostLine
    if bottom ≤ line ∧ stop.point.line < bottom then none
    else if line < top ∧ top ≠ 0 then
      if ty ≠ .block then some ⟨⟨top, 0⟩, .left⟩
      else some { start with point.line := top }
    else some { start with point.line := line }
  else some start

/-- Rotate the lower end of a selection; `none` if it overtakes the upper one. -/
def rotateStop (ty : SelectionType) (d : Dimensions) (top bottom delta : Int) (start stop : Anchor) :
    Option Anchor :=
  if (top ≤ stop.point.line ∨ top = 0) ∧ stop.point.line < bottom then
    let line := min (stop.point.line - delta) d.bottommostLine
    if line < start.point.line then none
    else if bottom ≤ line then
      if ty ≠ .block then some ⟨⟨bottom - 1, d.lastColumn⟩, .right⟩
      else some { stop with point.line := bottom - 1 }
    else some { stop with point.line := line }
  else some stop

/-- Move the selection along when the lines `top..bottom` scroll by `delta`. -/
def rotate (s : Selection) (d : Dimensions) (top bottom delta : Int) : Option Selection := do
  let (upper, lower) := if s.isReversed then (s.stop, s.start) else (s.start, s.stop)
  let upper ← rotateStart s.ty d top bottom delta upper lower
  let lower ← rotateStop s.ty d top bottom delta upper lower
  some (if s.isReversed then ⟨s.ty, lower, upper⟩ else ⟨s.ty, upper, lower⟩)

def isEmpty (s : Selection) : Bool :=
  match s.ty with
  | .simple =>
      let (start, stop) := if s.isReversed then (s.stop, s.start) else (s.start, s.stop)
      decide (start = stop ∨ start.side = .right ∧ stop.side = .left ∧
        start.point.line = stop.point.line ∧ start.point.column + 1 = stop.point.column)
  | .block =>
      let start := s.start
      let stop := s.stop
      decide (start.point.column = stop.point.column ∧ start.side = stop.side ∨
        start.point.column + 1 = stop.point.column ∧ start.side = .right ∧ stop.side = .left ∨
        stop.point.column + 1 = start.point.column ∧ start.side = .left ∧ stop.side = .right)
  | .semantic | .lines => false

/-- Check whether selection contains any point in the lines `top..=bottom`; a missing
bound is no bound. -/
def intersectsRange (s : Selection) (top bottom : Option Int) : Bool :=
  let upper := min s.start.point.line s.stop.point.line
  let lower := max s.start.point.line s.stop.point.line
  (bottom.all fun bottom => decide (upper ≤ bottom)) && (top.all fun top => decide (top ≤ lower))

/-- Expand selection sides to include all cells. -/
def includeAll (s : Selection) : Selection :=
  let start := s.start.point
  let stop := s.stop.point
  let swapped := match s.ty with
    | .block => decide (stop.column < start.column ∨ start.column = stop.column ∧ stop.line < start.line)
    | _ => decide (stop < start)
  let (startSide, stopSide) := if swapped then (Side.right, Side.left) else (Side.left, Side.right)
  { s with start.side := startSide, stop.side := stopSide }

/-- The line is one of those from the upper to the lower anchor. -/
def Covers (s : Selection) (line : Int) : Prop :=
  min s.start.point.line s.stop.point.line ≤ line ∧ line ≤ max s.start.point.line s.stop.point.line

theorem intersectsRange_iff (s : Selection) {top bottom : Int} (h : top ≤ bottom) :
    s.intersectsRange (some top) (some bottom) = true ↔
      ∃ line, top ≤ line ∧ line ≤ bottom ∧ s.Covers line := by
  unfold intersectsRange Covers
  simp only [Option.all_some, Bool.and_eq_true, decide_eq_true_eq]
  constructor
  · rintro ⟨hupper, hlower⟩
    exact ⟨max top (min s.start.point.line s.stop.point.line), by omega, by omega, by omega, by omega⟩
  · rintro ⟨line, htop, hbottom, hupper, hlower⟩
    exact ⟨by omega, by omega⟩

end Selection
end Velacritty
