import Velacritty.TermSteps

/-! Relative cursor motions, and where they end up in origin mode. -/
namespace Velacritty
open Fallible

/-- A motion from the cursor's own line. -/
inductive CursorMotion where
  | up (lines : Nat)
  | down (lines : Nat)
  | upAndCr (lines : Nat)
  | downAndCr (lines : Nat)
  | toCol (col : Nat)
  deriving DecidableEq, Repr

namespace Term

/-- The line is on the screen, and in the scroll region if the cursor is confined to it. -/
def confine (t : Term) (line : Int) : Int :=
  if t.mode.origin ∧ t.regionStart ≤ t.grid.cursor.point.line ∧ t.grid.cursor.point.line < t.regionEnd
  then max t.regionStart (min line (t.regionEnd - 1))
  else max 0 (min line t.bottommostLine)

end Term

namespace CursorMotion

def step (t : Term) : CursorMotion → Option Term
  | up lines => t.moveUp lines
  | down lines => t.moveDown lines
  | upAndCr lines => t.moveUpAndCr lines
  | downAndCr lines => t.moveDownAndCr lines
  | toCol col => t.gotoCol col

def line (t : Term) : CursorMotion → Int
  | up lines => t.grid.cursor.point.line - lines
  | down lines => t.grid.cursor.point.line + lines
  | upAndCr lines => t.grid.cursor.point.line - lines
  | downAndCr lines => t.grid.cursor.point.line + lines
  | toCol _ => t.grid.cursor.point.line

def reference (t : Term) : CursorMotion → Point
  | up lines => ⟨t.confine (t.grid.cursor.point.line - lines), t.grid.cursor.point.column⟩
  | down lines => ⟨t.confine (t.grid.cursor.point.line + lines), t.grid.cursor.point.column⟩
  | upAndCr lines => ⟨t.confine (t.grid.cursor.point.line - lines), 0⟩
  | downAndCr lines => ⟨t.confine (t.grid.cursor.point.line + lines), 0⟩
  | toCol col => ⟨t.grid.cursor.point.line, min col t.lastColumn⟩

/-- In origin mode the line is counted from the start of the region once more. That makes
no difference if the region starts at the top, or if the clamping hides it. -/
def Unshifted (t : Term) (m : CursorMotion) : Prop :=
  t.mode.origin = true →
    if t.regionStart ≤ t.grid.cursor.point.line ∧ t.grid.cursor.point.line < t.regionEnd then
      t.regionStart = 0 ∨ t.regionEnd - 1 ≤ m.line t ∨ m.line t = 0 ∨
        t.regionEnd - 1 = t.regionStart ∧ 0 ≤ m.line t
    else
      max 0 (min (m.line t) t.bottommostLine) = t.regionEnd - 1 ∨
        t.regionStart = 0 ∧ m.line t < t.regionEnd ∨ m.line t + t.regionStart ≤ 0

end CursorMotion

namespace Term
variable {t t' : Term} {env : Env}

/-- The absolute motion: the cursor moves, and nothing else of the grid changes. -/
theorem goto_grid (line : Int) (col : Nat) : Allows (t.goto line col) fun t' =>
    t'.grid = { t.grid with cursor := { t.grid.cursor with
      inputNeedsWrap := false
      point := ⟨if t.mode.origin then max (min (line + t.regionStart) (t.regionEnd - 1)) 0
        else max (min line t.bottommostLine) 0, min col t.lastColumn⟩ } } := by
  intro t' ht'
  simp only [goto, Option.bind_eq_bind, Option.bind_eq_some_iff, Option.some.injEq] at ht'
  obtain ⟨a, ha, b, hb, rfl⟩ := ht'
  have hagrid := damageCursor_grid a ha
  have hbgrid := damageCursor_grid b hb
  have hlast : a.lastColumn = t.lastColumn := by
    simp only [lastColumn, dims, hagrid]
  simp only [setNeedsWrap, hbgrid, setCursorPoint, hagrid, hlast]
  congr 2
  split
  · rfl
  · rw [Int.add_zero]

/-- A line counted from the start of the region once more. -/
theorem shifted_iff (h : t.WF) (line : Int) :
    max (min (line + t.regionStart) (t.regionEnd - 1)) 0 =
      (if t.regionStart ≤ t.grid.cursor.point.line ∧ t.grid.cursor.point.line < t.regionEnd
        then max t.regionStart (min line (t.regionEnd - 1)) else max 0 (min line t.bottommostLine)) ↔
    if t.regionStart ≤ t.grid.cursor.point.line ∧ t.grid.cursor.point.line < t.regionEnd then
      t.regionStart = 0 ∨ t.regionEnd - 1 ≤ line ∨ line = 0 ∨ t.regionEnd - 1 = t.regionStart ∧ 0 ≤ line
    else
      max 0 (min line t.bottommostLine) = t.regionEnd - 1 ∨
        t.regionStart = 0 ∧ line < t.regionEnd ∨ line + t.regionStart ≤ 0 := by
  obtain ⟨hstart, hle, hstop⟩ := h.region
  have hpos := h.region_pos
  have hlines := h.grid.lines_pos
  have hbottom := bottommostLine_eq t
  split <;> omega

end Term

namespace CursorMotion
variable {t : Term} {env : Env} {config : Config} {lines columns : Nat}

theorem confine_cursor (h : t.WF) : t.confine t.grid.cursor.point.line = t.grid.cursor.point.line := by
  have hlo := h.grid.cursor.line_nonneg
  have hhi := h.grid.cursor.line_lt
  have hbottom := Term.bottommostLine_eq t
  unfold Term.confine
  split <;> omega

theorem reference_line (h : t.WF) (m : CursorMotion) : (m.reference t).line = t.confine (m.line t) := by
  cases m with
  | toCol col => exact (confine_cursor h).symm
  | up lines => rfl
  | down lines => rfl
  | upAndCr lines => rfl
  | downAndCr lines => rfl

theorem step_eq (h : t.WF) (m : CursorMotion) : ∃ col, m.step t = t.goto (m.line t) col ∧
    (m.reference t).column = min col t.lastColumn := by
  have hcol : t.grid.cursor.point.column = min t.grid.cursor.point.column t.lastColumn := by
    have hlt := h.grid.cursor.column_lt
    have hlast := Term.lastColumn_eq t
    omega
  cases m with
  | up lines => exact ⟨_, rfl, hcol⟩
  | down lines => exact ⟨_, rfl, hcol⟩
  | upAndCr lines => exact ⟨_, rfl, (Nat.zero_min _).symm⟩
  | downAndCr lines => exact ⟨_, rfl, (Nat.zero_min _).symm⟩
  | toCol col => exact ⟨_, rfl, rfl⟩

/-- In every reachable state a relative motion goes where it is to go, and leaves all cells
as they are, exactly if it is unshifted. -/
theorem step_reference_iff (hl : 1 ≤ lines) (hc : 2 ≤ columns)
    (ht : t.Reachable env config lines columns) (m : CursorMotion) :
    Returns (m.step t) fun t' =>
      (t'.grid.cursor.point = m.reference t ∧ t'.grid.raw = t.grid.raw) ↔ m.Unshifted t := by
  have hwf := Term.Reachable.wf ht hl hc
  obtain ⟨col, hstep, hcol⟩ := step_eq hwf m
  have href : m.reference t = ⟨t.confine (m.line t), min col t.lastColumn⟩ := by
    rw [← reference_line hwf m, ← hcol]
  rw [hstep]
  obtain ⟨t', ht', -⟩ := Term.goto_returns hwf (m.line t) col
  have hgrid := Term.goto_grid (m.line t) col t' ht'
  rw [ht']
  refine .pure ?_
  simp only [hgrid, and_true, href, Point.mk.injEq, Unshifted, Term.confine]
  cases t.mode.origin with
  | false =>
      simp only [Bool.false_eq_true, if_false, false_and, false_implies, iff_true]
      exact Int.max_comm _ _
  | true =>
      simp only [if_true, true_and, true_implies]
      exact Term.shifted_iff hwf (m.line t)

/-- Down from the home position of a region that starts at the top. -/
theorem step_reference_top : ∃ t : Term, t.Reachable .ascii .initial 3 2 ∧ t.mode.origin = true ∧
    t.regionEnd = 2 ∧ Returns ((down 1).step t) fun t' =>
      t'.grid.cursor.point = ⟨1, 0⟩ ∧ t'.grid.raw = t.grid.raw := by
  have hrun : Term.Reachable .ascii .initial 3 2 _ :=
    .step (.step .refl (a := .handler (.setScrollingRegion 1 (some 2))) (Nat.le_refl 1) rfl)
      (a := .handler (.setPrivateMode (.named .origin))) trivial rfl
  refine ⟨_, hrun, rfl, rfl, ?_⟩
  refine (step_reference_iff (by decide) (by decide) hrun (down 1)).mono fun t' ht' => ?_
  exact ht'.mpr fun _ => .inl rfl

/-- In origin mode, with the cursor on the first line of a region that starts below the
top, a motion to another column of the same line moves the cursor down. -/
theorem toCol_leaves_line : ∃ t t' : Term, t.Reachable .ascii .initial 4 2 ∧
    t.mode.origin = true ∧ t.regionStart = 1 ∧ t.regionEnd = 4 ∧ t.grid.cursor.point = ⟨1, 0⟩ ∧
    (toCol 1).step t = some t' ∧ t'.grid.cursor.point = ⟨2, 1⟩ ∧
    (toCol 1).reference t = ⟨1, 1⟩ := by
  have hrun : Term.Reachable .ascii .initial 4 2 _ :=
    .step (.step .refl (a := .handler (.setScrollingRegion 2 none)) (Nat.le_succ 1) rfl)
      (a := .handler (.setPrivateMode (.named .origin))) trivial rfl
  exact ⟨_, _, hrun, rfl, rfl, rfl, rfl, rfl, rfl, rfl⟩

end CursorMotion
end Velacritty
