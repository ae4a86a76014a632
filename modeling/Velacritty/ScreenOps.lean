import Velacritty.QuietOps

/-! Operations on the screen as a whole: regions, clearing, resets and sizes. -/
namespace Velacritty
open Fallible

namespace Term
variable {t t' a : Term} {S : Point → Prop}

/-! ### The scroll region -/

/-- The scroll region was set, if it was valid, and the cursor sent home. -/
inductive Regioned (top : Nat) (bottom : Option Nat) (t t' : Term) : Prop
  | invalid (hle : bottom.getD t.screenLines ≤ top) (h : t' = t)
  | home (regionStart regionEnd : Int) (hlt : top < bottom.getD t.screenLines)
      (hstart : regionStart = min ((top : Int) - 1) t.grid.lines)
      (hend : regionEnd = min (bottom.getD t.screenLines : Int) t.grid.lines)
      (hwf : WF { t with regionStart, regionEnd }) (h : Moved { t with regionStart, regionEnd } t')
      (hneeds : t'.grid.cursor.inputNeedsWrap = false)

theorem Regioned.wf {top : Nat} {bottom : Option Nat} (h : Regioned top bottom t t') (ht : t.WF) :
    t'.WF := by
  cases h with
  | invalid _ h => exact h ▸ ht
  | home _ _ _ _ _ hwf h _ => exact h.toEdited.wf hwf

theorem setScrollingRegion_returns (h : t.WF) {top : Nat} (htop : 1 ≤ top) (bottom : Option Nat) :
    Returns (t.setScrollingRegion top bottom) (Regioned top bottom t) := by
  have hlines := h.grid.lines_pos
  simp only [setScrollingRegion]
  split
  · next hle => exact .pure (.invalid hle rfl)
  · next hlt =>
      have hwf : WF { t with
          regionStart := min ((top : Int) - 1) t.screenLines
          regionEnd := min (bottom.getD t.screenLines : Int) t.screenLines } := by
        have hscreen : t.screenLines = t.grid.lines := rfl
        refine ⟨h.grid, h.inactiveGrid, h.inactive_lines, h.inactive_columns, h.two_le,
          ⟨?_, ?_, ?_⟩, ?_, h.tabs, h.damage, h.lastCursor⟩ <;> simp only <;> omega
      exact (goto_returns hwf 0 0).mono fun t' ht' =>
        .home _ _ (Nat.not_le.mp hlt) rfl rfl hwf ht'.1 ht'.2

/-! ### Lines -/

theorem insertBlankLines_returns (h : t.WF) (lines : Nat) :
    Returns (t.insertBlankLines lines) fun t' => t' = t ∨
      ScrolledDown t.grid.cursor.point.line t t' := by
  simp only [insertBlankLines]
  split
  · next hin =>
      exact (scrollDownRelative_returns h h.grid.cursor.line_nonneg (Int.le_of_lt hin.2) lines).mono
        fun _ => .inr
  · exact .pure (.inl rfl)

theorem deleteLines_returns (h : t.WF) (lines : Nat) :
    Returns (t.deleteLines lines) fun t' => t' = t ∨
      (t.regionStart ≤ t.grid.cursor.point.line ∧ t.grid.cursor.point.line < t.regionEnd) ∧
      ScrolledUp t.grid.cursor.point.line
        (min (t.screenLines - t.grid.cursor.point.line.toNat) lines) t t' := by
  have hlo := h.grid.cursor.line_nonneg
  have hhi := h.grid.cursor.line_lt
  have hscreen : t.screenLines = t.grid.lines := rfl
  simp only [deleteLines, toUsize_of_nonneg hlo,
    usub_of_le (show t.grid.cursor.point.line.toNat ≤ t.screenLines by omega), Option.bind_eq_bind,
    Option.bind_some]
  split
  · next hin =>
      exact (scrollUpRelative_returns h hlo (Int.le_of_lt hin.2.2) _).mono fun _ ht' =>
        .inr ⟨hin.2, ht'⟩
  · exact .pure (.inl rfl)

theorem newline_returns (h : t.WF) :
    Returns t.newline fun t' => ∃ a, Linefed t a ∧
      (t' = a ∨ Moved a t' ∧ t'.grid.cursor.inputNeedsWrap = false) ∧ a.WF := by
  refine (linefeed_returns h).bind fun a ha => ?_
  have hwf : a.WF := by
    cases ha with
    | scrolled _ ha => exact ha.wf
    | moved _ ha _ => exact ha.toEdited.wf h
    | stuck _ _ ha => exact ha ▸ h
  split
  · refine (carriageReturn_returns hwf).mono fun b hb => ⟨a, ha, .inr ⟨hb.1, ?_⟩, hwf⟩
    rw [hb.2]
  · exact .pure ⟨a, ha, .inl rfl, hwf⟩

/-! ### Filling and clearing -/

theorem resetRegion_returns (h : t.WF) {start stop : Int} (hstart : 0 ≤ start)
    (hlt : start < t.grid.lines) (hstop : stop ≤ t.grid.lines) :
    Returns (t.resetRegion start stop) (Drawn (fun _ => True) t) := by
  refine (Grid.resetRegion_returns h.grid hstart hlt hstop).bind fun g hg => .pure ?_
  exact drawn_of_sameSize hg fun _ hp => absurd trivial hp

/-- The whole screen may have been drawn, and is damaged. -/
structure Redone (t t' : Term) : Prop extends Edited (fun _ => True) t t' where
  full : t'.damageState.full = true
  cursor : t'.grid.cursor = t.grid.cursor

theorem Drawn.redone (h : Drawn S t a) : Redone t a.markFullyDamaged :=
  ⟨(h.mono fun _ _ => trivial).toEdited.trans
    (markFullyDamaged_drawn h.toEdited.grid_wf).toEdited, rfl, h.cursor⟩

theorem decaln_returns (h : t.WF) : Returns t.decaln (Redone t) := by
  refine Returns.bind (P := Drawn (fun _ => True) t) ?_ fun a ha => .pure ha.redone
  refine Returns.foldlM (.refl h.grid) fun a ha line hline => ?_
  refine Returns.foldlM ha fun b hb column hcolumn => ?_
  rw [mem_lineRange] at hline
  rw [List.mem_range] at hcolumn
  have hbwf := hb.toEdited.wf h
  have htop := hbwf.topmostLine_le
  refine (modifyCell_returns (p := ⟨line, column⟩) hbwf (by simp only; omega) ?_ ?_ _).mono
    fun c hc => hb.trans (hc.1.mono fun _ _ => trivial)
  · rw [hb.toEdited.lines]
    exact hline.2
  · rw [hb.toEdited.columns, ← ha.toEdited.columns]
    exact hcolumn

theorem deselect_redone (h : Drawn S t a) (top bottom : Option Int) :
    Redone t (a.deselect top bottom).markFullyDamaged := by
  have hredone := h.redone
  refine ⟨⟨?_, hredone.grid_rest, hredone.grid_wf, hredone.len, hredone.cells, hredone.damage⟩,
    rfl, h.cursor⟩
  rw [h.toEdited.rest]
  rfl

theorem clearAbove_returns (h : t.WF) :
    Returns (t.clearAbove >>= fun a => some a.markFullyDamaged) (Redone t) := by
  have htop := h.topmostLine_le
  have hlo := h.grid.cursor.line_nonneg
  have hhi := h.grid.cursor.line_lt
  have hpos := h.grid.lines_pos
  simp only [clearAbove]
  rw [Option.bind_eq_bind, Option.bind_assoc]
  refine Returns.bind (P := Drawn (fun _ => True) t) ?_ fun a ha => ?_
  · split
    · exact resetRegion_returns h (Int.le_refl 0) (by omega) (by omega)
    · exact .pure (.refl h.grid)
  · have hwf := ha.toEdited.wf h
    have htopa := hwf.topmostLine_le
    rw [Option.bind_assoc]
    refine (modifyRow_returns hwf (by omega) ?_ (fun _ => True) fun r hr => ?_).bind fun b hb => .pure ?_
    · rw [ha.toEdited.lines]
      exact hhi
    · refine (Row.modifyRange_returns hr (Nat.zero_le _) (Nat.min_le_right _ _) _).mono fun r' hr' => ?_
      exact ⟨hr'.1, fun c hc => absurd trivial hc⟩
    · exact deselect_redone (ha.trans (hb.1.mono fun _ _ => trivial)) _ _

theorem clearBelow_returns (h : t.WF) :
    Returns (t.clearBelow >>= fun a => some a.markFullyDamaged) (Redone t) := by
  have htop := h.topmostLine_le
  have hlo := h.grid.cursor.line_nonneg
  have hhi := h.grid.cursor.line_lt
  have hcol := h.grid.cursor.column_lt
  have hpos := h.grid.lines_pos
  simp only [clearBelow, toUsize_of_nonneg hlo, Option.bind_eq_bind, Option.bind_some,
    Option.bind_assoc]
  refine (modifyRow_returns h (by omega) hhi (fun _ => True) fun r hr => ?_).bind fun a ha => ?_
  · have hlen := hr.len_eq
    refine (Row.modifyRange_returns hr (by omega) (Nat.le_of_eq hlen) _).mono fun r' hr' => ?_
    exact ⟨hr'.1, fun c hc => absurd trivial hc⟩
  · have hwf := ha.1.toEdited.wf h
    have hscreen : a.screenLines = t.grid.lines := ha.1.toEdited.lines
    simp only [hscreen, usub_of_le hpos, Option.bind_some]
    refine Returns.bind (P := Drawn (fun _ => True) a) ?_ fun b hb => .pure ?_
    · split
      · refine resetRegion_returns hwf (by omega) ?_ ?_
        · rw [ha.1.toEdited.lines]
          omega
        · rw [ha.1.toEdited.lines]
      · exact .pure (.refl hwf.grid)
    · exact deselect_redone ((ha.1.mono fun _ _ => trivial).trans hb) _ _

/-- The grid changed by one of its operations, and the damage is full. -/
structure Regridded (op : GridOp Cell) (t t' : Term) : Prop where
  rest : t' = { t with
    grid := t'.grid, viModeCursor := t'.viModeCursor, selection := t'.selection
    damageState := { t.damageState with full := true } }
  admissible : op.Admissible 1 t.grid
  grid : op.step t.grid = some t'.grid
  same : t.grid.SameScreen t'.grid
  wf : t'.WF

inductive Cleared (t t' : Term) : Prop
  | redone (h : Redone t t')
  | viewport (h : Regridded .clearViewport t t')
      (hvi : t'.viModeCursor = { t.viModeCursor with
        line := lineGridClamp
          (t.viModeCursor.line - (t'.grid.displayOffset - t.grid.displayOffset : Nat)) t'.dims .grid })
  | history (h : Regridded .clearHistory t t')
      (hvi : t'.viModeCursor = { t.viModeCursor with
        line := lineGridClamp t.viModeCursor.line t'.dims .cursor })

theorem clearScreen_returns (h : t.WF) (mode : ClearMode) :
    Returns (t.clearScreen mode) (Cleared t) := by
  have hpos := h.grid.lines_pos
  cases mode with
  | above => exact (clearAbove_returns h).mono fun _ => .redone
  | below => exact (clearBelow_returns h).mono fun _ => .redone
  | all =>
      simp only [clearScreen, clearAll]
      split
      · refine Returns.bind (P := fun a => Redone t a.markFullyDamaged) ?_ fun a ha => .pure (.redone ha)
        refine (resetRegion_returns h (Int.le_refl 0) (Int.ofNat_lt.mpr hpos) (Int.le_refl _)).bind
          fun a ha => .pure ?_
        have hredone := ha.redone
        refine ⟨⟨?_, hredone.grid_rest, hredone.grid_wf, hredone.len, hredone.cells, hredone.damage⟩,
          rfl, ha.cursor⟩
        rw [ha.toEdited.rest]
        rfl
      · obtain ⟨g, hg, hwf, hsame, -⟩ := Grid.clearViewport_returns h.grid
        simp only [hg, Option.bind_eq_bind, Option.bind_some]
        exact .pure (.viewport ⟨rfl, trivial, hg, hsame, h.withGrid hwf hsame rfl⟩ rfl)
  | saved =>
      simp only [clearScreen, clearSaved]
      split
      · obtain ⟨g, hg, hwf, hsame, -⟩ := Grid.clearHistory_returns h.grid
        simp only [hg, Option.bind_eq_bind, Option.bind_some]
        exact .pure (.history ⟨rfl, trivial, hg, hsame, h.withGrid hwf hsame rfl⟩ rfl)
      · exact .pure (.redone (Drawn.redone (S := fun _ => True) (.refl h.grid)))

theorem Cleared.wf (h : Cleared t t') (ht : t.WF) : t'.WF := by
  cases h with
  | redone h => exact h.toEdited.wf ht
  | viewport h _ => exact h.wf
  | history h _ => exact h.wf

theorem deccolm_returns (h : t.WF) :
    Returns t.deccolm fun t' => ∃ a, Regioned 1 none t a ∧ Redone a t' := by
  refine (setScrollingRegion_returns h (Nat.le_refl 1) none).bind fun a ha => ?_
  have hwf := ha.wf h
  refine (resetRegion_returns hwf (Int.le_refl 0) (Int.ofNat_lt.mpr hwf.grid.lines_pos)
    (Int.le_refl _)).bind fun b hb => .pure ⟨a, ha, hb.redone⟩

end Term
end Velacritty
