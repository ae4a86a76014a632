import Velacritty.GridResizeSound
import Velacritty.ScrollLines
import Velacritty.TermSteps

/-! Changing the number of lines on screen keeps the text. -/
namespace Velacritty
open Fallible

namespace Grid
variable {T : Type} {g g' : Grid T} {target : Nat}

theorem decreaseScrollLimit_lines (hraw : g.raw.WF g.columns) (hvis : g.raw.visibleLines = g.lines)
    (count : Nat) : Allows (g.decreaseScrollLimit count) fun g' =>
      g'.historySize = g.historySize - count ∧
        ∀ l : Int, -(g'.historySize : Int) ≤ l → l < g.lines → g'.raw.get l = g.raw.get l := by
  intro g' hg'
  have hle := hraw.visible_le
  have hsize : g.historySize = g.raw.len - g.lines := g.historySize_eq
  simp only [decreaseScrollLimit, Option.bind_eq_bind] at hg'
  split at hg'
  · simp only [Option.bind_eq_some_iff, Option.some.injEq] at hg'
    obtain ⟨raw, hshrink, rfl⟩ := hg'
    obtain ⟨-, hrvis, hrlen, hkept⟩ := Storage.shrinkLines_get hraw (by omega) hshrink
    have hsize' : raw.len - g.lines = g.historySize - count := by omega
    refine ⟨hsize', fun l hlo hhi => hkept l ?_⟩
    simp only [historySize_eq] at hlo
    simp only [Storage.HasLine]
    omega
  · cases hg'
    exact ⟨by omega, fun l _ _ => rfl⟩

variable [GridCell T]

/-- The lines after their number was changed. They are `shift` lines further down than
before, and nothing else is on screen or in the history than blank lines at the bottom. -/
structure LinesKept (target : Nat) (shift : Int) (g g' : Grid T) : Prop where
  lines : g'.lines = target
  columns : g'.columns = g.columns
  cursor : g'.cursor = { g.cursor with point.line := g.cursor.point.line + shift }
  cursor_shown : 0 ≤ g'.cursor.point.line ∧ g'.cursor.point.line < target
  cursor_kept : g'.cursor.point.line < g.lines + shift
  historySize : (g'.historySize : Int) = min (g.historySize - shift) g.maxScrollLimit
  kept : ∀ l, -(g'.historySize : Int) ≤ l → l < target → l < g.lines + shift →
    g'.raw.get l = g.raw.get (l - shift)
  added : ∀ l, g.lines + shift ≤ l → l < target →
    ∃ row, g'.raw.get l = some row ∧ row.Fresh default g.columns

theorem LinesKept.refl (h : g.WF) : LinesKept g.lines 0 g g := by
  have hsize : g.historySize = g.raw.len - g.lines := g.historySize_eq
  have hmax := h.history_le
  refine ⟨rfl, rfl, ?_, ⟨h.cursor.line_nonneg, h.cursor.line_lt⟩, ?_, by omega, fun l _ _ _ => ?_,
    fun l hlo hhi => by omega⟩
  · rw [Int.add_zero]
  · rw [Int.add_zero]
    exact h.cursor.line_lt
  · rw [Int.sub_zero]

/-- How far down the lines go: new lines come from the history as long as there is any, and
the lines that no longer fit go up as far as the cursor asks for. -/
def lineShift (g : Grid T) (target : Nat) : Int :=
  if g.lines < target then (min g.historySize (target - g.lines) : Nat)
  else -((g.cursor.point.line.toNat + 1 - target : Nat) : Int)

/-- The larger screen before the history is cut: lines that could not be pulled from it are
scrolled in at the bottom, and the cached rows that stood for them go off at the top. -/
theorem growLines_scroll_lines (h : g.WF) (ht : g.lines ≤ target) {raw : Storage T}
    (hraw : g.raw.growVisibleLines target = some raw) {pulled added : Nat}
    (hadded : added = target - g.lines) (hpulled : pulled = min g.historySize added) :
    Allows (if pulled ≠ added then scrollUp { g with raw, lines := target } 0 target (added - pulled)
        else some { g with raw, lines := target })
      fun a => a.WF ∧ a.lines = target ∧ a.columns = g.columns ∧
        a.historySize - added = g.historySize - pulled ∧
        (∀ l : Int, -((g.historySize - pulled : Nat) : Int) ≤ l → l < g.lines + pulled →
          a.raw.get l = g.raw.get (l - pulled)) ∧
        ∀ l : Int, g.lines + pulled ≤ l → l < target → Cleared g a l := by
  have hvis := h.visible
  have hlines := h.lines_le
  have hmax := h.history_le
  obtain ⟨hgrown, hhist⟩ := (h.grown ht).of_eq hraw
  obtain ⟨-, -, -, hup⟩ := Storage.growVisibleLines_get h.raw (by omega) hraw
  rw [hvis, ← hadded] at hup
  have hsize : g.historySize = g.raw.len - g.lines := g.historySize_eq
  intro a ha
  split at ha
  · next hscroll =>
      have hregion : InRegion target 0 target := ⟨Int.le_refl 0, Int.natCast_nonneg _, Int.le_refl _⟩
      obtain ⟨hwf, -⟩ := (scrollUp_returns hgrown hregion fun _ => by omega).of_eq ha
      obtain ⟨hsame, hsize', hmoved, hcleared, -⟩ :=
        scrollUp_top_lines hgrown hregion.start_le hregion.stop_le a ha
      rw [hhist] at hsize'
      simp only at hsize'
      refine ⟨hwf, hsame.lines, hsame.columns, by omega, fun l hlo hhi => ?_, fun l hlo hhi => ?_⟩
      · rw [hmoved l (by omega) (by omega), show l + ((added - pulled : Nat) : Int) =
          l - pulled + added by omega]
        refine hup _ ?_
        simp only [Storage.HasLine]
        omega
      · exact hcleared l (by omega) hhi
  · next hall =>
      cases ha
      rw [not_ne_iff] at hall
      refine ⟨hgrown, rfl, rfl, by omega, fun l hlo hhi => ?_, fun l hlo hhi => ?_⟩
      · have hline := hup (l - pulled) (by simp only [Storage.HasLine]; omega)
        rw [← hline, hall, Int.sub_add_cancel]
      · omega

theorem growLines_lines (h : g.WF) (hdefault : g.cursor.template = default) (ht : g.lines ≤ target) :
    Allows (g.growLines target) (LinesKept target (min g.historySize (target - g.lines) : Nat) g) := by
  intro g' hg'
  obtain ⟨hwf, hlines, hcolumns, -, -, hcursor, -⟩ := (growLines_returns h ht).of_eq hg'
  simp only [growLines, Option.bind_eq_bind, Option.bind_eq_some_iff] at hg'
  obtain ⟨added, hadded, raw, hraw, a, ha, hg'⟩ := hg'
  rw [usub_eq_some] at hadded
  obtain ⟨-, rfl⟩ := hadded
  rw [((h.grown ht).of_eq hraw).2] at ha hg'
  obtain ⟨hawf, halines, hacolumns, hasize, hmoved, hcleared⟩ := growLines_scroll_lines h ht hraw rfl rfl a ha
  obtain ⟨hsize, hkept⟩ :=
    decreaseScrollLimit_lines (by exact hawf.raw) (by exact hawf.visible) _ g' hg'
  replace hsize := hsize.trans hasize
  have hmax := h.history_le
  have hsize' : g.historySize = g.raw.len - g.lines := g.historySize_eq
  have hcur := h.cursor.line_lt
  refine ⟨hlines, hcolumns, hcursor, ?_, ?_, ?_, fun l hlo hhi hold => ?_, fun l hlo hhi => ?_⟩
  · exact ⟨hwf.cursor.line_nonneg, hlines ▸ hwf.cursor.line_lt⟩
  · rw [hcursor]
    simp only
    omega
  · omega
  · rw [hkept l hlo (by simp only; omega)]
    exact hmoved l (by omega) hold
  · obtain ⟨row, hrow, hfresh⟩ := hcleared l hlo hhi
    rw [hdefault] at hfresh
    exact ⟨row, (hkept l (by omega) (by simp only; omega)).trans hrow, hfresh⟩

/-- The lines go up as far as the cursor asks for. -/
theorem shrinkLines_scroll_lines (h : g.WF) {required : Nat} (hle : required ≤ g.lines) :
    Allows (if 0 < required then do
        let a ← g.scrollUp 0 g.lines required
        some { a with cursor.point.line := min a.cursor.point.line ((target : Int) - 1) }
      else some g)
      fun a => a.raw.WF g.columns ∧ a.raw.visibleLines = g.lines ∧ a.lines = g.lines ∧
        a.historySize = min (g.historySize + required) g.maxScrollLimit ∧
        ∀ l : Int, -(a.historySize : Int) ≤ l → l < g.lines - required →
          a.raw.get l = g.raw.get (l + required) := by
  split
  · have hregion : InRegion g.lines 0 g.lines := ⟨Int.le_refl 0, Int.natCast_nonneg _, Int.le_refl _⟩
    refine Allows.bind (P := fun a : Grid T => a.WF ∧ g.SameScreen a ∧
      a.historySize = min (g.historySize + required) g.maxScrollLimit ∧
      ∀ l : Int, -(a.historySize : Int) ≤ l → l < g.lines - required →
        a.raw.get l = g.raw.get (l + required)) (fun a ha => ?_) fun a ha => .pure ?_
    · obtain ⟨hwf, -⟩ := (scrollUp_returns h hregion fun _ => by omega).of_eq ha
      obtain ⟨hsame, hsize, hmoved, -⟩ := scrollUp_top_lines h hregion.start_le hregion.stop_le a ha
      exact ⟨hwf, hsame, hsize, hmoved⟩
    · obtain ⟨hwf, hsame, hsize, hmoved⟩ := ha
      exact ⟨hsame.columns ▸ hwf.raw, hwf.visible.trans hsame.lines, hsame.lines, hsize, hmoved⟩
  · next hnone =>
      obtain rfl : required = 0 := by omega
      have hmax := h.history_le
      have hsize : g.historySize = g.raw.len - g.lines := g.historySize_eq
      refine .pure ⟨h.raw, h.visible, rfl, by omega, fun l _ _ => ?_⟩
      rw [Int.natCast_zero, Int.add_zero]

/-- The lines that are then still below the smaller screen are cut off. -/
theorem shrinkLines_lines (h : g.WF) (hpos : 1 ≤ target) (ht : target ≤ g.lines) :
    Allows (g.shrinkLines target)
      (LinesKept target (-((g.cursor.point.line.toNat + 1 - target : Nat) : Int)) g) := by
  have hlo := h.cursor.line_nonneg
  have hmove : min g.cursor.point.line ((target : Int) - 1) =
      g.cursor.point.line + -((g.cursor.point.line.toNat + 1 - target : Nat) : Int) := by
    omega
  intro g' hg'
  obtain ⟨hwf, hlines, hcolumns, -, -, hcursor, -⟩ := (shrinkLines_returns h hpos ht).of_eq hg'
  have hhi := h.cursor.line_lt
  simp only [shrinkLines, toUsize_of_nonneg hlo, Option.bind_eq_bind, Option.bind_some,
    Option.bind_eq_some_iff] at hg'
  obtain ⟨a, ha, removed, hremoved, b, hb, c, hc, hg'⟩ := hg'
  obtain ⟨hawf, havis, halines, hasize, hmoved⟩ := shrinkLines_scroll_lines h (by omega) a ha
  rw [halines, usub_eq_some] at hremoved
  obtain ⟨-, rfl⟩ := hremoved
  rw [← havis] at hb
  obtain ⟨-, hcvis, hclen, hkept⟩ := Storage.cutBottom_get hawf hpos (havis ▸ ht) hb hc
  cases hg'
  have hvis := hawf.visible_le
  have hasize' : a.historySize = a.raw.len - a.lines := a.historySize_eq
  have hsize : c.len - target = a.historySize := by omega
  refine ⟨rfl, hcolumns, ?_, ?_, ?_, ?_, fun l hlo hhi hold => ?_, fun l hlo hhi => ?_⟩
  · rw [hcursor, hmove]
  · exact ⟨hwf.cursor.line_nonneg, hlines ▸ hwf.cursor.line_lt⟩
  · rw [hcursor]
    simp only
    omega
  · simp only [historySize_eq] at hasize ⊢
    omega
  · simp only [historySize_eq] at hlo
    have hline : c.HasLine l := by
      simp only [Storage.HasLine]
      omega
    rw [Int.sub_neg, ← hmoved l (by omega) (by omega)]
    exact hkept l hline
  · omega

/-- Resizing to another number of lines moves all lines together with the cursor, drops the
oldest of them beyond the limit of the history, cuts off lines below the cursor, and blanks
the lines that are added. -/
theorem resize_lines (h : g.WF) (reflow : Bool) {lines : Nat} (hpos : 1 ≤ lines) :
    Returns (g.resize reflow lines g.columns) (LinesKept lines (g.lineShift lines) g) := by
  have hstart : WF { g with cursor.template := default } :=
    ⟨h.raw, h.visible, h.columns_pos, h.history_le, h.cursor, h.savedCursor⟩
  unfold resize
  refine Returns.bind (P := LinesKept lines (g.lineShift lines) { g with cursor.template := default })
    ?_ fun a ha => ?_
  · unfold lineShift
    split
    · next hlt =>
        obtain ⟨a, ha, -⟩ := growLines_returns hstart (Nat.le_of_lt hlt)
        exact ⟨a, ha, growLines_lines hstart rfl (Nat.le_of_lt hlt) a ha⟩
    · next hge =>
        split
        · next hlt =>
            obtain ⟨a, ha, -⟩ := shrinkLines_returns hstart hpos (Nat.le_of_lt hlt)
            exact ⟨a, ha, shrinkLines_lines hstart hpos (Nat.le_of_lt hlt) a ha⟩
        · next hle =>
            obtain rfl : lines = g.lines := Nat.le_antisymm (Nat.not_lt.mp hge) (Nat.not_lt.mp hle)
            have hline := h.cursor.line_lt
            rw [show g.cursor.point.line.toNat + 1 - g.lines = 0 by omega]
            exact .pure (LinesKept.refl hstart)
  · have hcolumns : a.columns = g.columns := ha.columns
    have hcursor : a.cursor = { g.cursor with
        template := default
        point.line := g.cursor.point.line + g.lineShift lines } := ha.cursor
    rw [if_neg (Nat.not_lt.mpr (Nat.le_of_eq hcolumns)),
      if_neg (Nat.not_lt.mpr (Nat.le_of_eq hcolumns.symm))]
    refine .pure ⟨ha.lines, hcolumns, ?_, ha.cursor_shown, ha.cursor_kept, ha.historySize, ha.kept, ha.added⟩
    rw [hcursor]

/-- A line comes back from the history when the screen gets one more. -/
theorem resize_lines_pulled : ∃ t : Term, t.Reachable .ascii .initial 5 2 ∧
    Returns (t.grid.resize true 4 2) fun g' =>
      g'.historySize = 0 ∧ g'.raw.get 0 = t.grid.raw.get (-1) := by
  have hrun : Term.Reachable .ascii .initial 5 2 _ :=
    .step (.step .refl
      (a := .resize 3 2) (And.intro (by decide) (by decide)) rfl)
      (a := .handler (.scrollUp 1)) trivial rfl
  have hwf := (Term.Reachable.wf hrun (by decide) (by decide)).grid
  have hresize : Returns (resize _ true 4 2) _ := resize_lines hwf true (by decide)
  refine ⟨_, hrun, hresize.mono fun g' hg' => ?_⟩
  have hsize : (g'.historySize : Int) = 0 := hg'.historySize
  refine ⟨Int.ofNat.inj hsize, hg'.kept 0 ?_ (by decide) (by decide)⟩
  rw [hsize]
  decide

end Grid
end Velacritty
