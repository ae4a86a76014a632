import Velacritty.ScrollLines
import Velacritty.TermSteps

/-! Clearing the viewport moves its used lines to the history. -/
namespace Velacritty
open Fallible

/-- One more than the last number below `n` that is used, or zero. -/
def lastUsed (used : Nat → Bool) : Nat → Nat
  | 0 => 0
  | n + 1 => if used n then n + 1 else lastUsed used n

theorem lastUsed_eq {used : Nat → Bool} {n k : Nat} (hk : k ≤ n)
    (hunused : ∀ j, k ≤ j → j < n → used j = false) (hused : ∀ j, j + 1 = k → used j = true) :
    lastUsed used n = k := by
  induction n with
  | zero => exact (Nat.le_zero.mp hk).symm
  | succ n ih =>
      unfold lastUsed
      by_cases heq : k = n + 1
      · rw [if_pos (hused n heq.symm), heq]
      · have hle : k ≤ n := by omega
        rw [if_neg (Bool.eq_false_iff.mp (hunused n hle (Nat.lt_succ_self n)))]
        exact ih hle fun j hlo hhi => hunused j hlo (Nat.lt_succ_of_lt hhi)

namespace Grid
variable {T : Type} {g g' : Grid T}

/-- What a step back returns: the cell that it reached, or none at the first cell of all. -/
theorem prev_item (it : GridIterator T) : Allows it.prev fun r =>
    (r.1 = none → it.point ≤ ⟨it.grid.dims.topmostLine, 0⟩) ∧
      ∀ p cell, r.1 = some (p, cell) → it.grid.cellAt p = some cell := by
  unfold GridIterator.prev
  split
  · next hend => exact .pure ⟨fun _ => hend, fun _ _ h => by cases h⟩
  · intro r hr
    simp only [Option.bind_eq_bind, Option.bind_eq_some_iff, Option.some.injEq] at hr
    obtain ⟨cell, hcell, rfl⟩ := hr
    refine ⟨(by cases ·), fun p cell' heq => ?_⟩
    obtain ⟨hp, rfl⟩ := Prod.mk.inj (Option.some.inj heq)
    rw [← hp]
    exact hcell

variable [GridCell T]

def lineUsed (g : Grid T) (line : Int) : Bool :=
  (g.raw.get line).any fun row => row.inner.any fun cell => !GridCell.isEmpty cell

/-- The number of lines of the screen up to and including the last used one. -/
def usedLines (g : Grid T) : Nat := lastUsed (fun line => g.lineUsed line) g.lines

theorem lineUsed_of_cell {line : Int} {column : Nat} {cell : T}
    (hcell : g.cellAt ⟨line, column⟩ = some cell) (hempty : GridCell.isEmpty cell = false) :
    g.lineUsed line = true := by
  simp only [cellAt, Option.bind_eq_bind, Option.bind_eq_some_iff] at hcell
  obtain ⟨row, hrow, hget⟩ := hcell
  rw [lineUsed, hrow, Option.any_some, List.any_eq_true]
  exact ⟨cell, List.mem_of_getElem? hget, by rw [hempty]; rfl⟩

theorem lineUsed_eq_false {line : Int}
    (h : ∀ column cell, g.cellAt ⟨line, column⟩ = some cell → GridCell.isEmpty cell = true) :
    g.lineUsed line = false := by
  refine Bool.eq_false_iff.mpr fun hused => ?_
  rw [lineUsed, Option.any_eq_true] at hused
  obtain ⟨row, hrow, hused⟩ := hused
  obtain ⟨cell, hmem, hcell⟩ := List.any_eq_true.mp hused
  obtain ⟨column, hget⟩ := List.getElem?_of_mem hmem
  have hat : g.cellAt ⟨line, column⟩ = some cell := by
    simp only [cellAt, hrow, Option.bind_eq_bind, Option.bind_some]
    exact hget
  rw [h column cell hat] at hcell
  cases hcell

structure Searching (g : Grid T) (it : GridIterator T) : Prop where
  grid : it.grid = g
  line_nonneg : 0 ≤ it.point.line
  line_lt : it.point.line < g.lines
  column_le : it.point.column ≤ g.columns
  below : ∀ line, it.point.line < line → line < g.lines → g.lineUsed line = false
  right : ∀ column cell, it.point.column ≤ column →
    g.cellAt ⟨it.point.line, column⟩ = some cell → GridCell.isEmpty cell = true

/-- The search for the last used line finds it. Without one it ends above the screen, or at
the first line if there is no history. -/
theorem prevWhile_used (h : g.WF) : Allows
    ((g.iterFrom ⟨(g.lines : Int) - 1, g.columns⟩).prevWhile
      (fun point cell => GridCell.isEmpty cell && decide (0 ≤ point.line)) (g.lines * g.columns + 2))
    fun it => it.point.line + 1 =
      if g.historySize = 0 ∧ g.usedLines = 0 then 1 else (g.usedLines : Int) := by
  have hlines := h.lines_pos
  refine loop_allows (P := g.Searching) ?_ ?_
  · refine ⟨rfl, ?_, ?_, Nat.le_refl _, fun line hlo hhi => ?_, fun column cell hle hcell => ?_⟩
    · simp only [iterFrom]
      omega
    · simp only [iterFrom]
      omega
    · simp only [iterFrom] at hlo
      omega
    · exact absurd (inGrid_of_cellAt h hcell).2.2 (Nat.not_lt.mpr hle)
  · rintro ⟨grid, ⟨line, column⟩, stop⟩ ⟨hgrid, hlo, hhi, hcol, hbelow, hright⟩ r hr
    simp only at hgrid hlo hhi hcol hbelow hright
    subst hgrid
    have htop : grid.dims.topmostLine = -(grid.historySize : Int) := rfl
    simp only [Option.bind_eq_bind, Option.bind_eq_some_iff] at hr
    obtain ⟨⟨item, it⟩, hprev, hr⟩ := hr
    obtain ⟨hend, hcell⟩ := prev_item _ _ hprev
    rcases (prev_returns h (by omega) hhi hcol).of_eq hprev with hnone | ⟨line', column', cell, heq, hline, hmove⟩
    · obtain ⟨rfl, rfl⟩ := hnone
      cases hr
      have hfirst := hend rfl
      rw [Point.le_def] at hfirst
      simp only at hfirst
      obtain rfl : line = 0 := by omega
      obtain rfl : column = 0 := by omega
      have hunused : grid.usedLines = 0 := by
        refine lastUsed_eq (Nat.zero_le _) (fun j _ hj => ?_) fun j hj => by cases hj
        by_cases hzero : j = 0
        · subst hzero
          exact lineUsed_eq_false fun column cell => hright column cell (Nat.zero_le column)
        · exact hbelow j (by omega) (Int.ofNat_lt.mpr hj)
      rw [Sum.elim_inl, if_pos ⟨by omega, hunused⟩]
      rfl
    · obtain ⟨rfl, rfl⟩ := Prod.mk.inj heq
      have hat := hcell ⟨line', column'⟩ cell rfl
      have hdone : ∀ l : Int, line' < l → l < grid.lines → grid.lineUsed l = false := by
        intro l hgt hlt
        rcases hmove with ⟨rfl, -⟩ | ⟨rfl, rfl, -⟩
        · exact hbelow l hgt hlt
        · by_cases heq : l = line
          · rw [heq]
            exact lineUsed_eq_false fun column cell => hright column cell (Nat.zero_le column)
          · exact hbelow l (by omega) hlt
      simp only at hr
      split at hr
      · next hskip =>
          cases hr
          rw [Bool.and_eq_true, decide_eq_true_eq] at hskip
          obtain ⟨hempty, hscreen⟩ := hskip
          refine ⟨rfl, hscreen, by simp only; omega, by simp only; omega, hdone, fun c other hle hc => ?_⟩
          by_cases heq : c = column'
          · subst heq
            exact Option.some.inj (hat.symm.trans hc) ▸ hempty
          · rcases hmove with ⟨rfl, rfl⟩ | ⟨rfl, rfl, hlast⟩
            · exact hright c other (by simp only at hle; omega) hc
            · have hin := (inGrid_of_cellAt h hc).2.2
              simp only at hle hin
              omega
      · next hstop =>
          cases hr
          rw [Bool.and_eq_true, decide_eq_true_eq] at hstop
          by_cases hscreen : 0 ≤ line'
          · obtain ⟨n, rfl⟩ := Int.eq_ofNat_of_zero_le hscreen
            have hempty : GridCell.isEmpty cell = false :=
              Bool.eq_false_iff.mpr fun hempty => hstop ⟨hempty, hscreen⟩
            have hused : grid.usedLines = n + 1 := by
              refine lastUsed_eq (by omega) (fun j hle hlt => hdone j (by omega) (by omega)) fun j hj => ?_
              obtain rfl : j = n := by omega
              exact lineUsed_of_cell hat hempty
            rw [Sum.elim_inl, if_neg fun hnone => by omega, hused]
            rfl
          · have hused : grid.usedLines = 0 :=
              lastUsed_eq (Nat.zero_le _) (fun j _ hlt => hdone j (by omega) (by omega)) fun j hj => by cases hj
            rw [Sum.elim_inl, if_neg fun hnone => by omega, hused]
            simp only
            omega

/-- The number of lines that leave the screen: without a history also an empty screen
counts as one. -/
def pushedLines (g : Grid T) : Nat :=
  if g.historySize = 0 ∧ g.usedLines = 0 then 1 else g.usedLines

structure Pushed (positions : Nat) (g g' : Grid T) : Prop where
  screen : g.SameScreen g'
  historySize : g'.historySize = min (g.historySize + positions) g.maxScrollLimit
  history : ∀ l : Int, -(g'.historySize : Int) ≤ l → l < 0 →
    g'.raw.get l = g.raw.get (l + positions)
  cleared : ∀ l : Int, 0 ≤ l → l < g.lines → Cleared g g' l

theorem clearViewport_lines (h : g.WF) : Returns g.clearViewport (Pushed g.pushedLines g) := by
  obtain ⟨g', hg', -⟩ := clearViewport_returns h
  refine ⟨g', hg', ?_⟩
  simp only [clearViewport, Option.bind_eq_bind, Option.bind_eq_some_iff] at hg'
  obtain ⟨it, hit, positions, hpos, a, ha, rest, hrest, hg'⟩ := hg'
  have hpositions : positions = g.pushedLines := by
    have hline := prevWhile_used h it hit
    rw [toUsize_eq_some, hline] at hpos
    apply Int.ofNat.inj
    rw [pushedLines, Int.ofNat_eq_natCast, ← hpos]
    split
    · rfl
    · rfl
  have hbound := ((prevWhile_returns h).of_eq hit).2
  rw [toUsize_eq_some, hpositions] at hpos
  subst hpositions
  obtain ⟨hwf, -⟩ := (scrollUp_returns h ⟨Int.le_refl 0, Int.natCast_nonneg _, Int.le_refl _⟩
    fun _ => by omega).of_eq ha
  obtain ⟨hsame, hsize, hmoved, hcleared, -⟩ :=
    scrollUp_top_lines h (Int.natCast_nonneg _) (Int.le_refl _) a ha
  rw [hsame.lines, usub_eq_some] at hrest
  obtain ⟨hle, rfl⟩ := hrest
  obtain ⟨-, hsame', hsize', hreset, hkept⟩ := resetLines_lines hwf _ g' hg'
  refine ⟨hsame.trans hsame', hsize'.trans hsize, fun l hlo hneg => ?_, fun l hlo hhi => ?_⟩
  · rw [hkept l fun hmem => ?_, hmoved l (hsize' ▸ hlo) (by omega)]
    rw [mem_lineRange] at hmem
    omega
  · by_cases hrest : l < (g.lines - g.pushedLines : Nat)
    · obtain ⟨row, hrow, hfresh⟩ := hreset l (mem_lineRange.mpr ⟨hlo, hrest⟩)
      rw [hsame.cursor, hsame.columns] at hfresh
      exact ⟨row, hrow, hfresh⟩
    · obtain ⟨row, hrow, hfresh⟩ := hcleared l (by omega) hhi
      refine ⟨row, (hkept l fun hmem => ?_).trans hrow, hfresh⟩
      rw [mem_lineRange] at hmem
      exact hrest hmem.2

/-- Exactly the used lines leave the screen, except if an empty screen without a history is
cleared and the history has room. -/
theorem clearViewport_pushes_iff (h : g.WF) : Returns g.clearViewport fun g' =>
    Pushed g.usedLines g g' ↔ g.historySize ≠ 0 ∨ g.usedLines ≠ 0 ∨ g.maxScrollLimit = 0 := by
  refine (clearViewport_lines h).mono fun g' hg' => ?_
  by_cases hnone : g.historySize = 0 ∧ g.usedLines = 0
  · obtain ⟨hhist, hused⟩ := hnone
    have hpushed : g.pushedLines = 1 := if_pos ⟨hhist, hused⟩
    rw [hpushed] at hg'
    constructor
    · intro hexact
      have hsize := hexact.historySize
      rw [hg'.historySize] at hsize
      omega
    · intro hcond
      refine ⟨hg'.screen, ?_, fun l hlo hneg => ?_, hg'.cleared⟩
      · rw [hg'.historySize]
        omega
      · have hsize := hg'.historySize
        omega
  · rw [pushedLines, if_neg hnone] at hg'
    refine iff_of_true hg' ?_
    by_cases hhist : g.historySize = 0
    · exact .inr (.inl fun hused => hnone ⟨hhist, hused⟩)
    · exact .inl hhist

/-- The first line of a screen of two lines is used. -/
theorem clearViewport_pushes_first : ∃ t : Term, t.Reachable .ascii .initial 4 2 ∧
    t.grid.usedLines = 1 ∧ Returns t.grid.clearViewport (Pushed 1 t.grid) := by
  have hrun : Term.Reachable .ascii .initial 4 2 _ :=
    .step (.step .refl
      (a := .resize 2 2) (And.intro (by decide) (by decide)) rfl)
      (a := .handler (.input 'a')) trivial rfl
  have hwf := (Term.Reachable.wf hrun (by decide) (by decide)).grid
  have hiff : Returns (clearViewport _) _ := clearViewport_pushes_iff hwf
  exact ⟨_, hrun, by decide, hiff.mono fun g' hg' => hg'.mpr (.inr (.inl (by decide)))⟩

/-- Clearing an empty screen without a history leaves a blank line in the history. -/
theorem clearViewport_pushes_blank : ∃ (t t' : Term), t.Reachable .ascii .initial 5 2 ∧
    t.grid.usedLines = 0 ∧ t.clearScreen .all = some t' ∧
      t'.grid.historySize = 1 ∧ t.grid.clearViewport = some t'.grid ∧
      ¬ Pushed t.grid.usedLines t.grid t'.grid := by
  have hrun : Term.Reachable .ascii .initial 5 2 _ :=
    .step .refl (a := .resize 3 2) (And.intro (by decide) (by decide)) rfl
  refine ⟨_, _, hrun, by decide, rfl, by decide, rfl, fun hexact => ?_⟩
  have hsize := hexact.historySize
  revert hsize
  decide

end Grid
end Velacritty
