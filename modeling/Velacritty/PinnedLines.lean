import Velacritty.ScrollLines
import Velacritty.TermSteps

/-! Whether a viewport that shows the history stays where it is while the screen scrolls. -/
namespace Velacritty
open Fallible

namespace Grid
variable {T : Type} [GridCell T] {g g' : Grid T} {start stop : Int} {positions : Nat}

structure Shows (g : Grid T) (line : Int) : Prop where
  exists_line : -(g.historySize : Int) ≤ line
  history : line < 0
  top : -(g.displayOffset : Int) ≤ line
  bottom : line + g.displayOffset < g.lines

/-- Each line of the history that was shown is shown at the same place of the viewport. -/
def Stationary (g g' : Grid T) : Prop :=
  ∀ line, g.Shows line → g'.raw.get (line + g.displayOffset - g'.displayOffset) = g.raw.get line

/-- The viewport does not follow the output. -/
def Pinned (g : Grid T) : Prop := g.displayOffset ≠ 0 ∨ g.autoScrollEnabled = false

/-- Where fixed lines above the region keep the lines out of the history, each shown line
looks like the one that takes its place. -/
def PinHolds (start stop : Int) (positions : Nat) (g : Grid T) : Prop :=
  start = 0 ∨ stop - start ≤ positions ∨
    ∀ line, g.Shows line → g.raw.get (line - positions) = g.raw.get line

theorem rotateRegionUp_offset (g : Grid T) (start stop : Int) (positions : Nat) :
    Allows (g.rotateRegionUp start stop positions) fun g' => g'.displayOffset = g.displayOffset := by
  intro g' hg'
  unfold rotateRegionUp at hg'
  split at hg'
  · simp only [Option.bind_eq_bind, Option.bind_eq_some_iff, Option.some.injEq] at hg'
    obtain ⟨a, ha, _, -, _, -, _, -, rfl⟩ := hg'
    simp only [increaseScrollLimit, Option.bind_eq_bind, Option.bind_eq_some_iff] at ha
    obtain ⟨_, -, ha⟩ := ha
    split at ha
    · simp only [Option.bind_eq_some_iff, Option.some.injEq] at ha
      obtain ⟨_, -, rfl⟩ := ha
      rfl
    · cases ha
      rfl
  · simp only [Option.bind_eq_bind, Option.bind_eq_some_iff, Option.some.injEq] at hg'
    obtain ⟨_, -, rfl⟩ := hg'
    rfl

/-- The offset of a pinned viewport grows by the positions, except where the whole region
is only reset. -/
theorem scrollUp_offset (hpin : g.Pinned) (hfree : ¬ ScrollsAll start stop positions →
    g.displayOffset + positions ≤ g.maxScrollLimit) :
    Allows (g.scrollUp start stop positions) fun g' => g'.displayOffset =
      if ScrollsAll start stop positions then g.displayOffset else g.displayOffset + positions := by
  have hreset : ∀ (a : Grid T) (lines : List Int), Allows (a.resetLines lines) fun g' =>
      g'.displayOffset = a.displayOffset := by
    intro a lines g' hg'
    simp only [resetLines, Option.bind_eq_bind, Option.bind_eq_some_iff, Option.some.injEq] at hg'
    obtain ⟨_, -, rfl⟩ := hg'
    rfl
  unfold scrollUp
  split
  · next hall =>
      rw [if_pos (show ScrollsAll start stop positions from hall)]
      exact hreset g _
  · next hall =>
      rw [if_neg (show ¬ ScrollsAll start stop positions from hall)]
      refine (rotateRegionUp_offset _ start stop positions).bind fun a ha => ?_
      refine (hreset a _).mono fun g' hg' => ?_
      rw [hg', ha, pinViewport, if_pos (show _ ∨ _ from hpin)]
      exact Nat.min_eq_left (hfree hall)

/-- A pinned viewport that the limit of the history does not hold back stays where it is
exactly if the pin holds. -/
theorem scrollUp_stationary_iff (h : g.WF) (hr : InRegion g.lines start stop) (hpin : g.Pinned)
    (hfree : ¬ ScrollsAll start stop positions → g.displayOffset + positions ≤ g.maxScrollLimit) :
    Allows (g.scrollUp start stop positions) fun g' =>
      Stationary g g' ↔ PinHolds start stop positions g := by
  intro g' hg'
  have hoffset := scrollUp_offset hpin hfree g' hg'
  obtain ⟨hstart, hle, hstop⟩ := hr
  by_cases hzero : start = 0
  · subst hzero
    refine iff_of_true (fun line hline => ?_) (.inl rfl)
    obtain ⟨hexists, hneg, htop, -⟩ := hline
    have hnot : ¬ ScrollsAll 0 stop positions := fun hall => hall.2 rfl
    obtain ⟨-, hsize, hmoved, -, -⟩ := scrollUp_top_lines h hle hstop g' hg'
    have hlimit := hfree hnot
    rw [hoffset, if_neg hnot, show line + (g.displayOffset : Int) - (g.displayOffset + positions : Nat) =
      line - positions by omega, hmoved _ (by omega) (by omega), Int.sub_add_cancel]
  · obtain ⟨hlines, hother⟩ := scrollUp_region_lines h ⟨hstart, hle, hstop⟩ hzero g' hg'
    by_cases hall : stop - start ≤ positions
    · refine iff_of_true (fun line hline => ?_) (.inr (.inl hall))
      have hneg := hline.history
      rw [hoffset, if_pos ⟨hall, hzero⟩, Int.add_sub_cancel]
      exact hother line (.inl (by omega))
    · rw [PinHolds, or_iff_right hzero, or_iff_right hall]
      refine forall₂_congr fun line hline => ?_
      have hneg := hline.history
      rw [hoffset, if_neg fun hscrolls => hall hscrolls.1,
        show line + (g.displayOffset : Int) - (g.displayOffset + positions : Nat) = line - positions by omega,
        hother _ (.inl (by omega))]

/-- The display is scrolled up by one line, and the whole screen scrolls. -/
theorem scrollUp_stationary_top : ∃ g g' : Grid Cell, g.WF ∧ g.Pinned ∧ g.Shows (-1) ∧
    g.scrollUp 0 2 1 = some g' ∧ Stationary g g' := by
  have hrun : Term.Reachable .ascii .initial 4 2 _ :=
    .step (.step (.step .refl
      (a := .resize 2 2) (And.intro (by decide) (by decide)) rfl)
      (a := .handler (.scrollUp 1)) trivial rfl)
      (a := .scrollDisplay (.delta 1)) trivial rfl
  have hwf := (Term.Reachable.wf hrun (by decide) (by decide)).grid
  have hregion : InRegion 2 0 2 := ⟨by decide, by decide, by decide⟩
  have hiff : Allows (scrollUp _ 0 2 1) _ := scrollUp_stationary_iff hwf hregion
    (.inl (by decide)) fun _ => Nat.le_of_ble_eq_true rfl
  exact ⟨_, _, hwf, .inl (by decide),
    ⟨by decide, by decide, (by decide : (-1 : Int) ≤ -1), (by decide : (0 : Int) < 2)⟩, rfl,
    (hiff _ rfl).mpr (.inl rfl)⟩

/-- A scroll below a fixed line, while the display is scrolled up by one line: the topmost
shown line was blank, and has an `a` afterwards. -/
theorem scrollUp_leaves_pinned : ∃ (t : Term) (g' : Grid Cell),
    t.Reachable .ascii .initial 5 2 ∧ t.regionStart = 1 ∧ t.regionEnd = 3 ∧ t.grid.Pinned ∧
      t.grid.displayOffset + 1 ≤ t.grid.maxScrollLimit ∧ t.grid.Shows (-1) ∧
      t.grid.scrollUp t.regionStart t.regionEnd 1 = some g' ∧ ¬ Stationary t.grid g' := by
  have hrun : Term.Reachable .ascii .initial 5 2 _ :=
    .step (.step (.step (.step (.step (.step .refl
      (a := .resize 3 2) (And.intro (by decide) (by decide)) rfl)
      (a := .handler (.input 'a')) trivial rfl)
      (a := .handler (.scrollUp 1)) trivial rfl)
      (a := .handler (.scrollUp 1)) trivial rfl)
      (a := .scrollDisplay (.delta 1)) trivial rfl)
      (a := .handler (.setScrollingRegion 2 none)) (Nat.le_succ 1) rfl
  refine ⟨_, _, hrun, rfl, rfl, .inl (by decide), Nat.le_of_ble_eq_true rfl,
    ⟨by decide, by decide, (by decide : (-1 : Int) ≤ -1), (by decide : (0 : Int) < 3)⟩, rfl,
    fun hstationary => ?_⟩
  have hsame := hstationary (-1)
    ⟨by decide, by decide, (by decide : (-1 : Int) ≤ -1), (by decide : (0 : Int) < 3)⟩
  revert hsame
  decide

end Grid
end Velacritty
