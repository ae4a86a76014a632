import Velacritty.ScreenFrames

/-! The scroll region is not empty, and what empties it. -/
namespace Velacritty
open Fallible

/-- A region that passes the check of its bounds starts on the screen. -/
def TermOp.RegionSafe (t : Term) : TermOp → Prop
  | handler (.setScrollingRegion top bottom) =>
      top < bottom.getD t.screenLines → top ≤ t.screenLines
  | _ => True

namespace Term
variable {t t' a : Term} {env : Env}

/-- The bounds are clamped only after their check, so a region below the screen ends up
empty. -/
theorem Regioned.nonempty_iff {top : Nat} {bottom : Option Nat} (h : Regioned top bottom t t')
    (hregion : t.regionStart < t.regionEnd) :
    t'.regionStart < t'.regionEnd ↔ (top < bottom.getD t.screenLines → top ≤ t.screenLines) := by
  have hscreen : t.screenLines = t.grid.lines := rfl
  cases h with
  | invalid hle h =>
      subst h
      exact iff_of_true hregion fun hlt => absurd hlt (Nat.not_lt.mpr hle)
  | home _ _ hlt hstart hend _ h _ =>
      rw [h.toEdited.regionStart, h.toEdited.regionEnd]
      simp only [hstart, hend]
      omega

theorem Swapped.region (h : Swapped t t') :
    t'.regionStart = t.regionStart ∧ t'.regionEnd = t.regionEnd :=
  ⟨(congrArg Term.regionStart h.rest :), (congrArg Term.regionEnd h.rest :)⟩

theorem WF.spans (h : t.WF) (hstart : t.regionStart = 0) (hend : t.regionEnd = t.grid.lines) :
    t.regionStart < t.regionEnd := by
  rw [hstart, hend]
  exact Int.ofNat_lt.mpr h.grid.lines_pos

theorem Reframed.nonempty {op : HandlerOp} (h : Reframed t t' op)
    (hregion : t.regionStart < t.regionEnd) (hop : ∀ top bottom, op ≠ .setScrollingRegion top bottom) :
    t'.regionStart < t'.regionEnd := by
  cases h with
  | framed h => rwa [h.regionStart, h.regionEnd]
  | @regioned top bottom a hset ha h =>
      rw [h.regionStart, h.regionEnd]
      rcases hset with rfl | ⟨rfl, rfl⟩
      · exact absurd rfl (hop top bottom)
      · exact (ha.nonempty_iff hregion).mpr fun hlt => Nat.le_of_lt hlt
  | restarted _ h =>
      exact h.wf.spans (congrArg Term.regionStart h.rest :) (congrArg Term.regionEnd h.rest :)
  | swapped _ h =>
      obtain ⟨hstart, hend⟩ := h.region
      rwa [hstart, hend]

/-- A step leaves the region empty exactly if it sets one below the screen. -/
theorem step_region_iff (ht : t.WF) (hregion : t.regionStart < t.regionEnd) {op : TermOp}
    (hop : op.Admissible t) :
    Allows (op.step env t) fun t' => t'.regionStart < t'.regionEnd ↔ op.RegionSafe t := by
  by_cases hset : ∃ top bottom, op = .handler (.setScrollingRegion top bottom)
  · obtain ⟨top, bottom, rfl⟩ := hset
    exact (setScrollingRegion_returns ht hop bottom).allows.mono fun _ h => h.nonempty_iff hregion
  · have hsafe : op.RegionSafe t := by
      unfold TermOp.RegionSafe
      split
      · exact absurd ⟨_, _, rfl⟩ hset
      · trivial
    refine (TermOp.step_stepped env ht hop).mono fun t' h => iff_of_true ?_ hsafe
    cases h with
    | handler h =>
        refine (h.reframed ht).nonempty hregion fun top bottom heq => hset ⟨top, bottom, ?_⟩
        rw [heq]
    | viewed h =>
        rw [h.rest]
        exact hregion
    | flagged h =>
        rw [h]
        exact hregion
    | resized h =>
        exact h.wf.spans (congrArg Term.regionStart h.rest :) (congrArg Term.regionEnd h.rest :)
    | configured h =>
        obtain ⟨_, _, _, hrest, -⟩ := h.rest
        rw [hrest]
        exact hregion
    | swapped h =>
        obtain ⟨hstart, hend⟩ := h.region
        rwa [hstart, hend]

/-- In every run of safe steps, the scroll region is a part of the screen and not empty.
On its last line a linefeed scrolls it by one line; elsewhere it moves the cursor down,
unless that is on the last line of the screen. -/
theorem run_region {config : Config} {lines columns : Nat} (hl : 1 ≤ lines) (hc : 2 ≤ columns)
    (h : Reaches (TermOp.step env) (fun t op => op.Admissible t ∧ op.RegionSafe t)
      (new config lines columns) t) :
    0 ≤ t.regionStart ∧ t.regionStart < t.regionEnd ∧ t.regionEnd ≤ t.screenLines ∧
      Grid.InScreen t.grid.lines t.grid.columns t.grid.cursor.point ∧
      Returns t.linefeed fun t' =>
        if t.grid.cursor.point.line + 1 = t.regionEnd then
          t.grid.scrollUp t.regionStart t.regionEnd 1 = some t'.grid ∧ t'.grid.cursor = t.grid.cursor
        else (∀ p, t'.grid.cellAt p = t.grid.cellAt p) ∧ t'.grid.cursor = { t.grid.cursor with
          point.line := min (t.grid.cursor.point.line + 1) (t.screenLines - 1) } := by
  have hinv : t.WF ∧ t.regionStart < t.regionEnd := by
    refine h.invariant (P := fun t => t.WF ∧ t.regionStart < t.regionEnd)
      ⟨new_wf config hl hc, Int.ofNat_lt.mpr hl⟩ fun s op s' hs hop hstep => ?_
    exact ⟨(TermOp.step_stepped env hs.1 hop.1 _ hstep).wf hs.1,
      (step_region_iff hs.1 hs.2 hop.1 _ hstep).mpr hop.2⟩
  obtain ⟨hwf, hregion⟩ := hinv
  have hscreen : t.screenLines = t.grid.lines := rfl
  have hlt := hwf.grid.cursor.line_lt
  refine ⟨hwf.region.start_nonneg, hregion, hwf.region.stop_le, hwf.grid.cursor, ?_⟩
  refine (linefeed_returns hwf).mono fun t' ht' => ?_
  cases ht' with
  | scrolled hline h =>
      rw [if_pos hline]
      have hsize : t.scrollSize 1 = 1 := by
        unfold scrollSize
        omega
      exact ⟨hsize ▸ h.grid, h.same.cursor⟩
  | moved hline h hcursor =>
      have hlt' := h.toEdited.grid_wf.cursor.line_lt
      rw [hcursor, h.toEdited.lines] at hlt'
      simp only at hlt'
      have hmin : min (t.grid.cursor.point.line + 1) ((t.screenLines : Int) - 1) =
          t.grid.cursor.point.line + 1 := by omega
      rw [if_neg hline, hmin]
      exact ⟨fun p => h.cells p fun hp => hp, hcursor⟩
  | stuck hline hbottom h =>
      subst h
      have hmin : min (t'.grid.cursor.point.line + 1) ((t'.screenLines : Int) - 1) =
          t'.grid.cursor.point.line := by omega
      rw [if_neg hline, hmin]
      exact ⟨fun _ => rfl, rfl⟩

/-- Setting the second of three lines as the region. -/
theorem run_region_set : ∃ t : Term,
    Reaches (TermOp.step .ascii) (fun t op => op.Admissible t ∧ op.RegionSafe t) (new .initial 3 2) t ∧
      t.regionEnd = 2 ∧ t.regionStart < t.regionEnd := by
  have hrun : Reaches (TermOp.step .ascii) (fun t op => op.Admissible t ∧ op.RegionSafe t)
      (new .initial 3 2) _ :=
    .step .refl (a := .handler (.setScrollingRegion 1 (some 2)))
      (And.intro (Nat.le_refl 1) fun _ => by decide) rfl
  exact ⟨_, hrun, rfl, (run_region (by decide) (by decide) hrun).2.1⟩

/-- A region below a screen of one line is accepted, and becomes empty. -/
theorem region_below_screen : ∃ t : Term, Reachable .ascii .initial 1 2 t ∧
    t.regionStart = t.regionEnd ∧ t.linefeed = some t.markFullyDamaged := by
  have hrun : Reachable .ascii .initial 1 2 _ :=
    .step .refl (a := .handler (.setScrollingRegion 2 (some 3))) (Nat.le_succ 1) rfl
  exact ⟨_, hrun, rfl, rfl⟩

end Term
end Velacritty
