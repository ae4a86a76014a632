import Velacritty.HandlerSteps

/-! Every operation of a terminal, by its effect. -/
namespace Velacritty
open Fallible

theorem TermDamageState.numbers_reset (d : TermDamageState) (numCols : Nat) :
    (d.reset numCols).numbers = d.numbers := by
  simp only [reset, numbers, List.map_map]
  rfl

namespace Term
variable {t t' a : Term}

/-- The screens are the same; only what is shown of them, the selection and the records
about them may differ. -/
structure Viewed (t t' : Term) : Prop where
  rest : t' = { t with
    grid := { t.grid with displayOffset := t'.grid.displayOffset }
    mode := { t.mode with vi := t'.mode.vi }
    viModeCursor := t'.viModeCursor, selection := t'.selection, events := t'.events
    damageState := t'.damageState }
  offset : t.grid.OffsetBounded → t'.grid.OffsetBounded
  damage_length : t'.damageState.lines.length = t.damageState.lines.length
  lastCursor : t'.damageState.lastCursor = t.damageState.lastCursor ∨
    t'.damageState.lastCursor = t.grid.cursor.point
  numbers : t'.damageState.numbers = t.damageState.numbers

theorem Viewed.refl (t : Term) : Viewed t t := ⟨rfl, id, rfl, .inl rfl, rfl⟩

theorem Viewed.wf (h : Viewed t t') (ht : t.WF) : t'.WF := by
  obtain ⟨hrest, -, hlength, hlast, -⟩ := h
  rw [hrest]
  refine ⟨⟨ht.grid.raw, ht.grid.visible, ht.grid.columns_pos, ht.grid.history_le, ht.grid.cursor,
    ht.grid.savedCursor⟩, ht.inactiveGrid, ht.inactive_lines, ht.inactive_columns, ht.two_le, ht.region,
    ht.region_pos, ht.tabs, hlength.trans ht.damage, ?_⟩
  rcases hlast with hlast | hlast <;> simp only [hlast]
  · exact ht.lastCursor
  · exact ht.grid.cursor

theorem Viewed.dims (h : Viewed t t') : t'.dims = t.dims := by
  rw [h.rest]
  rfl

theorem Viewed.trans (h : Viewed t a) (h' : Viewed a t') : Viewed t t' := by
  refine ⟨?_, h'.offset ∘ h.offset, h'.damage_length.trans h.damage_length, ?_,
    h'.numbers.trans h.numbers⟩
  · rw [h'.rest, h.rest]
  · have hcursor : a.grid.cursor = t.grid.cursor := by rw [h.rest]
    rcases h'.lastCursor with hlast | hlast
    · rw [hlast]
      exact h.lastCursor
    · exact .inr (hlast.trans (by rw [hcursor]))

theorem scrollDisplay_offsetBounded {g : Grid Cell} (h : g.OffsetBounded) (scroll : Scroll) :
    (g.scrollDisplay scroll).OffsetBounded := by
  simp only [Grid.OffsetBounded] at h
  simp only [Grid.OffsetBounded, Grid.scrollDisplay, Grid.historySize, Grid.dims]
  simp only [Grid.historySize, Grid.dims] at h
  cases scroll <;> simp only <;> omega

theorem Viewed.update (h : Viewed t a) (hrest : t' = { a with
      mode := { a.mode with vi := t'.mode.vi }
      viModeCursor := t'.viModeCursor, selection := t'.selection, events := t'.events
      damageState := { a.damageState with full := t'.damageState.full } }) : Viewed t t' := by
  refine h.trans ⟨?_, fun hb => ?_, ?_, ?_, ?_⟩
  · rw [hrest]
  · rw [hrest]
    exact hb
  · rw [hrest]
  · rw [hrest]
    exact .inl rfl
  · rw [hrest]
    rfl

@[simp] theorem viModeRecomputeSelection_mode (t : Term) : t.viModeRecomputeSelection.mode = t.mode := by
  unfold viModeRecomputeSelection
  split
  · rfl
  · rfl

@[simp] theorem viModeRecomputeSelection_grid (t : Term) : t.viModeRecomputeSelection.grid = t.grid := by
  unfold viModeRecomputeSelection
  split
  · rfl
  · rfl

@[simp] theorem viModeRecomputeSelection_viModeCursor (t : Term) :
    t.viModeRecomputeSelection.viModeCursor = t.viModeCursor := by
  unfold viModeRecomputeSelection
  split
  · rfl
  · rfl

theorem viModeRecomputeSelection_viewed (h : Viewed t a) : Viewed t a.viModeRecomputeSelection := by
  unfold viModeRecomputeSelection
  split
  · exact h.update rfl
  · exact h

theorem scrollDisplay_viewed (h : Viewed t a) (scroll : Scroll) : Viewed t (a.scrollDisplay scroll) := by
  have hgrid : Viewed a { a with grid := a.grid.scrollDisplay scroll } :=
    ⟨rfl, fun hb => scrollDisplay_offsetBounded hb scroll, rfl, .inl rfl, rfl⟩
  simp only [scrollDisplay]
  split
  · exact (viModeRecomputeSelection_viewed ((h.trans hgrid).update rfl)).update rfl
  · exact viModeRecomputeSelection_viewed ((h.trans hgrid).update rfl)

theorem toggleViMode_viewed (t : Term) : Viewed t t.toggleViMode := by
  simp only [toggleViMode]
  split
  · split
    · exact (Viewed.refl t).update rfl
    · exact (Viewed.refl t).update rfl
  · exact (Viewed.refl t).update rfl

theorem scrollToPoint_viewed (t : Term) (point : Point) : Viewed t (t.scrollToPoint point) := by
  unfold scrollToPoint
  simp only
  split
  · exact scrollDisplay_viewed (.refl t) _
  · split
    · exact scrollDisplay_viewed (.refl t) _
    · exact .refl t

theorem viGotoPoint_viewed (t : Term) (point : Point) : Viewed t (t.viGotoPoint point) :=
  viModeRecomputeSelection_viewed ((scrollToPoint_viewed t point).update rfl)

theorem viMotion_viewed (t : Term) (motion : ViMotion) : Allows (t.viMotion motion) (Viewed t) := by
  unfold viMotion
  split
  · intro t' ht'
    simp only [Option.bind_eq_bind, Option.bind_eq_some_iff, Option.some.injEq] at ht'
    obtain ⟨point, -, rfl⟩ := ht'
    exact viGotoPoint_viewed t point
  · exact .pure (.refl t)

/-- Damage was collected. Unless everything is damaged, the report has the recorded damage,
the cursor, and the place where the cursor was at the last time. -/
structure Collected (t : Term) (r : Term × TermDamage) : Prop where
  rest : r.1 = { t with damageState := r.1.damageState }
  length : r.1.damageState.lines.length = t.damageState.lines.length
  lastCursor : r.1.damageState.lastCursor = t.grid.cursor.point
  numbers : r.1.damageState.numbers = t.damageState.numbers
  report : r.2 = .full ∨ t.damageState.full = false ∧ t.mode.insert = false ∧
    r.2 = .lines (r.1.damageState.visible t.grid.displayOffset) ∧
    (∀ p, t.damageState.Marks p → r.1.damageState.Marks p) ∧
    r.1.damageState.Marks t.damageState.lastCursor ∧ r.1.damageState.Marks t.grid.cursor.point

theorem damage_returns (h : t.WF) : Returns t.damage (Collected t) := by
  obtain ⟨hlo, hhi, -⟩ := h.lastCursor
  simp only [damage]
  cases hinsert : t.mode.insert with
  | true => exact .pure ⟨rfl, rfl, rfl, rfl, .inl rfl⟩
  | false =>
      cases hfull : t.damageState.full with
      | true =>
          simp only [Bool.false_eq_true, if_false, hfull, if_true]
          exact .pure ⟨rfl, rfl, rfl, rfl, .inl rfl⟩
      | false =>
          simp only [Bool.false_eq_true, if_false, hfull]
          refine Returns.bind (P := fun a : Term => a = { t with damageState := a.damageState } ∧
            t.damageState.Grows { a.damageState with lastCursor := t.damageState.lastCursor } ∧
            a.damageState.lastCursor = t.grid.cursor.point ∧
            (a.damageState.Marks t.damageState.lastCursor ∨
              t.damageState.lastCursor = t.grid.cursor.point)) ?_ fun a ha => ?_
          · split
            · simp only [toUsize_of_nonneg hlo, Option.bind_eq_bind, Option.bind_some]
              have hline := h.damage
              refine (TermDamageState.damageLine_returns (by simp only; omega)).bind fun d hd => .pure ?_
              obtain ⟨⟨-, hlength, hlast, hmarks, hnumbers⟩, -, hcolumn⟩ := hd
              refine ⟨rfl, ⟨fun hf => ?_, hlength, rfl, hmarks, hnumbers⟩, hlast, .inl ?_⟩
              · exact absurd (hfull.symm.trans hf) (by decide)
              · have hmark := hcolumn _ (Nat.le_refl _) (Nat.le_refl _)
                rwa [Int.toNat_of_nonneg hlo] at hmark
            · next heq =>
                refine .pure ⟨rfl, ⟨fun hf => ?_, rfl, rfl, fun _ => id, rfl⟩, rfl, .inr (not_not.mp heq).symm⟩
                exact absurd (hfull.symm.trans hf) (by decide)
          · obtain ⟨hrest, hgrows, hlast, hmark⟩ := ha
            have hgrid : a.grid = t.grid := (congrArg Term.grid hrest :)
            have hlength : a.damageState.lines.length = t.damageState.lines.length := hgrows.length
            refine (damageCursor_returns (by rw [hgrid, hlength, h.damage]) (hgrid ▸ h.grid.cursor)).bind
              fun b hb => .pure ?_
            obtain ⟨⟨hbrest, hbgrows⟩, hbmark⟩ := hb
            have hbgrid : b.grid = t.grid := (congrArg Term.grid hbrest :).trans hgrid
            rw [hgrid] at hbmark
            refine ⟨?_, hbgrows.length.trans hlength, hbgrows.lastCursor.trans hlast,
              hbgrows.numbers.trans hgrows.numbers, .inr ⟨hfull, hinsert, by rw [hbgrid],
                fun p hp => hbgrows.marks p (hgrows.marks p hp), ?_, hbmark⟩⟩
            · rw [hbrest, hrest]
            · rcases hmark with hmark | hmark
              · exact hbgrows.marks _ hmark
              · rw [hmark]
                exact hbmark

theorem Collected.viewed {r : Term × TermDamage} (h : Collected t r) : Viewed t r.1 := by
  have hgrid : r.1.grid = t.grid := (congrArg Term.grid h.rest :)
  refine ⟨?_, fun hb => hgrid ▸ hb, h.length, .inr h.lastCursor, h.numbers⟩
  rw [h.rest]

theorem damage_viewed (h : t.WF) : Allows (t.damage.map Prod.fst) (Viewed t) := by
  intro t' ht'
  rw [Option.map_eq_some_iff] at ht'
  obtain ⟨r, hr, rfl⟩ := ht'
  exact ((damage_returns h).of_eq hr).viewed

/-! ### Operations -/

inductive TermStepped (env : Env) (t t' : Term) : TermOp → Prop
  | handler {op : HandlerOp} (h : Stepped env t t' op) : TermStepped env t t' (.handler op)
  | viewed {op} (h : Viewed t t') : TermStepped env t t' op
  | flagged {enabled} (h : t' = { t with grid := t.grid.setAutoScrollEnabled enabled }) :
      TermStepped env t t' (.setAutoScrollEnabled enabled)
  | resized {lines columns} (h : Resized lines columns t t') : TermStepped env t t' (.resize lines columns)
  | configured {options} (h : Configured options t t') : TermStepped env t t' (.setOptions options)
  | swapped (h : Swapped t t') : TermStepped env t t' .swapAlt

theorem TermStepped.wf {env : Env} {op : TermOp} (h : TermStepped env t t' op) (ht : t.WF) : t'.WF := by
  cases h with
  | handler h => exact h.wf ht
  | viewed h => exact h.wf ht
  | flagged h =>
      rw [h]
      exact ⟨⟨ht.grid.raw, ht.grid.visible, ht.grid.columns_pos, ht.grid.history_le, ht.grid.cursor,
        ht.grid.savedCursor⟩, ht.inactiveGrid, ht.inactive_lines, ht.inactive_columns, ht.two_le,
        ht.region, ht.region_pos, ht.tabs, ht.damage, ht.lastCursor⟩
  | resized h => exact h.wf
  | configured h => exact h.wf
  | swapped h => exact h.wf

end Term

namespace TermOp
variable {t : Term}

theorem step_stepped (env : Env) (h : t.WF) {op : TermOp} (hop : op.Admissible t) :
    Allows (op.step env t) fun t' => Term.TermStepped env t t' op := by
  cases op with
  | handler op => exact (HandlerOp.step_stepped env h hop).mono fun _ => .handler
  | resize lines columns =>
      refine (Term.resize_allows h hop.1 hop.2).mono fun t' ht' => ?_
      rcases ht' with ⟨rfl, -⟩ | ht'
      · exact .viewed (.refl t')
      · exact .resized ht'
  | setOptions options => exact (Term.setOptions_returns h options).allows.mono fun _ => .configured
  | swapAlt => exact (Term.swapAlt_returns h).allows.mono fun _ => .swapped
  | scrollDisplay scroll => exact .pure (.viewed (Term.scrollDisplay_viewed (.refl t) scroll))
  | toggleViMode => exact .pure (.viewed t.toggleViMode_viewed)
  | viMotion motion => exact (Term.viMotion_viewed t motion).mono fun _ => .viewed
  | viGotoPoint point => exact .pure (.viewed (t.viGotoPoint_viewed point))
  | setAutoScrollEnabled enabled => exact .pure (.flagged rfl)
  | setSelection selection => exact .pure (.viewed ((Term.Viewed.refl t).update rfl))
  | damage => exact (Term.damage_viewed h).mono fun _ => .viewed
  | resetDamage =>
      exact .pure (.viewed ⟨rfl, id, List.length_map .., .inl rfl, t.damageState.numbers_reset _⟩)

end TermOp

namespace Term
variable {env : Env} {config : Config} {lines columns : Nat}

theorem new_wf (config : Config) (hl : 1 ≤ lines) (hc : 2 ≤ columns) : (new config lines columns).WF := by
  have hcpos : 1 ≤ columns := Nat.le_trans (by decide) hc
  have hgrid := Grid.new_wf hl hcpos config.scrollingHistory (T := Cell)
  have hinactive := Grid.new_wf hl hcpos 0 (T := Cell)
  refine ⟨hgrid, hinactive, rfl, rfl, hc, ⟨Int.le_refl 0, Int.natCast_nonneg _, Int.le_refl _⟩,
    Int.ofNat_le.mpr hl, length_newTabStops columns, length_undamagedLines columns lines, ?_⟩
  exact ⟨Int.le_refl 0, Int.ofNat_lt.mpr hl, hcpos⟩

theorem Reachable.wf {t : Term} (h : Reachable env config lines columns t) (hl : 1 ≤ lines)
    (hc : 2 ≤ columns) : t.WF :=
  h.invariant (new_wf config hl hc) fun _ _ _ hwf hop hs => (TermOp.step_stepped env hwf hop _ hs).wf hwf

end Term
end Velacritty
