import Velacritty.DamageSound
import Velacritty.TermSteps

/-! The damage report of every run: which changed cells of the viewport it has. -/
namespace Velacritty
open Fallible

/-! ### Line numbers -/

namespace TermDamageState
variable {d d' : TermDamageState}

/-- Each line's damage has the line's own number. -/
def Numbered (d : TermDamageState) : Prop := d.numbers = List.range d.numbers.length

theorem Numbered.of_eq (h : d.Numbered) (heq : d'.numbers = d.numbers) : d'.Numbered := by
  rw [Numbered, heq]
  exact h

theorem numbered_undamaged (full : Bool) (columns lines : Nat) (lastCursor : Point) :
    Numbered ⟨full, undamagedLines columns lines, lastCursor⟩ := by
  have hnumbers : numbers ⟨full, undamagedLines columns lines, lastCursor⟩ = List.range lines := by
    simp only [numbers, undamagedLines, List.map_map]
    exact List.map_id _
  rw [Numbered, hnumbers, List.length_range]

theorem Numbered.line (h : d.Numbered) {i : Nat} {b : LineDamageBounds} (hb : d.lines[i]? = some b) :
    b.line = i := by
  have hnumber : d.numbers[i]? = some b.line := by
    rw [numbers, List.getElem?_map, hb, Option.map_some]
  rw [h] at hnumber
  obtain ⟨hi, heq⟩ := List.getElem?_eq_some_iff.mp hnumber
  rw [← heq, List.getElem_range]

/-- A report has the cell of the viewport. -/
def Reports (bounds : List LineDamageBounds) (line column : Nat) : Prop :=
  ∃ b ∈ bounds, b.line = line ∧ b.left ≤ column ∧ column ≤ b.right

instance (bounds : List LineDamageBounds) (line column : Nat) :
    Decidable (Reports bounds line column) :=
  inferInstanceAs (Decidable (∃ b ∈ bounds, b.line = line ∧ b.left ≤ column ∧ column ≤ b.right))

/-- What is between two marked cells of a visible line is reported. -/
theorem visible_reports (h : d.Numbered) {displayOffset viewportLine lo hi column : Nat} {line : Int}
    (hline : (viewportLine : Int) = line + displayOffset) (hlt : viewportLine < d.lines.length)
    (hlo : lo ≤ column) (hhi : column ≤ hi) (hleft : d.Marks ⟨line, lo⟩)
    (hright : d.Marks ⟨line, hi⟩) : Reports (d.visible displayOffset) viewportLine column := by
  obtain ⟨hnonneg, b, hb, hblo, -⟩ := hleft
  obtain ⟨-, b', hb', -, hbhi⟩ := hright
  obtain rfl : b = b' := Option.some.inj (hb.symm.trans hb')
  simp only at hnonneg hb hblo hbhi
  refine ⟨{ b with line := b.line + displayOffset }, ?_, ?_, Nat.le_trans hblo hlo,
    Nat.le_trans hhi hbhi⟩
  · refine List.mem_map.mpr ⟨b, List.mem_filter.mpr ⟨?_, ?_⟩, rfl⟩
    · refine List.mem_of_getElem? (i := line.toNat) ?_
      rw [List.getElem?_take_of_lt (by omega)]
      exact hb
    · exact decide_eq_true (by omega)
  · simp only [h.line hb]
    omega

end TermDamageState

namespace Term
variable {t₀ t t' a : Term} {S : Point → Prop} {env : Env}

/-! ### Damage is only added -/

theorem ScrolledUp.grows {origin : Int} {lines : Nat} (h : ScrolledUp origin lines t t') :
    t.damageState.Grows t'.damageState := by
  rw [h.rest]
  exact TermDamageState.markFull_grows _

theorem ScrolledDown.grows {origin : Int} (h : ScrolledDown origin t t') :
    t.damageState.Grows t'.damageState := by
  rw [h.rest]
  exact TermDamageState.markFull_grows _

theorem Regridded.grows {op : GridOp Cell} (h : Regridded op t t') :
    t.damageState.Grows t'.damageState := by
  rw [h.rest]
  exact TermDamageState.markFull_grows _

theorem Cleared.grows (h : Cleared t t') : t.damageState.Grows t'.damageState := by
  cases h with
  | redone h => exact h.toEdited.damage
  | viewport h _ => exact h.grows
  | history h _ => exact h.grows

theorem Linefed.grows (h : Linefed t t') : t.damageState.Grows t'.damageState := by
  cases h with
  | scrolled _ h => exact h.grows
  | moved _ h _ => exact h.toEdited.damage
  | stuck _ _ h => exact h ▸ .refl _

theorem Wrapped.grows (h : Wrapped t t') : t.damageState.Grows t'.damageState := by
  cases h with
  | off _ h => exact h ▸ .refl _
  | scrolled _ _ ha hb h _ => exact (ha.toEdited.damage.trans hb.grows).trans h.damage
  | moved _ _ h _ _ _ => exact h.damage
  | stuck _ _ _ h _ _ _ => exact h.damage

theorem Printed.grows {width : Nat} (h : Printed width t t') :
    t.damageState.Grows t'.damageState := by
  cases h with
  | swept _ h => exact h.edited.damage
  | dropped _ _ h => exact h ▸ .refl _
  | wrapped _ _ ha _ _ _ _ _ _ hb h => exact (ha.damage.trans hb.grows).trans h.edited.damage

theorem Inputted.grows {c : Char} (h : Inputted env c t t') :
    t.damageState.Grows t'.damageState := by
  cases h with
  | ignored _ h => exact h ▸ .refl _
  | joined _ _ h _ => exact h.toEdited.damage
  | @printed _ a b _ _ ha hb h =>
      have hta : t.damageState.Grows a.damageState :=
        ha.elim (fun ha => ha.2 ▸ .refl _) fun ha => ha.2.grows
      have hab : a.damageState.Grows b.damageState :=
        hb.elim (fun hb => hb ▸ .refl _) fun hb => hb.2.toEdited.damage
      exact (hta.trans hab).trans h.grows

theorem Regioned.grows {top : Nat} {bottom : Option Nat} (h : Regioned top bottom t t') :
    t.damageState.Grows t'.damageState := by
  cases h with
  | invalid _ h => exact h ▸ .refl _
  | home _ _ _ _ _ _ h _ => exact h.toEdited.damage

theorem Stepped.grows {op : HandlerOp} (h : Stepped env t t' op) :
    t.damageState.Grows t'.damageState := by
  cases h with
  | same h => exact h ▸ .refl _
  | quiet h => exact h.damage
  | inputted h => exact h.grows
  | freed ha h _ => exact ha.damage.trans h.toEdited.damage
  | raised h _ _ => exact h.toEdited.damage
  | wrapped _ h => exact h.grows
  | tabbed _ h => exact h.edited.damage
  | tabbedBack _ h _ _ => exact h.toEdited.damage
  | tabbedForward _ h _ _ _ => exact h.toEdited.damage
  | linefed _ h => exact h.grows
  | newline ha h _ => exact ha.grows.trans h.toEdited.damage
  | scrolledUp h => exact h.grows
  | scrolledDown _ h => exact h.grows
  | deletedLines _ _ h => exact h.grows
  | redrawn h =>
      obtain ⟨S, h, -⟩ := h
      exact h.toEdited.damage
  | redone h => exact h.toEdited.damage
  | saved h => exact h ▸ .refl _
  | restored h _ => exact h.toEdited.damage
  | cleared h => exact h.grows
  | restarted h =>
      rw [h.rest]
      exact TermDamageState.markFull_grows _
  | regioned h => exact h.grows
  | regionedRedone ha h => exact ha.grows.trans h.toEdited.damage
  | swapped _ h =>
      rw [h.rest]
      exact TermDamageState.markFull_grows _

theorem TermStepped.numbered {op : TermOp} (h : TermStepped env t t' op)
    (ht : t.damageState.Numbered) : t'.damageState.Numbered := by
  cases h with
  | handler h => exact ht.of_eq h.grows.numbers
  | viewed h => exact ht.of_eq h.numbers
  | flagged h => exact h ▸ ht
  | resized h =>
      rw [h.rest]
      exact TermDamageState.numbered_undamaged _ _ _ _
  | configured h =>
      obtain ⟨_, _, _, hrest, -⟩ := h.rest
      rw [hrest]
      exact ht
  | swapped h =>
      rw [h.rest]
      exact ht

theorem Reachable.numbered {config : Config} {lines columns : Nat} {t : Term}
    (h : Reachable env config lines columns t) (hl : 1 ≤ lines) (hc : 2 ≤ columns) :
    t.damageState.Numbered := by
  suffices hinv : t.WF ∧ t.damageState.Numbered from hinv.2
  refine h.invariant (P := fun t => t.WF ∧ t.damageState.Numbered) ⟨new_wf config hl hc,
    TermDamageState.numbered_undamaged _ _ _ _⟩ fun s op s' hs hop hstep => ?_
  have hstepped := TermOp.step_stepped env hs.1 hop _ hstep
  exact ⟨hstepped.wf hs.1, hstepped.numbered hs.2⟩

end Term

/-! ### Steps -/

/-- The operations that the report covers: printing has to be safe, and a tab that wraps
at the bottom below the scroll region has to leave an enclosed cell. -/
def HandlerOp.DamageSafe (env : Env) (t : Term) : HandlerOp → Prop
  | .input c => t.InputSafe env c
  | .putTab _ => t.Exempt ∨
      (t.mode.lineWrap = true → t.grid.cursor.inputNeedsWrap = true → t.AtDeadEnd →
        t.Shown t.grid.cursor.point → t.Enclosed t.grid.cursor.point)
  | _ => True

namespace Term
variable {t₀ t t' : Term} {env : Env}

theorem Linefed.accounted (h : Linefed t t') (ht : Accounted t₀ t) : Accounted t₀ t' := by
  cases h with
  | scrolled _ h => exact .inl (.inl h.full)
  | moved _ h _ => exact ht.imp h.toEdited.exempt h.tracked
  | stuck _ _ h => exact h ▸ ht

theorem Regioned.exempt {top : Nat} {bottom : Option Nat} (h : Regioned top bottom t t')
    (ht : t.Exempt) : t'.Exempt := by
  cases h with
  | invalid _ h => exact h ▸ ht
  | home _ _ _ _ _ _ h _ => exact h.toEdited.exempt ht

theorem Regioned.accounted {top : Nat} {bottom : Option Nat} (h : Regioned top bottom t t')
    (ht : Accounted t₀ t) : Accounted t₀ t' := by
  cases h with
  | invalid _ h => exact h ▸ ht
  | home _ _ _ _ _ _ h _ =>
      exact ht.imp (fun hexempt => h.toEdited.exempt hexempt)
        fun ht => h.tracked ⟨ht.displayOffset, ht.lines, ht.anchored, ht.covered⟩

theorem Wrapped.accounted (h : Wrapped t t') (hwf : t.WF)
    (hend : t.mode.lineWrap = true → t.AtDeadEnd → t.Shown t.grid.cursor.point →
      t.Enclosed t.grid.cursor.point) (ht : Tracked t₀ t) : Accounted t₀ t' := by
  cases hmode : t.mode.lineWrap with
  | false => exact .inr (h.eq_of_off hmode ▸ ht)
  | true =>
      rcases h.tracked (S := fun _ => False) (.refl hwf.grid) rfl hmode ht (hend hmode)
        fun _ _ => False.elim with hfull | ⟨ht', -⟩
      · exact .inl (.inl hfull)
      · exact .inr ht'

/-- A full report stays full. -/
theorem Stepped.exempt {op : HandlerOp} (h : Stepped env t t' op) (ht : t.Exempt) : t'.Exempt := by
  cases h with
  | same h => exact h ▸ ht
  | quiet h => exact h.exempt ht
  | inputted h => exact h.exempt ht
  | freed ha h _ => exact h.toEdited.exempt (ha.exempt ht)
  | raised h _ _ => exact h.toEdited.exempt ht
  | wrapped _ h => exact h.exempt ht
  | tabbed _ h => exact h.edited.exempt ht
  | tabbedBack _ h _ _ => exact h.toEdited.exempt ht
  | tabbedForward _ h _ _ _ => exact h.toEdited.exempt ht
  | linefed _ h => exact h.exempt ht
  | newline ha h _ => exact h.toEdited.exempt (ha.exempt ht)
  | scrolledUp h => exact .inl h.full
  | scrolledDown _ h => exact .inl h.full
  | deletedLines _ _ h => exact .inl h.full
  | redrawn h =>
      obtain ⟨S, h, -⟩ := h
      exact h.toEdited.exempt ht
  | redone h => exact .inl h.full
  | saved h => exact h ▸ ht
  | restored h _ => exact h.toEdited.exempt ht
  | cleared h => exact .inl h.full
  | restarted h => exact .inl h.full
  | regioned h => exact h.exempt ht
  | regionedRedone _ h => exact .inl h.full
  | swapped _ h => exact .inl h.full

theorem Stepped.tracked {op : HandlerOp} (h : Stepped env t t' op) (hwf : t.WF)
    (hsafe : op.DamageSafe env t) (ht : Tracked t₀ t) : Accounted t₀ t' := by
  cases h with
  | same h => exact h ▸ .inr ht
  | quiet h => exact .inr (h.tracked ht)
  | inputted h => exact h.accounted hwf hsafe (.inr ht)
  | freed ha h _ => exact .inr (h.tracked (ha.tracked ht))
  | raised h _ _ => exact .inr (h.tracked ht)
  | wrapped hneeds h =>
      rcases hsafe with hexempt | hend
      · exact .inl (h.exempt hexempt)
      · exact h.accounted hwf (fun hmode => hend hmode hneeds) ht
  | tabbed _ h => exact .inr (h.tracked ht)
  | tabbedBack _ h _ _ => exact .inr (h.tracked ht)
  | tabbedForward _ h _ _ _ => exact .inr (h.tracked ht)
  | linefed _ h => exact h.accounted (.inr ht)
  | newline ha h _ => exact (ha.accounted (.inr ht)).imp h.toEdited.exempt h.tracked
  | scrolledUp h => exact .inl (.inl h.full)
  | scrolledDown _ h => exact .inl (.inl h.full)
  | deletedLines _ _ h => exact .inl (.inl h.full)
  | redrawn h => exact .inr (h.tracked ht)
  | redone h => exact .inl (.inl h.full)
  | saved h =>
      subst h
      exact .inr ⟨ht.displayOffset, ht.lines, ht.anchored, ht.covered⟩
  | restored h _ => exact .inr (h.tracked ht)
  | cleared h => exact .inl (.inl h.full)
  | restarted h => exact .inl (.inl h.full)
  | regioned h => exact h.accounted (.inr ht)
  | regionedRedone _ h => exact .inl (.inl h.full)
  | swapped _ h => exact .inl (.inl h.full)

theorem Stepped.accounted {op : HandlerOp} (h : Stepped env t t' op) (hwf : t.WF)
    (hsafe : op.DamageSafe env t) (ht : Accounted t₀ t) : Accounted t₀ t' := by
  rcases ht with hexempt | ht
  · exact .inl (h.exempt hexempt)
  · exact h.tracked hwf hsafe ht

/-! ### Runs -/

def viewportCell (t : Term) (line column : Nat) : Option Cell :=
  t.grid.cellAt ⟨(line : Int) - t.grid.displayOffset, column⟩

/-- Whoever keeps track of the changes reports them. -/
theorem Tracked.reports (ht : Tracked t₀ t) (hwf : t.WF) (hnumbered : t.damageState.Numbered)
    {r : Term × TermDamage} (hr : Collected t r) {bounds : List LineDamageBounds}
    (hbounds : r.2 = .lines bounds) {line column : Nat} (hline : line < t.grid.lines)
    (hne : t.viewportCell line column ≠ t₀.viewportCell line column) :
    TermDamageState.Reports bounds line column := by
  rcases hr.report with hfull | ⟨-, -, hreport, hmarks, hlast, hcursor⟩
  · rw [hbounds] at hfull
    cases hfull
  · obtain rfl : bounds = r.1.damageState.visible t.grid.displayOffset := by
      rw [hbounds] at hreport
      exact TermDamage.lines.inj hreport
    have hrecorded : ∀ p, t.Recorded p → r.1.damageState.Marks p := by
      rintro p (hp | rfl)
      · exact hmarks p hp
      · exact hlast
    rw [viewportCell, viewportCell, ← ht.displayOffset] at hne
    obtain ⟨lo, hi, hlo, hhi, hleft, hright⟩ :=
      ht.covered _ ⟨by simp only; omega, by simp only; omega⟩ hne
    have hright' : r.1.damageState.Marks ⟨(line : Int) - t.grid.displayOffset, hi⟩ := by
      rcases hright with hright | hright
      · exact hrecorded _ hright
      · exact hright ▸ hcursor
    refine TermDamageState.visible_reports (hnumbered.of_eq hr.numbers) (Int.sub_add_cancel _ _).symm ?_ hlo hhi
      (hrecorded _ hleft) hright'
    rw [hr.length, hwf.damage]
    exact hline

/-- After damage was collected and reset, a run of safe operations ends with damage that
is full, or has every cell of the viewport that differs from the one at the reset. -/
theorem run_damage {config : Config} {lines columns : Nat} (hl : 1 ≤ lines) (hc : 2 ≤ columns)
    {s s₁ t : Term} {damage : TermDamage} (hs : Reachable env config lines columns s)
    (hdamage : s.damage = some (s₁, damage))
    (hrun : Reaches (HandlerOp.step env) (fun t op => op.Admissible ∧ op.DamageSafe env t)
      s₁.resetDamage t) :
    Returns t.damage fun r => ∀ bounds, r.2 = .lines bounds → ∀ line column,
      line < t.grid.lines → t.viewportCell line column ≠ s₁.viewportCell line column →
        TermDamageState.Reports bounds line column := by
  have hreset : Reachable env config lines columns s₁.resetDamage :=
    .step (.step hs (a := .damage) trivial (by rw [TermOp.step, hdamage]; rfl))
      (a := .resetDamage) trivial rfl
  have hcollected := (damage_returns (hs.wf hl hc)).of_eq hdamage
  have hgrid : s₁.grid = s.grid := (congrArg Term.grid hcollected.rest :)
  have hstart : Tracked s₁ s₁.resetDamage := by
    refine ⟨rfl, rfl, ⟨_, Nat.le_refl _, .inr ?_⟩, fun p _ hne => absurd rfl hne⟩
    exact hcollected.lastCursor.trans (by rw [resetDamage, hgrid])
  obtain ⟨hwf, hnumbered, haccounted⟩ :
      t.WF ∧ t.damageState.Numbered ∧ Accounted s₁ t := by
    refine hrun.invariant (P := fun t => t.WF ∧ t.damageState.Numbered ∧ Accounted s₁ t)
      ⟨hreset.wf hl hc, hreset.numbered hl hc, .inr hstart⟩ fun a op b ha hop hstep => ?_
    have hstepped := HandlerOp.step_stepped env ha.1 hop.1 _ hstep
    exact ⟨hstepped.wf ha.1, ha.2.1.of_eq hstepped.grows.numbers,
      hstepped.accounted ha.1 hop.2 ha.2.2⟩
  refine (damage_returns hwf).mono fun r hr bounds hbounds line column hline hne => ?_
  rcases haccounted with hexempt | htracked
  · rcases hr.report with hfull | ⟨hnotFull, hnotInsert, -⟩
    · rw [hbounds] at hfull
      cases hfull
    · rcases hexempt with hfull | hinsert
      · exact absurd (hfull.symm.trans hnotFull) (by decide)
      · exact absurd (hinsert.symm.trans hnotInsert) (by decide)
  · exact htracked.reports hwf hnumbered hr hbounds hline hne

/-- A reset, then a character in an empty line and a move. -/
theorem run_damage_text : ∃ s s₁ t damage, Reachable .ascii .initial 2 4 s ∧
    s.damage = some (s₁, damage) ∧
    Reaches (HandlerOp.step .ascii) (fun t op => op.Admissible ∧ op.DamageSafe .ascii t)
      s₁.resetDamage t ∧
    Returns t.damage fun r => ∀ bounds, r.2 = .lines bounds → ∀ line column,
      line < t.grid.lines → t.viewportCell line column ≠ s₁.viewportCell line column →
        TermDamageState.Reports bounds line column := by
  have hstays : ∀ width, Env.ascii.width 'a' = some width →
      ¬ (new .initial 2 4).resetDamage.Wraps width := by
    rintro width hwidth ⟨-, hneeds | ⟨hwide, -⟩⟩
    · cases hneeds
    · cases hwidth
      exact hwide rfl
  have hsafe : HandlerOp.DamageSafe .ascii (new .initial 2 4).resetDamage (.input 'a') := by
    refine .inr (.inr ⟨fun q _ hstray => ?_, fun ⟨width, hwidth, _, hwraps⟩ =>
      absurd hwraps (hstays width hwidth)⟩)
    · cases hstray with
      | joined hwidth _ _ => cases hwidth
      | written hwidth _ _ _ h =>
          cases hwidth
          rcases h with ⟨-, hpos, -⟩ | ⟨⟨cell, hcell, hhalf⟩, -⟩ | ⟨hwidth, -⟩
          · exact absurd hpos (by decide)
          · cases hcell
            cases hhalf
          · exact absurd rfl hwidth
      | spacer hwidth _ hwraps _ _ => exact absurd hwraps (hstays _ hwidth)
      | wrapped hwidth _ hwraps _ => exact absurd hwraps (hstays _ hwidth)
  have hrun : Reaches (HandlerOp.step .ascii) (fun t op => op.Admissible ∧ op.DamageSafe .ascii t)
      (new .initial 2 4).resetDamage _ :=
    .step (.step .refl
      (a := .input 'a') (And.intro trivial hsafe) rfl)
      (a := .linefeed) (And.intro trivial trivial) rfl
  exact ⟨_, _, _, _, .refl, rfl, hrun, run_damage (by decide) (by decide) .refl rfl hrun⟩

/-- Overwriting the second half of a fullwidth character clears the first half, which the
report does not have. -/
theorem damage_misses_cleared : ∃ s s₁ t r damage bounds,
    Reachable .fullwidth .initial 1 4 s ∧ s.damage = some (s₁, damage) ∧
      Reaches (HandlerOp.step .fullwidth) (fun _ op => op.Admissible) s₁.resetDamage t ∧
      t.damage = some (r, .lines bounds) ∧ 0 < t.grid.lines ∧
      t.viewportCell 0 0 ≠ s₁.viewportCell 0 0 ∧ ¬ TermDamageState.Reports bounds 0 0 := by
  have hstart : Reachable .fullwidth .initial 1 4 _ :=
    .step (.step .refl
      (a := .handler (.input '漢')) trivial rfl)
      (a := .handler (.gotoCol 1)) trivial rfl
  refine ⟨_, _, _, _, _, _, hstart, rfl, .step .refl (a := .input 'a') trivial rfl, rfl,
    by decide, ?_, ?_⟩
  · decide
  · decide

end Term
end Velacritty
