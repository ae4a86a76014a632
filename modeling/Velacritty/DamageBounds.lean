import Velacritty.DamageRuns
import Velacritty.SpacerRuns

/-! The damage report of every run: whether its bounds are on the screen. -/
namespace Velacritty
open Fallible

namespace Term
variable {t t' : Term} {env : Env}

/-- The damage of the lines of the viewport ends on the screen. -/
def Tight (t : Term) : Prop :=
  0 < t.grid.columns ∧ ∀ i b, t.damageState.lines[i]? = some b →
    i + t.grid.displayOffset < t.grid.lines → b.right < t.grid.columns

/-- The next report is a full one, or its bounds are on the screen. -/
def InBounds (t : Term) : Prop := t.Exempt ∨ t.Tight

/-- The cursor is below the viewport. -/
def Hides (t : Term) : Prop := (t.grid.lines : Int) ≤ t.grid.cursor.point.line + t.grid.displayOffset

instance (t : Term) : Decidable t.Exempt := inferInstanceAs (Decidable (_ ∨ _))

instance (t : Term) : Decidable t.Hides := inferInstanceAs (Decidable (_ ≤ _))

/-! ### Adding damage -/

theorem Tight.damageLine (h : t.Tight) {line left right : Nat} {d : TermDamageState}
    (hright : t.grid.lines ≤ line + t.grid.displayOffset ∨ right < t.grid.columns)
    (hd : t.damageState.damageLine line left right = some d) : Tight { t with damageState := d } := by
  unfold TermDamageState.damageLine at hd
  split at hd
  · cases hd
    refine ⟨h.1, fun i b hb hi => ?_⟩
    simp only [List.getElem?_modify, Option.map_eq_map, Option.map_eq_some_iff] at hb
    obtain ⟨b₀, hb₀, rfl⟩ := hb
    have hold := h.2 i b₀ hb₀ hi
    split
    · next heq =>
        subst heq
        rcases hright with hhides | hlt
        · exact absurd hi (Nat.not_lt.mpr hhides)
        · exact Nat.max_lt.mpr ⟨hold, hlt⟩
    · exact hold
  · cases hd

theorem Tight.damageColumns (h : t.Tight) {left right : Nat}
    (hright : t.Hides ∨ right < t.grid.columns) : Allows (t.damageColumns left right) Tight := by
  intro t' ht'
  simp only [Term.damageColumns, Term.damageLine, Option.bind_eq_bind, Option.bind_eq_some_iff,
    Option.some.injEq] at ht'
  obtain ⟨line, hline, d, hd, rfl⟩ := ht'
  refine h.damageLine (hright.imp (fun hhides => ?_) id) hd
  have hnumber : t.grid.cursor.point.line = line := toUsize_eq_some.mp hline
  simp only [Hides] at hhides
  omega

theorem damageColumns_exempt (left right : Nat) :
    Allows (t.damageColumns left right) fun t' => t'.Exempt ↔ t.Exempt := by
  intro t' ht'
  simp only [Term.damageColumns, Term.damageLine, Option.bind_eq_bind, Option.bind_eq_some_iff,
    Option.some.injEq] at ht'
  obtain ⟨line, -, d, hd, rfl⟩ := ht'
  unfold TermDamageState.damageLine at hd
  split at hd
  · cases hd
    exact Iff.rfl
  · cases hd

theorem InBounds.damageColumns (h : t.InBounds) {left right : Nat}
    (hright : t.Tight → t.Hides ∨ right < t.grid.columns) :
    Allows (t.damageColumns left right) InBounds := by
  rcases h with hexempt | htight
  · exact (damageColumns_exempt left right).mono fun _ ha => .inl (ha.mpr hexempt)
  · exact (htight.damageColumns (hright htight)).mono fun _ => .inr

theorem InBounds.damageCursor (h : t.InBounds) (hcol : 0 < t.grid.columns →
    t.grid.cursor.point.column < t.grid.columns) : Allows t.damageCursor InBounds :=
  h.damageColumns fun htight => .inr (hcol htight.1)

/-- Everything is damaged at the end of a scroll. -/
theorem scrollUpRelative_full (origin : Int) (lines : Nat) :
    Allows (t.scrollUpRelative origin lines) InBounds := by
  intro t' ht'
  simp only [scrollUpRelative, Option.bind_eq_bind, Option.bind_eq_some_iff, Option.some.injEq] at ht'
  obtain ⟨_, -, _, -, rfl⟩ := ht'
  exact .inl (.inl rfl)

theorem scrollDownRelative_full (origin : Int) (lines : Nat) :
    Allows (t.scrollDownRelative origin lines) InBounds := by
  intro t' ht'
  simp only [scrollDownRelative, Option.bind_eq_bind, Option.bind_eq_some_iff,
    Option.some.injEq] at ht'
  obtain ⟨_, -, _, -, _, -, rfl⟩ := ht'
  exact .inl (.inl rfl)

/-! ### Updates of cells -/

/-- Only cells differ. -/
def Recelled (t t' : Term) : Prop := ∃ raw, t' = { t with grid.raw := raw }

theorem Recelled.refl (t : Term) : t.Recelled t := ⟨_, rfl⟩

theorem Recelled.inBounds (h : t.Recelled t') (ht : t.InBounds) : t'.InBounds := by
  obtain ⟨raw, rfl⟩ := h
  exact ht

theorem Recelled.cursor (h : t.Recelled t') : t'.grid.cursor = t.grid.cursor := by
  obtain ⟨raw, rfl⟩ := h
  rfl

theorem Recelled.columns (h : t.Recelled t') : t'.grid.columns = t.grid.columns := by
  obtain ⟨raw, rfl⟩ := h
  rfl

theorem modifyRow_recelled (line : Int) (f : Row Cell → Option (Row Cell)) :
    Allows (t.modifyRow line f) t.Recelled := by
  intro t' ht'
  obtain ⟨raw, -, rfl⟩ := modifyRow_eq ht'
  exact ⟨raw, rfl⟩

theorem modifyCell_recelled (point : Point) (f : Cell → Cell) :
    Allows (t.modifyCell point f) t.Recelled := by
  intro t' ht'
  obtain ⟨raw, -, rfl⟩ := modifyCell_eq ht'
  exact ⟨raw, rfl⟩

theorem clearOtherHalf_recelled (cell : Cell) : Allows (t.clearOtherHalf cell) t.Recelled := by
  simp only [clearOtherHalf]
  split
  · exact modifyCell_recelled _ _
  · split
    · exact modifyCell_recelled _ _
    · exact .pure (.refl t)

theorem clearLeadingSpacer_recelled : Allows t.clearLeadingSpacer t.Recelled := by
  simp only [clearLeadingSpacer]
  split
  · exact modifyCell_recelled _ _
  · exact .pure (.refl t)

theorem writeAtCursor_recelled (c : Char) : Allows (t.writeAtCursor env c) t.Recelled := by
  refine Allows.bind (P := t.Recelled) ?_ fun a ha b hb => ?_
  · refine Allows.bind (P := fun _ => True) (fun _ _ => trivial) fun cell _ => ?_
    split
    · refine (clearOtherHalf_recelled cell).bind fun a ha b hb => ?_
      obtain ⟨raw, rfl⟩ := ha
      obtain ⟨raw', rfl⟩ := clearLeadingSpacer_recelled b hb
      exact ⟨raw', rfl⟩
    · exact .pure (.refl t)
  · obtain ⟨raw, rfl⟩ := ha
    obtain ⟨raw', rfl⟩ := modifyCell_recelled _ _ b hb
    exact ⟨raw', rfl⟩

theorem shiftForInsert_recelled (width : Nat) : Allows (t.shiftForInsert width) t.Recelled := by
  simp only [shiftForInsert]
  split
  · exact modifyRow_recelled _ _
  · exact .pure (.refl t)

/-! ### Printing -/

theorem linefeed_inBounds (h : t.InBounds) (hcol : t.grid.cursor.point.column < t.grid.columns) :
    Allows t.linefeed InBounds := by
  simp only [linefeed]
  split
  · exact scrollUpRelative_full _ _
  · split
    · intro t' ht'
      obtain ⟨a, ha, ht'⟩ := Option.bind_eq_some_iff.mp ht'
      have hgrid := damageCursor_grid a ha
      have hbounds := h.damageCursor (fun _ => hcol) a ha
      have hcol' : a.grid.cursor.point.column < a.grid.columns := by rwa [hgrid]
      exact InBounds.damageCursor
        (t := a.setCursorPoint (a.grid.cursor.point.line + 1) a.grid.cursor.point.column) hbounds
        (fun _ => hcol') t' ht'
    · exact .pure h

theorem wrapline_inBounds (h : t.InBounds) (hcol : t.grid.cursor.point.column < t.grid.columns) :
    Allows t.wrapline InBounds := by
  unfold wrapline
  split
  · refine (modifyCell_recelled _ _).bind fun a ha => ?_
    have hcol' : a.grid.cursor.point.column < a.grid.columns := by rwa [ha.cursor, ha.columns]
    refine Allows.bind (P := InBounds) ?_ fun b hb => ?_
    · split
      · exact linefeed_inBounds (ha.inBounds h) hcol'
      · exact ((ha.inBounds h).damageCursor fun _ => hcol').bind fun b hb => .pure hb
    · exact InBounds.damageCursor (t := (b.setColumn 0).setNeedsWrap false) hb id
  · exact .pure h

theorem writeMarked_inBounds (h : t.InBounds) (mark : Bool → Flags → Flags) (c : Char) :
    Allows (t.writeMarked env mark c) fun t' => t'.InBounds ∧
      t'.grid.cursor.point = t.grid.cursor.point ∧ t'.grid.columns = t.grid.columns := by
  refine (writeAtCursor_recelled c).bind fun a ha => .pure ?_
  obtain ⟨raw, rfl⟩ := ha
  exact ⟨h, rfl, rfl⟩

theorem advanceCursor_inBounds (h : t.InBounds) : t.advanceCursor.InBounds := by
  unfold advanceCursor
  split
  · exact h
  · exact h

theorem writeWide_inBounds (h : t.InBounds) (c : Char) : Allows (t.writeWide env c) InBounds := by
  refine (writeMarked_inBounds h _ c).bind fun a ha => ?_
  have hmoved : (a.setColumn (a.grid.cursor.point.column + 1)).InBounds := ha.1
  exact (writeMarked_inBounds hmoved _ ' ').bind fun b hb => .pure (advanceCursor_inBounds hb.1)

theorem inputWide_inBounds (h : t.InBounds) (hcol : t.grid.cursor.point.column < t.grid.columns)
    (c : Char) : Allows (t.inputWide env c) InBounds := by
  unfold inputWide
  split
  · split
    · refine (writeMarked_inBounds h _ ' ').bind fun a ha => ?_
      obtain ⟨hbounds, hpoint, hcolumns⟩ := ha
      refine (wrapline_inBounds hbounds ?_).bind fun b hb => writeWide_inBounds hb c
      rwa [hpoint, hcolumns]
    · exact .pure h
  · exact writeWide_inBounds h c

theorem input_inBounds (hwf : t.WF) (h : t.InBounds) (c : Char) :
    Allows (t.input env c) InBounds := by
  unfold input
  split
  · exact .pure h
  · refine Allows.bind (P := fun _ => True) (fun _ _ => trivial) fun column _ => ?_
    exact (modifyCell_recelled _ _).mono fun a ha => ha.inBounds h
  · refine Allows.bind (P := fun a => a.InBounds ∧ a.grid.cursor.point.column < a.grid.columns)
      (fun a ha => ?_) fun a ha => ?_
    · split at ha
      · have hcol := ((wrapline_returns hwf).of_eq ha).wf hwf
        exact ⟨wrapline_inBounds h hwf.grid.cursor.column_lt a ha, hcol.grid.cursor.column_lt⟩
      · cases ha
        exact ⟨h, hwf.grid.cursor.column_lt⟩
    · refine (shiftForInsert_recelled _).bind fun b hb => ?_
      have hbounds := hb.inBounds ha.1
      split
      · refine (writeAtCursor_recelled c).bind fun d hd => .pure ?_
        exact advanceCursor_inBounds (hd.inBounds hbounds)
      · apply inputWide_inBounds hbounds
        rw [hb.cursor, hb.columns]
        exact ha.2

/-! ### Moving the cursor -/

theorem goto_inBounds (h : t.InBounds) (hcol : t.grid.cursor.point.column < t.grid.columns)
    (line : Int) (col : Nat) : Allows (t.goto line col) InBounds := by
  simp only [goto]
  refine (h.damageCursor fun _ => hcol).bind fun a ha => ?_
  refine Allows.bind (P := InBounds) ?_ fun b hb => .pure hb
  refine InBounds.damageCursor (t := a.setCursorPoint _ _) ha fun hpos => ?_
  have hlast := lastColumn_eq a
  simp only [setCursorPoint] at hpos ⊢
  omega

theorem damageColumns_bind {f : Term → Option Term} (h : t.InBounds) {left right : Nat}
    (hright : t.Tight → t.Hides ∨ right < t.grid.columns)
    (hf : ∀ a : Term, a.InBounds → a.grid = t.grid → Allows (f a) InBounds) :
    Allows (t.damageColumns left right >>= f) InBounds := by
  intro t' ht'
  obtain ⟨a, ha, ht'⟩ := Option.bind_eq_some_iff.mp ht'
  exact hf a (h.damageColumns hright a ha) (damageColumns_grid _ _ a ha) t' ht'

theorem moveForward_inBounds (hwf : t.WF) (h : t.InBounds) (cols : Nat) :
    Allows (t.moveForward cols) InBounds := by
  have hcol := hwf.grid.cursor.column_lt
  have hlast := lastColumn_eq t
  refine damageColumns_bind h (fun _ => .inr ?_) fun a ha _ => .pure ha
  omega

theorem moveBackward_inBounds (hwf : t.WF) (h : t.InBounds) (cols : Nat) :
    Allows (t.moveBackward cols) InBounds :=
  damageColumns_bind h (fun _ => .inr hwf.grid.cursor.column_lt) fun _ ha _ => .pure ha

theorem carriageReturn_inBounds (hwf : t.WF) (h : t.InBounds) : Allows t.carriageReturn InBounds :=
  damageColumns_bind h (fun _ => .inr hwf.grid.cursor.column_lt) fun _ ha _ => .pure ha

theorem backspace_inBounds (hwf : t.WF) (h : t.InBounds) : Allows t.backspace InBounds := by
  unfold backspace
  split
  · exact InBounds.damageColumns
      (t := (t.setColumn (t.grid.cursor.point.column - 1)).setNeedsWrap false) h
      fun _ => .inr hwf.grid.cursor.column_lt
  · exact .pure h

theorem newline_inBounds (hwf : t.WF) (h : t.InBounds) : Allows t.newline InBounds := by
  intro t' ht'
  obtain ⟨a, ha, ht'⟩ := Option.bind_eq_some_iff.mp ht'
  have hwf' := ((linefeed_returns hwf).of_eq ha).wf hwf
  have hbounds := linefeed_inBounds h hwf.grid.cursor.column_lt a ha
  split at ht'
  · exact carriageReturn_inBounds hwf' hbounds t' ht'
  · cases ht'
    exact hbounds

theorem putTabs_inBounds (h : t.InBounds) (count : Nat) : Allows (putTabs env count t) InBounds := by
  induction count generalizing t with
  | zero => exact .pure h
  | succ count ih =>
      unfold putTabs
      split
      · refine Allows.bind (P := InBounds) ?_ fun a ha => ih ha
        refine (modifyCell_recelled _ _).bind fun a ha => ?_
        exact Allows.bind (P := fun _ => True) (fun _ _ => trivial) fun column _ =>
          .pure (ha.inBounds h)
      · exact .pure h

theorem putTab_inBounds (hwf : t.WF) (h : t.InBounds) (count : Nat) :
    Allows (t.putTab env count) InBounds := by
  unfold putTab
  split
  · exact wrapline_inBounds h hwf.grid.cursor.column_lt
  · exact putTabs_inBounds h count

theorem moveBackwardTabs_inBounds (hwf : t.WF) (h : t.InBounds) (count : Nat) :
    Allows (t.moveBackwardTabs count) InBounds := by
  refine Allows.bind (P := fun _ => True) (fun _ _ => trivial) fun column _ => ?_
  exact InBounds.damageColumns (t := t.setColumn column) h fun _ => .inr hwf.grid.cursor.column_lt

theorem moveForwardTabs_inBounds (hwf : t.WF) (h : t.InBounds) (count : Nat) :
    Allows (t.moveForwardTabs count) InBounds := by
  have hcolumn : Allows (forwardTabs t.tabs t.columns count t.grid.cursor.point.column) _ :=
    (forwardTabs_returns hwf.tabs hwf.grid.cursor.column_lt).allows
  refine hcolumn.bind fun column hcolumn => ?_
  exact InBounds.damageColumns (t := t.setColumn column) h fun _ => .inr hcolumn.2

theorem restoreCursorPosition_inBounds (hwf : t.WF) (h : t.InBounds) :
    Allows t.restoreCursorPosition InBounds := by
  refine damageColumns_bind h (fun _ => .inr hwf.grid.cursor.column_lt) fun a ha hgrid => ?_
  have hcol : a.grid.savedCursor.point.column < a.grid.columns := by
    rw [hgrid]
    exact hwf.grid.savedCursor.column_lt
  exact InBounds.damageCursor (t := { a with grid.cursor := a.grid.savedCursor }) ha fun _ => hcol

theorem reverseIndex_inBounds (hwf : t.WF) (h : t.InBounds) : Allows t.reverseIndex InBounds := by
  unfold reverseIndex
  split
  · exact scrollDownRelative_full _ _
  · refine damageColumns_bind h (fun _ => .inr hwf.grid.cursor.column_lt) fun a ha hgrid => ?_
    have hcol : a.grid.cursor.point.column < a.grid.columns := by
      rw [hgrid]
      exact hwf.grid.cursor.column_lt
    exact InBounds.damageCursor (t := a.setCursorPoint _ a.grid.cursor.point.column) ha
      fun _ => hcol

theorem setScrollingRegion_inBounds (hwf : t.WF) (h : t.InBounds) (top : Nat) (bottom : Option Nat) :
    Allows (t.setScrollingRegion top bottom) InBounds := by
  simp only [setScrollingRegion]
  split
  · exact .pure h
  · apply goto_inBounds
    · exact h
    · exact hwf.grid.cursor.column_lt

/-! ### Inserting, deleting and erasing -/

theorem insertBlankLines_inBounds (h : t.InBounds) (lines : Nat) :
    Allows (t.insertBlankLines lines) InBounds := by
  simp only [insertBlankLines]
  split
  · exact scrollDownRelative_full _ _
  · exact .pure h

theorem deleteLines_inBounds (h : t.InBounds) (lines : Nat) :
    Allows (t.deleteLines lines) InBounds := by
  refine Allows.bind (P := fun _ => True) (fun _ _ => trivial) fun line _ => ?_
  refine Allows.bind (P := fun _ => True) (fun _ _ => trivial) fun below _ => ?_
  simp only
  split
  · exact scrollUpRelative_full _ _
  · exact .pure h

theorem insertBlank_inBounds (h : t.InBounds) (count : Nat) :
    Allows (t.insertBlank count) InBounds := by
  refine Allows.bind (P := fun _ => True) (fun _ _ => trivial) fun room _ => ?_
  refine damageColumns_bind h (fun htight => .inr ?_) fun a ha _ => ?_
  · exact Nat.sub_lt htight.1 Nat.one_pos
  · exact (modifyRow_recelled _ _).mono fun b hb => hb.inBounds ha

theorem deleteChars_inBounds (h : t.InBounds) (count : Nat) :
    Allows (t.deleteChars count) InBounds := by
  refine damageColumns_bind h (fun htight => .inr ?_) fun a ha _ => ?_
  · exact Nat.sub_lt htight.1 Nat.one_pos
  · exact (modifyRow_recelled _ _).mono fun b hb => hb.inBounds ha

theorem eraseChars_inBounds (h : t.InBounds) {count : Nat}
    (hright : t.Tight → t.Hides ∨ t.grid.cursor.point.column + count < t.grid.columns) :
    Allows (t.eraseChars count) InBounds := by
  refine damageColumns_bind h (fun htight => (hright htight).imp id fun hlt => ?_) fun a ha _ => ?_
  · exact Nat.lt_of_le_of_lt (Nat.min_le_left _ _) hlt
  · exact (modifyRow_recelled _ _).mono fun b hb => hb.inBounds ha

theorem clearColumns_inBounds (h : t.InBounds) {left right : Nat} (hright : right ≤ t.grid.columns) :
    Allows (t.clearColumns left right) InBounds := by
  refine damageColumns_bind h (fun htight => .inr ?_) fun a ha _ => ?_
  · have hpos := htight.1
    omega
  · exact (modifyRow_recelled _ _).bind fun b hb => .pure (hb.inBounds ha)

theorem clearLine_inBounds (hwf : t.WF) (h : t.InBounds) (mode : LineClearMode) :
    Allows (t.clearLine mode) InBounds := by
  cases mode with
  | right =>
      simp only [clearLine]
      split
      · exact .pure h
      · exact clearColumns_inBounds h (Nat.le_refl _)
  | left => exact clearColumns_inBounds h hwf.grid.cursor.column_lt
  | all => exact clearColumns_inBounds h (Nat.le_refl _)

/-! ### Handlers that leave the screen alone -/

theorem Quiet.inBounds (h : t.Quiet t')
    (hd : t'.damageState = t.damageState ∨ t'.damageState.full = true) (ht : t.InBounds) :
    t'.InBounds := by
  rcases ht with hexempt | htight
  · exact .inl (h.exempt hexempt)
  · rcases hd with hd | hfull
    · have hgrid := h.grid
      refine .inr ?_
      rw [Tight, hd, show t'.grid.columns = t.grid.columns from (congrArg Grid.columns hgrid :),
        show t'.grid.lines = t.grid.lines from (congrArg Grid.lines hgrid :),
        show t'.grid.displayOffset = t.grid.displayOffset from (congrArg Grid.displayOffset hgrid :)]
      exact htight
    · exact .inl (.inl hfull)

end Term

/-- The steps that damage no column behind the last one: characters are erased up to the
last column at most, unless the next report is a full one or does not have the line. -/
def TermOp.BoundsSafe (t : Term) : TermOp → Prop
  | .handler (.eraseChars count) =>
      t.Exempt ∨ t.Hides ∨ t.grid.cursor.point.column + count < t.grid.columns
  | _ => True

namespace HandlerOp
variable {t : Term} {env : Env}

theorem step_quiet_inBounds {op : HandlerOp} (h : op.isQuiet = true) (ht : t.InBounds) :
    Allows (op.step env t) Term.InBounds := by
  intro t' ht'
  refine (step_quiet env h t' ht').inBounds ?_ ht
  by_cases hop : op.isAttribute = true
  · exact .inl (step_attribute_damage hop t' ht')
  · exact (step_aside h (Bool.eq_false_iff.mpr hop) t' ht').damage

theorem swapAltIf_inBounds (hwf : t.WF) (h : t.InBounds) (b : Bool) :
    Allows (t.swapAltIf b) Term.InBounds := by
  unfold Term.swapAltIf
  split
  · exact (Term.swapAlt_returns hwf).allows.mono fun _ ht' => .inl (.inl ht'.full)
  · exact .pure h

theorem deccolm_inBounds (hwf : t.WF) : Allows t.deccolm Term.InBounds := by
  refine (Term.deccolm_returns hwf).allows.mono fun t' ht' => ?_
  obtain ⟨a, -, ht'⟩ := ht'
  exact .inl (.inl ht'.full)

/-- A safe call of the parser keeps the bounds. -/
theorem step_inBounds (hwf : t.WF) (h : t.InBounds) {op : HandlerOp} (hop : op.Admissible)
    (hsafe : TermOp.BoundsSafe t (.handler op)) : Allows (op.step env t) Term.InBounds := by
  by_cases hquiet : op.isQuiet = true
  · exact step_quiet_inBounds hquiet h
  have hcol := hwf.grid.cursor.column_lt
  cases op with
  | input c => exact Term.input_inBounds hwf h c
  | goto line col => exact Term.goto_inBounds h hcol line col
  | gotoLine line => exact Term.goto_inBounds h hcol line _
  | gotoCol col => exact Term.goto_inBounds h hcol _ col
  | insertBlank count => exact Term.insertBlank_inBounds h count
  | moveUp lines => exact Term.goto_inBounds h hcol _ _
  | moveDown lines => exact Term.goto_inBounds h hcol _ _
  | moveForward cols => exact Term.moveForward_inBounds hwf h cols
  | moveBackward cols => exact Term.moveBackward_inBounds hwf h cols
  | moveDownAndCr lines => exact Term.goto_inBounds h hcol _ _
  | moveUpAndCr lines => exact Term.goto_inBounds h hcol _ _
  | putTab count => exact Term.putTab_inBounds hwf h count
  | backspace => exact Term.backspace_inBounds hwf h
  | carriageReturn => exact Term.carriageReturn_inBounds hwf h
  | linefeed => exact Term.linefeed_inBounds h hcol
  | newline => exact Term.newline_inBounds hwf h
  | scrollUp lines => exact Term.scrollUpRelative_full _ _
  | scrollDown lines => exact Term.scrollDownRelative_full _ _
  | insertBlankLines lines => exact Term.insertBlankLines_inBounds h lines
  | deleteLines lines => exact Term.deleteLines_inBounds h lines
  | eraseChars count =>
      rcases hsafe with hexempt | hright
      · intro t' ht'
        exact .inl ((step_stepped env hwf hop t' ht').exempt hexempt)
      · exact Term.eraseChars_inBounds h fun _ => hright
  | deleteChars count => exact Term.deleteChars_inBounds h count
  | moveBackwardTabs count => exact Term.moveBackwardTabs_inBounds hwf h count
  | moveForwardTabs count => exact Term.moveForwardTabs_inBounds hwf h count
  | saveCursorPosition => exact .pure h
  | restoreCursorPosition => exact Term.restoreCursorPosition_inBounds hwf h
  | clearLine mode => exact Term.clearLine_inBounds hwf h mode
  | clearScreen mode =>
      exact (Term.clearScreen_returns hwf mode).allows.mono fun _ ht' => .inl (.inl ht'.full)
  | resetState => exact (Term.resetState_returns hwf).allows.mono fun _ ht' => .inl (.inl ht'.full)
  | reverseIndex => exact Term.reverseIndex_inBounds hwf h
  | decaln => exact (Term.decaln_returns hwf).allows.mono fun _ ht' => .inl (.inl ht'.full)
  | setScrollingRegion top bottom => exact Term.setScrollingRegion_inBounds hwf h top bottom
  | setPrivateMode mode =>
      cases mode with
      | unknown _ => exact absurd rfl hquiet
      | named mode =>
          cases mode with
          | swapScreenAndSetRestoreCursor => exact swapAltIf_inBounds hwf h false
          | origin =>
              exact Term.goto_inBounds (t := t.modifyMode fun m => { m with origin := true }) h hcol 0 0
          | columnMode => exact deccolm_inBounds hwf
          | _ => exact absurd rfl hquiet
  | unsetPrivateMode mode =>
      cases mode with
      | unknown _ => exact absurd rfl hquiet
      | named mode =>
          cases mode with
          | swapScreenAndSetRestoreCursor => exact swapAltIf_inBounds hwf h true
          | columnMode => exact deccolm_inBounds hwf
          | _ => exact absurd rfl hquiet
  | _ => exact absurd rfl hquiet

end HandlerOp

namespace Term
variable {t t' : Term} {env : Env}

/-! ### The terminal's owner -/

theorem viModeRecomputeSelection_inBounds (h : t.InBounds) : t.viModeRecomputeSelection.InBounds := by
  unfold viModeRecomputeSelection
  split
  · exact h
  · exact h

/-- Where another part of the history is shown, everything is damaged. -/
theorem scrollDisplay_inBounds (h : t.InBounds) (scroll : Scroll) :
    (t.scrollDisplay scroll).InBounds := by
  simp only [scrollDisplay]
  split
  · exact .inl (.inl rfl)
  · next heq =>
      rw [viModeRecomputeSelection_grid] at heq
      have hoffset : t.grid.displayOffset = (t.grid.scrollDisplay scroll).displayOffset :=
        not_not.mp heq
      apply viModeRecomputeSelection_inBounds
      apply h.imp id
      intro htight
      exact ⟨htight.1, fun i b hb hi => htight.2 i b hb (hoffset ▸ hi)⟩

theorem scrollToPoint_inBounds (h : t.InBounds) (point : Point) :
    (t.scrollToPoint point).InBounds := by
  simp only [scrollToPoint]
  split
  · exact scrollDisplay_inBounds h _
  · split
    · exact scrollDisplay_inBounds h _
    · exact h

theorem viGotoPoint_inBounds (h : t.InBounds) (point : Point) : (t.viGotoPoint point).InBounds :=
  viModeRecomputeSelection_inBounds (t := { t.scrollToPoint point with viModeCursor := point })
    (scrollToPoint_inBounds h point)

theorem viMotion_inBounds (h : t.InBounds) (motion : ViMotion) :
    Allows (t.viMotion motion) InBounds := by
  unfold viMotion
  split
  · exact Allows.bind (P := fun _ => True) (fun _ _ => trivial) fun point _ =>
      .pure (viGotoPoint_inBounds h point)
  · exact .pure h

theorem toggleViMode_inBounds (h : t.InBounds) : t.toggleViMode.InBounds := by
  simp only [toggleViMode]
  split
  · split
    · exact h
    · exact h
  · exact h

theorem resize_inBounds (h : t.InBounds) (numLines numCols : Nat) :
    Allows (t.resize numLines numCols) InBounds := by
  unfold resize
  simp only
  split
  · exact .pure h
  · intro t' ht'
    simp only [Option.bind_eq_bind, Option.bind_eq_some_iff, Option.some.injEq] at ht'
    obtain ⟨_, -, _, -, rfl⟩ := ht'
    exact .inl (.inl rfl)

theorem setOptions_inBounds (options : Config) : Allows (t.setOptions options) InBounds := by
  intro t' ht'
  simp only [setOptions, Option.bind_eq_bind, Option.bind_eq_some_iff, Option.some.injEq] at ht'
  obtain ⟨_, -, rfl⟩ := ht'
  exact .inl (.inl rfl)

theorem resetDamage_inBounds (hwf : t.WF) : t.resetDamage.InBounds := by
  refine .inr ⟨hwf.grid.columns_pos, fun i b hb _ => ?_⟩
  simp only [resetDamage, TermDamageState.reset, List.getElem?_map, Option.map_eq_some_iff] at hb
  obtain ⟨_, -, rfl⟩ := hb
  exact hwf.grid.columns_pos

/-- Collecting the damage adds the cursor, and where it was before. -/
theorem damage_tight (hwf : t.WF) (h : t.Tight) : Allows t.damage fun r => r.1.Tight := by
  have hmarked : Tight (if t.mode.insert then t.markFullyDamaged else t) := by
    split
    · exact h
    · exact h
  have hgrid : (if t.mode.insert then t.markFullyDamaged else t).grid = t.grid := by
    split <;> rfl
  have hlast : (if t.mode.insert then t.markFullyDamaged else t).damageState.lastCursor =
      t.damageState.lastCursor := by
    split <;> rfl
  simp only [damage]
  generalize (if t.mode.insert then t.markFullyDamaged else t) = a at hmarked hgrid hlast ⊢
  split
  · exact .pure hmarked
  · refine Allows.bind (P := fun b => b.Tight ∧ b.grid = a.grid) ?_ fun b hb => ?_
    · split
      · intro b hb
        simp only [Option.bind_eq_bind, Option.bind_eq_some_iff, Option.some.injEq] at hb
        obtain ⟨line, -, d, hd, rfl⟩ := hb
        have hcol : a.damageState.lastCursor.column < a.grid.columns := by
          rw [hlast, hgrid]
          exact hwf.lastCursor.column_lt
        exact ⟨Tight.damageLine (t := { a with damageState.lastCursor := a.grid.cursor.point })
          hmarked (.inr hcol) hd, rfl⟩
      · exact .pure ⟨hmarked, rfl⟩
    · refine (hb.1.damageColumns (.inr ?_)).bind fun c hc => .pure hc
      rw [hb.2, hgrid]
      exact hwf.grid.cursor.column_lt

theorem damage_exempt (h : t.Exempt) : Allows t.damage fun r => r.1.Exempt := by
  simp only [damage]
  cases hinsert : t.mode.insert with
  | true => exact .pure (.inl rfl)
  | false =>
      have hfull : t.damageState.full = true := h.resolve_right (by rw [hinsert]; decide)
      simp only [Bool.false_eq_true, if_false, hfull, if_true]
      exact .pure (.inl rfl)

/-- Without full damage, and outside of insert mode, the report has bounds. -/
theorem damage_notFull (h : ¬ t.Exempt) : Allows t.damage fun r => r.2 ≠ .full := by
  obtain ⟨hfull, hinsert⟩ := not_or.mp h
  simp only [damage, Bool.eq_false_iff.mpr hinsert, Bool.eq_false_iff.mpr hfull, Bool.false_eq_true,
    if_false]
  refine Allows.bind (P := fun _ => True) (fun _ _ => trivial) fun a _ => ?_
  refine Allows.bind (P := fun _ => True) (fun _ _ => trivial) fun b _ => .pure ?_
  exact TermDamage.noConfusion

end Term

namespace TermOp
variable {t : Term} {env : Env}

theorem step_inBounds (hwf : t.WF) (h : t.InBounds) {op : TermOp} (hop : op.Admissible t)
    (hsafe : op.BoundsSafe t) : Allows (op.step env t) Term.InBounds := by
  cases op with
  | handler op => exact HandlerOp.step_inBounds hwf h hop hsafe
  | resize lines columns => exact Term.resize_inBounds h lines columns
  | setOptions options => exact Term.setOptions_inBounds options
  | swapAlt => exact (Term.swapAlt_returns hwf).allows.mono fun _ ht' => .inl (.inl ht'.full)
  | scrollDisplay scroll => exact .pure (Term.scrollDisplay_inBounds h scroll)
  | toggleViMode => exact .pure (Term.toggleViMode_inBounds h)
  | viMotion motion => exact Term.viMotion_inBounds h motion
  | viGotoPoint point => exact .pure (Term.viGotoPoint_inBounds h point)
  | setAutoScrollEnabled enabled => exact .pure h
  | setSelection selection => exact .pure h
  | damage =>
      intro t' ht'
      obtain ⟨r, hr, rfl⟩ := Option.map_eq_some_iff.mp ht'
      exact h.imp (fun hexempt => Term.damage_exempt hexempt r hr)
        fun htight => Term.damage_tight hwf htight r hr
  | resetDamage => exact .pure (Term.resetDamage_inBounds hwf)

end TermOp

namespace Term
variable {t t' : Term} {env : Env} {config : Config} {lines columns : Nat}

/-- The bounds are on the screen; their line is counted from the top of the viewport. -/
def OnScreen (t : Term) (b : LineDamageBounds) : Prop :=
  (∃ line < t.screenLines, b.line = line + t.grid.displayOffset) ∧
    b.left ≤ b.right ∧ b.right < t.columns

theorem new_inBounds (config : Config) (lines columns : Nat) :
    (new config lines columns).InBounds := .inl (.inl rfl)

theorem visible_onScreen (hnumbered : t.damageState.Numbered) (htight : t.Tight)
    (hlength : t.damageState.lines.length = t.grid.lines) {b : LineDamageBounds}
    (hb : b ∈ t.damageState.visible t.grid.displayOffset) : t.OnScreen b := by
  simp only [TermDamageState.visible, List.mem_map, List.mem_filter] at hb
  obtain ⟨b₀, ⟨hmem, hdamaged⟩, rfl⟩ := hb
  obtain ⟨i, hi⟩ := List.mem_iff_getElem?.mp hmem
  rw [List.getElem?_take] at hi
  split at hi
  · next hlt =>
      have hline := hnumbered.line hi
      rw [hlength] at hlt
      refine ⟨⟨b₀.line, ?_, rfl⟩, of_decide_eq_true hdamaged, ?_⟩
      · simp only [screenLines]
        omega
      · exact htight.2 i b₀ hi (by omega)
  · cases hi

/-- In every run of safe steps, the report of every state has bounds on the screen only. -/
theorem run_onScreen (hl : 1 ≤ lines) (hc : 2 ≤ columns)
    (hrun : Reaches (TermOp.step env) (fun t op => op.Admissible t ∧ op.BoundsSafe t)
      (new config lines columns) t) :
    Returns t.damage fun r => ∀ bounds, r.2 = .lines bounds → ∀ b ∈ bounds, t.OnScreen b := by
  obtain ⟨hwf, hnumbered, hbounds⟩ : t.WF ∧ t.damageState.Numbered ∧ t.InBounds := by
    refine hrun.invariant (P := fun t => t.WF ∧ t.damageState.Numbered ∧ t.InBounds)
      ⟨new_wf config hl hc, TermDamageState.numbered_undamaged _ _ _ _, new_inBounds _ _ _⟩
      fun a op b ha hop hstep => ?_
    have hstepped := TermOp.step_stepped env ha.1 hop.1 _ hstep
    exact ⟨hstepped.wf ha.1, hstepped.numbered ha.2.1,
      TermOp.step_inBounds ha.1 ha.2.2 hop.1 hop.2 b hstep⟩
  obtain ⟨r, hr, hcollected⟩ := damage_returns hwf
  refine ⟨r, hr, fun bounds hreport b hb => ?_⟩
  rcases hcollected.report with hfull | ⟨hnotFull, hnotInsert, hlines, -⟩
  · rw [hreport] at hfull
    cases hfull
  · have htight : t.Tight := by
      refine hbounds.resolve_left fun hexempt => ?_
      rcases hexempt with hfull | hinsert
      · exact absurd (hfull.symm.trans hnotFull) (by decide)
      · exact absurd (hinsert.symm.trans hnotInsert) (by decide)
    obtain rfl : bounds = r.1.damageState.visible t.grid.displayOffset := by
      rw [hreport] at hlines
      exact TermDamage.lines.inj hlines
    have hgrid : r.1.grid = t.grid := (congrArg Term.grid hcollected.rest :)
    have hon : r.1.OnScreen b := by
      apply visible_onScreen (hnumbered.of_eq hcollected.numbers) (damage_tight hwf htight r hr)
      · rw [hcollected.length, hgrid]
        exact hwf.damage
      · rw [hgrid]
        exact hb
    simpa only [OnScreen, screenLines, Term.columns, hgrid] using hon

theorem eraseChars_unsafe (hwf : t.WF) (hnumbered : t.damageState.Numbered) {count : Nat}
    (h : ¬ TermOp.BoundsSafe t (.handler (.eraseChars count))) :
    Returns (t.eraseChars count) fun t' => Returns t'.damage fun r =>
      ∃ bounds, r.2 = .lines bounds ∧ ∃ b ∈ bounds, ¬ t'.OnScreen b := by
  obtain ⟨hnotExempt, h⟩ := not_or.mp h
  obtain ⟨hshown, hover⟩ := not_or.mp h
  have hcol := hwf.grid.cursor.column_lt
  have hnonneg := hwf.grid.cursor.line_nonneg
  obtain ⟨t', ht', S, hdrawn, -⟩ := eraseChars_returns hwf count
  have hwf' := hdrawn.toEdited.wf hwf
  have hnumbered' := hnumbered.of_eq hdrawn.toEdited.damage.numbers
  refine ⟨t', ht', ?_⟩
  obtain ⟨a, ha, hmodify⟩ := Option.bind_eq_some_iff.mp ht'
  have hgrid := damageColumns_grid _ _ a ha
  have hexempt := damageColumns_exempt _ _ a ha
  have hmarks := ((damageColumns_returns hwf.damage hwf.grid.cursor _ _).of_eq ha).2 t.grid.columns
    (Nat.le_of_lt hcol) (by simp only [Term.columns]; omega)
  obtain ⟨raw, rfl⟩ := modifyRow_recelled _ _ t' hmodify
  obtain ⟨r, hreport, hr⟩ := damage_returns hwf'
  refine ⟨r, hreport, ?_⟩
  rcases hr.report with hfull | ⟨-, -, hlines, hkept, -⟩
  · have hnotExempt' : ¬ Exempt { a with grid.raw := raw } := fun h => hnotExempt (hexempt.mp h)
    exact absurd hfull (damage_notFull hnotExempt' r hreport)
  · have hmark := hkept _ hmarks
    have hoffset : a.grid.displayOffset = t.grid.displayOffset := congrArg Grid.displayOffset hgrid
    have hlength : r.1.damageState.lines.length = t.grid.lines := by
      rw [hr.length]
      have hlines : a.grid.lines = t.grid.lines := congrArg Grid.lines hgrid
      exact hwf'.damage.trans hlines
    simp only [Hides] at hshown
    have hviewport : ((t.grid.cursor.point.line + t.grid.displayOffset).toNat : Int) =
        t.grid.cursor.point.line + t.grid.displayOffset := Int.toNat_of_nonneg (by omega)
    obtain ⟨b, hb, -, -, hright⟩ := TermDamageState.visible_reports (hnumbered'.of_eq hr.numbers)
      hviewport (by omega) (Nat.le_refl _) (Nat.le_refl _) hmark hmark
    refine ⟨_, hlines, b, hoffset ▸ hb, fun hon => ?_⟩
    have hlt : b.right < a.grid.columns := hon.2.2
    rw [hgrid] at hlt
    exact absurd hlt (Nat.not_lt.mpr hright)

/-- Erasing one character of a line of two columns. -/
theorem run_onScreen_erase : ∃ t : Term, Reaches (TermOp.step .ascii)
    (fun t op => op.Admissible t ∧ op.BoundsSafe t) (new .initial 1 2) t ∧ ¬ t.Exempt ∧
    Returns t.damage fun r => ∀ bounds, r.2 = .lines bounds → ∀ b ∈ bounds, t.OnScreen b := by
  have hrun : Reaches (TermOp.step .ascii) (fun t op => op.Admissible t ∧ op.BoundsSafe t)
      (new .initial 1 2) _ :=
    .step (.step .refl (a := .resetDamage) (And.intro trivial trivial) rfl)
      (a := .handler (.eraseChars 1)) (And.intro trivial (.inr (.inr (by decide)))) rfl
  exact ⟨_, hrun, by decide, run_onScreen (by decide) (by decide) hrun⟩

/-- Erasing up to the end of a line damages one column behind the last. -/
theorem eraseChars_overhangs : ∃ t r bounds b, Reachable .ascii .initial 1 2 t ∧
    t.damage = some (r, .lines bounds) ∧ b ∈ bounds ∧ b.right = t.columns := by
  have hrun : Reachable .ascii .initial 1 2 _ :=
    .step (.step .refl (a := .resetDamage) trivial rfl) (a := .handler (.eraseChars 2)) trivial rfl
  exact ⟨_, _, _, _, hrun, rfl, List.mem_singleton.mpr rfl, rfl⟩

end Term
end Velacritty
