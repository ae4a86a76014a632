import Velacritty.HandlerSteps

/-! The changes of the screen that the next damage report covers. Printing records no
damage: what it draws lies between the cursor's old place and its new one. -/
namespace Velacritty
open Fallible

namespace Term
variable {t₀ t t' a b : Term} {S : Point → Prop} {p q : Point}

/-! ### Cells of the next report -/

/-- The cell is damaged, or the cursor was there at the last report. -/
def Recorded (t : Term) (p : Point) : Prop :=
  t.damageState.Marks p ∨ t.damageState.lastCursor = p

/-- The cell is between two recorded ones. -/
def Enclosed (t : Term) (p : Point) : Prop :=
  ∃ lo hi, lo ≤ p.column ∧ p.column ≤ hi ∧ t.Recorded ⟨p.line, lo⟩ ∧ t.Recorded ⟨p.line, hi⟩

/-- The cell is between a recorded one, and a recorded one or the cursor. -/
def Covered (t : Term) (p : Point) : Prop :=
  ∃ lo hi, lo ≤ p.column ∧ p.column ≤ hi ∧ t.Recorded ⟨p.line, lo⟩ ∧
    (t.Recorded ⟨p.line, hi⟩ ∨ t.grid.cursor.point = ⟨p.line, hi⟩)

/-- A recorded cell of the cursor's line is not right of the cursor. -/
def Anchored (t : Term) : Prop :=
  ∃ column ≤ t.grid.cursor.point.column, t.Recorded ⟨t.grid.cursor.point.line, column⟩

/-- The line is part of the viewport. -/
def Shown (t : Term) (p : Point) : Prop :=
  -(t.grid.displayOffset : Int) ≤ p.line ∧ p.line + t.grid.displayOffset < t.grid.lines

/-- The next report is a full one. -/
def Exempt (t : Term) : Prop := t.damageState.full = true ∨ t.mode.insert = true

/-- The next report covers each cell of the viewport that differs from `t₀`. -/
structure Tracked (t₀ t : Term) : Prop where
  displayOffset : t.grid.displayOffset = t₀.grid.displayOffset
  lines : t.grid.lines = t₀.grid.lines
  anchored : t.Anchored
  covered : ∀ p, t.Shown p → t.grid.cellAt p ≠ t₀.grid.cellAt p → t.Covered p

theorem Recorded.grow (h : t.Recorded p) (hd : t.damageState.Grows t'.damageState) :
    t'.Recorded p :=
  h.imp (hd.marks p) fun hlast => hd.lastCursor.trans hlast

/-- Cells between the old place of the cursor and the new one, to its right, are covered. -/
theorem Anchored.swept (h : t.Anchored) (hd : t.damageState.Grows t'.damageState)
    (hline : t'.grid.cursor.point.line = t.grid.cursor.point.line)
    (hp : p.line = t.grid.cursor.point.line) (hlo : t.grid.cursor.point.column ≤ p.column)
    (hhi : p.column ≤ t'.grid.cursor.point.column) : t'.Covered p := by
  obtain ⟨column, hle, hrecorded⟩ := h
  refine ⟨column, t'.grid.cursor.point.column, Nat.le_trans hle hlo, hhi, ?_, .inr ?_⟩
  · rw [hp]
    exact hrecorded.grow hd
  · rw [hp, ← hline]

theorem Anchored.advance (h : t.Anchored) (hd : t.damageState.Grows t'.damageState)
    (hline : t'.grid.cursor.point.line = t.grid.cursor.point.line)
    (hcolumn : t.grid.cursor.point.column ≤ t'.grid.cursor.point.column) : t'.Anchored := by
  obtain ⟨column, hle, hrecorded⟩ := h
  refine ⟨column, Nat.le_trans hle hcolumn, ?_⟩
  rw [hline]
  exact hrecorded.grow hd

/-! ### Keeping track -/

/-- The old place of the cursor is recorded, or the cursor went right from there. -/
def Follows (t t' : Term) : Prop :=
  t'.Recorded t.grid.cursor.point ∨
    t'.grid.cursor.point.line = t.grid.cursor.point.line ∧
      t.grid.cursor.point.column ≤ t'.grid.cursor.point.column

theorem Covered.follow (h : t.Covered p) (hd : t.damageState.Grows t'.damageState)
    (hf : Follows t t') : t'.Covered p := by
  obtain ⟨lo, hi, hlo, hhi, hleft, hright⟩ := h
  rcases hright with hright | hcursor
  · exact ⟨lo, hi, hlo, hhi, hleft.grow hd, .inl (hright.grow hd)⟩
  · rcases hf with hrecorded | ⟨hline, hcolumn⟩
    · exact ⟨lo, hi, hlo, hhi, hleft.grow hd, .inl (hcursor ▸ hrecorded)⟩
    · rw [hcursor] at hline hcolumn
      refine ⟨lo, _, hlo, Nat.le_trans hhi hcolumn, hleft.grow hd, .inr ?_⟩
      rw [← hline]

/-- The screen shows the same lines, of which only cells in `S` changed. -/
structure Redraws (S : Point → Prop) (t t' : Term) : Prop where
  displayOffset : t'.grid.displayOffset = t.grid.displayOffset
  lines : t'.grid.lines = t.grid.lines
  cells : Grid.ChangesOnly S t.grid t'.grid
  damage : t.damageState.Grows t'.damageState

theorem Edited.redraws (h : Edited S t t') : Redraws S t t' :=
  ⟨h.displayOffset, h.lines, h.cells, h.damage⟩

theorem Redraws.shown (h : Redraws S t t') : t'.Shown p ↔ t.Shown p := by
  simp only [Shown, h.displayOffset, h.lines]

theorem Tracked.redraw (h : Tracked t₀ t) (hr : Redraws S t t')
    (hkeep : ∀ p, t.Shown p → t.Covered p → t'.Covered p) (hanchored : t'.Anchored)
    (hnew : ∀ p, t.Shown p → S p → t'.Covered p) : Tracked t₀ t' := by
  refine ⟨hr.displayOffset.trans h.displayOffset, hr.lines.trans h.lines, hanchored, fun p hp hne => ?_⟩
  rw [hr.shown] at hp
  by_cases hS : S p
  · exact hnew p hp hS
  · rw [hr.cells p hS] at hne
    exact hkeep p hp (h.covered p hp hne)

theorem Moved.tracked (h : Moved t t') (ht : Tracked t₀ t) : Tracked t₀ t' :=
  ht.redraw h.toEdited.redraws
    (fun _ _ hp => hp.follow h.toEdited.damage (.inl (.inl h.source)))
    ⟨_, Nat.le_refl _, .inl h.target⟩ fun _ _ => False.elim

/-- The cursor stayed, or went right over all cells that changed without being covered. -/
theorem Tracked.advance (ht : Tracked t₀ t) (hr : Redraws S t t')
    (hline : t'.grid.cursor.point.line = t.grid.cursor.point.line)
    (hcolumn : t.grid.cursor.point.column ≤ t'.grid.cursor.point.column)
    (hnew : ∀ p, t.Shown p → S p → t.Covered p ∨
      p.line = t.grid.cursor.point.line ∧ t.grid.cursor.point.column ≤ p.column ∧
        p.column ≤ t'.grid.cursor.point.column) : Tracked t₀ t' := by
  have hf : Follows t t' := .inr ⟨hline, hcolumn⟩
  refine ht.redraw hr (fun _ _ hp => hp.follow hr.damage hf)
    (ht.anchored.advance hr.damage hline hcolumn) fun p hp hS => ?_
  rcases hnew p hp hS with hcovered | ⟨hpline, hlo, hhi⟩
  · exact hcovered.follow hr.damage hf
  · exact ht.anchored.swept hr.damage hline hpline hlo hhi

theorem Quiet.redraws (h : t.Quiet t') : Redraws S t t' :=
  ⟨(congrArg Grid.displayOffset h.grid :), (congrArg Grid.lines h.grid :),
    .of_raw (congrArg Grid.raw h.grid :), h.damage⟩

theorem Quiet.tracked (h : t.Quiet t') (ht : Tracked t₀ t) : Tracked t₀ t' :=
  ht.advance (S := fun _ => False) h.redraws (by rw [h.point]) (Nat.le_of_eq (by rw [h.point]))
    fun _ _ => False.elim

theorem Redrawn.tracked (h : Redrawn t t') (ht : Tracked t₀ t) : Tracked t₀ t' := by
  obtain ⟨S, h, hmarks⟩ := h
  have hf : Follows t t' := .inr (by rw [h.cursor]; exact ⟨rfl, Nat.le_refl _⟩)
  refine ht.redraw h.toEdited.redraws (fun _ _ hp => hp.follow h.toEdited.damage hf)
    (ht.anchored.advance h.toEdited.damage (by rw [h.cursor]) (by rw [h.cursor])) fun p _ hS => ?_
  exact ⟨p.column, p.column, Nat.le_refl _, Nat.le_refl _, .inl (hmarks p hS), .inl (.inl (hmarks p hS))⟩

theorem Tabbed.tracked (h : Tabbed t t') (ht : Tracked t₀ t) : Tracked t₀ t' :=
  ht.advance h.edited.redraws h.line h.column fun _ _ hp => .inr hp

theorem Swept.tracked {width : Nat} (h : Swept width t t') (ht : Tracked t₀ t)
    (hclears : ∀ p, t.Shown p → t.Clears width t.grid.cursor.point p → t.Covered p) :
    Tracked t₀ t' :=
  ht.advance h.edited.redraws h.line h.column fun p hp hS => hS.symm.imp (hclears p hp) id

/-! ### Full reports -/

theorem Edited.exempt (h : Edited S t t') (ht : t.Exempt) : t'.Exempt :=
  ht.imp h.damage.full fun hinsert => h.mode ▸ hinsert

theorem Quiet.exempt (h : t.Quiet t') (ht : t.Exempt) : t'.Exempt := by
  rcases ht with hfull | hinsert
  · exact .inl (h.damage.full hfull)
  · exact (h.insert hinsert).symm

theorem ScrolledUp.full {origin : Int} {lines : Nat} (h : ScrolledUp origin lines t t') :
    t'.damageState.full = true := (congrArg (fun t => t.damageState.full) h.rest :)

theorem ScrolledDown.full {origin : Int} (h : ScrolledDown origin t t') :
    t'.damageState.full = true := (congrArg (fun t => t.damageState.full) h.rest :)

theorem Regridded.full {op : GridOp Cell} (h : Regridded op t t') : t'.damageState.full = true :=
  (congrArg (fun t => t.damageState.full) h.rest :)

theorem Cleared.full (h : Cleared t t') : t'.damageState.full = true := by
  cases h with
  | redone h => exact h.full
  | viewport h _ => exact h.full
  | history h _ => exact h.full

theorem Linefed.exempt (h : Linefed t t') (ht : t.Exempt) : t'.Exempt := by
  cases h with
  | scrolled _ h => exact .inl h.full
  | moved _ h _ => exact h.toEdited.exempt ht
  | stuck _ _ h => exact h ▸ ht

theorem Wrapped.exempt (h : Wrapped t t') (ht : t.Exempt) : t'.Exempt := by
  cases h with
  | off _ h => exact h ▸ ht
  | scrolled _ _ _ hb h _ => exact .inl (h.damage.full hb.full)
  | moved _ _ h _ _ _ => exact h.exempt ht
  | stuck _ _ _ h _ _ _ => exact h.exempt ht

theorem Wrapped.full (h : Wrapped t t') (hmode : t.mode.lineWrap = true)
    (hline : t.grid.cursor.point.line + 1 = t.regionEnd) : t'.damageState.full = true := by
  cases h with
  | off hoff _ => exact absurd (hmode.symm.trans hoff) (by decide)
  | scrolled _ _ _ hb h _ => exact h.damage.full hb.full
  | moved _ hne _ _ _ _ => exact absurd hline hne
  | stuck _ hne _ _ _ _ _ => exact absurd hline hne

theorem Printed.exempt {width : Nat} (h : Printed width t t') (ht : t.Exempt) : t'.Exempt := by
  cases h with
  | swept _ h => exact h.edited.exempt ht
  | dropped _ _ h => exact h ▸ ht
  | wrapped _ _ ha _ _ _ _ _ _ hb h => exact h.edited.exempt (hb.exempt (ha.exempt ht))

theorem Inputted.exempt {env : Env} {c : Char} (h : Inputted env c t t') (ht : t.Exempt) :
    t'.Exempt := by
  cases h with
  | ignored _ h => exact h ▸ ht
  | joined _ _ h _ => exact h.toEdited.exempt ht
  | printed _ _ ha hb h =>
      have hexempt : Exempt _ := ha.elim (fun h => h.2 ▸ ht) fun h => h.2.exempt ht
      exact h.exempt (hb.elim (fun h => h ▸ hexempt) fun h => h.2.toEdited.exempt hexempt)

/-! ### Wrapping -/

/-- A character of this width goes to the next line first. -/
def Wraps (t : Term) (width : Nat) : Prop :=
  t.mode.lineWrap = true ∧ (t.grid.cursor.inputNeedsWrap = true ∨
    width ≠ 1 ∧ t.grid.cursor.point.column + 1 = t.grid.columns)

/-- Below the scroll region, at the bottom of the screen, there is no next line: a wrap
goes back to the start of the same one. -/
def AtDeadEnd (t : Term) : Prop :=
  t.grid.cursor.point.line + 1 ≠ t.regionEnd ∧ t.grid.cursor.point.line + 1 = t.grid.lines

/-- The line that a wrap goes to when it does not scroll. -/
def wrapTarget (t : Term) : Int :=
  if t.grid.cursor.point.line + 1 = t.grid.lines then t.grid.cursor.point.line
  else t.grid.cursor.point.line + 1

theorem Wrapped.tracked (ha : Edited S t a) (hpoint : a.grid.cursor.point = t.grid.cursor.point)
    (hb : Wrapped a b) (hmode : a.mode.lineWrap = true) (ht : Tracked t₀ t)
    (hend : t.AtDeadEnd → t.Shown t.grid.cursor.point → t.Enclosed t.grid.cursor.point)
    (hS : ∀ p, t.Shown p → S p → t.Covered p ∨ t.AtDeadEnd ∧
      p.line = t.grid.cursor.point.line ∧ p.column ≤ t.grid.cursor.point.column) :
    b.damageState.full = true ∨
      Tracked t₀ b ∧ ∀ p, t.Shown p → t.Covered p → b.Covered p := by
  cases hb with
  | off hoff _ => exact absurd (hmode.symm.trans hoff) (by decide)
  | scrolled _ _ _ hb h _ => exact .inl (h.damage.full hb.full)
  | moved _ hne h hsource htarget hcursor =>
      have hedit : Edited (fun p => S p ∨ a.AtCursor p) t b :=
        (ha.mono fun _ => .inl).trans (h.mono fun _ => .inr)
      rw [hpoint] at hsource
      have hf : Follows t b := .inl (.inl hsource)
      have hkeep : ∀ p, t.Shown p → t.Covered p → b.Covered p :=
        fun _ _ hp => hp.follow hedit.damage hf
      refine .inr ⟨ht.redraw hedit.redraws hkeep ⟨_, Nat.le_refl _, .inl htarget⟩ ?_, hkeep⟩
      rintro p hp (hSp | hcur)
      · rcases hS p hp hSp with hcovered | ⟨hdead, -⟩
        · exact hkeep p hp hcovered
        · have hlt := hedit.grid_wf.cursor.line_lt
          have hbottom := hdead.2
          rw [hedit.lines, hcursor, hpoint] at hlt
          simp only [wrappedCursor] at hlt
          omega
      · rw [AtCursor, hpoint] at hcur
        subst hcur
        exact ⟨_, _, Nat.le_refl _, Nat.le_refl _, .inl hsource, .inl (.inl hsource)⟩
  | stuck _ hne hbottom h htarget hcursor _ =>
      have hedit : Edited (fun p => S p ∨ a.AtCursor p) t b :=
        (ha.mono fun _ => .inl).trans (h.mono fun _ => .inr)
      have hdead : t.AtDeadEnd := by
        rw [hpoint, ha.regionEnd] at hne
        rw [hpoint, ha.lines] at hbottom
        exact ⟨hne, hbottom⟩
      have hshown : ∀ p : Point, t.Shown p → p.line = t.grid.cursor.point.line →
          t.Enclosed t.grid.cursor.point :=
        fun p hp hline => hend hdead (by simp only [Shown, ← hline]; exact hp)
      have hstart : b.Recorded ⟨t.grid.cursor.point.line, 0⟩ := by
        rw [hcursor, hpoint] at htarget
        exact .inl htarget
      have hkeep : ∀ p, t.Shown p → t.Covered p → b.Covered p := by
        rintro p hp ⟨lo, hi, hlo, hhi, hleft, hright⟩
        rcases hright with hright | hcur
        · exact ⟨lo, hi, hlo, hhi, hleft.grow hedit.damage, .inl (hright.grow hedit.damage)⟩
        · have hline : p.line = t.grid.cursor.point.line := by rw [hcur]
          obtain ⟨-, hi', -, hhi', -, hright⟩ := hshown p hp hline
          rw [hcur] at hhi' hright
          exact ⟨lo, hi', hlo, Nat.le_trans hhi hhi', hleft.grow hedit.damage,
            .inl (hright.grow hedit.damage)⟩
      have hleftOf : ∀ p : Point, t.Shown p → p.line = t.grid.cursor.point.line →
          p.column ≤ t.grid.cursor.point.column → b.Covered p := by
        intro p hp hline hle
        obtain ⟨-, hi, -, hhi, -, hright⟩ := hshown p hp hline
        refine ⟨0, hi, Nat.zero_le _, Nat.le_trans hle hhi, ?_, .inl ?_⟩
        · rw [hline]
          exact hstart
        · rw [hline]
          exact hright.grow hedit.damage
      refine .inr ⟨ht.redraw hedit.redraws hkeep ⟨_, Nat.le_refl _, .inl htarget⟩ ?_, hkeep⟩
      rintro p hp (hSp | hcur)
      · rcases hS p hp hSp with hcovered | ⟨-, hline, hle⟩
        · exact hkeep p hp hcovered
        · exact hleftOf p hp hline hle
      · rw [AtCursor, hpoint] at hcur
        subst hcur
        exact hleftOf _ hp rfl (Nat.le_refl _)

/-- After a wrap, writing to the start of the line removes a leading spacer at the end of
the line above. -/
def ClearsWrapped (t : Term) (width : Nat) (q : Point) : Prop :=
  ∃ column, (column = 0 ∨ width ≠ 1 ∧ column = 1) ∧
    (t.IsHalf ⟨t.wrapTarget, column⟩ ∨
      t.grid.cursor.point = ⟨t.wrapTarget, column⟩ ∧ t.HalfTemplate) ∧
    t.wrapTarget ≠ t.topmostLine ∧ q = ⟨t.wrapTarget - 1, t.lastColumn⟩ ∧
    ∃ cell, t.grid.cellAt q = some cell ∧ cell.flags.leadingWideCharSpacer = true

theorem Sheds.isHalf (h : Sheds p t t') (hq : q ≠ p) (hhalf : t'.IsHalf q) : t.IsHalf q := by
  obtain ⟨cell', hcell', hhalf⟩ := hhalf
  obtain ⟨cell, hcell, hwide, hspacer, -⟩ := h q hq cell' hcell'
  refine ⟨cell, hcell, ?_⟩
  rw [Bool.or_eq_true] at hhalf ⊢
  exact hhalf.imp hwide hspacer

theorem Edited.isHalf (h : Edited S t t') (hq : ¬ S q) (hhalf : t'.IsHalf q) : t.IsHalf q := by
  obtain ⟨cell, hcell, hhalf⟩ := hhalf
  exact ⟨cell, h.cells q hq ▸ hcell, hhalf⟩

/-- Where a wrap without scrolling goes, and the halves that are there. -/
theorem Wrapped.target (ha : Edited S t a) (hpoint : a.grid.cursor.point = t.grid.cursor.point)
    (hb : Wrapped a b) (hmode : a.mode.lineWrap = true)
    (hend : t.grid.cursor.point.line + 1 ≠ t.regionEnd) :
    Edited a.AtCursor a b ∧ b.grid.cursor.point = ⟨t.wrapTarget, 0⟩ ∧
      ∀ column, b.IsHalf ⟨t.wrapTarget, column⟩ → a.IsHalf ⟨t.wrapTarget, column⟩ := by
  cases hb with
  | off hoff _ => exact absurd (hmode.symm.trans hoff) (by decide)
  | scrolled _ hline _ _ _ _ =>
      rw [hpoint, ha.regionEnd] at hline
      exact absurd hline hend
  | moved _ _ h _ _ hcursor =>
      have hlt := h.grid_wf.cursor.line_lt
      rw [h.lines, ha.lines, hcursor, hpoint] at hlt
      have hne : t.grid.cursor.point.line + 1 ≠ t.grid.lines := Int.ne_of_lt hlt
      have htarget : t.wrapTarget = t.grid.cursor.point.line + 1 := if_neg hne
      refine ⟨h, ?_, fun column hhalf => h.isHalf ?_ hhalf⟩
      · rw [hcursor, htarget, hpoint]
        rfl
      · rw [AtCursor, hpoint, htarget]
        intro heq
        have hline := congrArg Point.line heq
        simp only at hline
        omega
  | stuck _ _ hbottom h _ hcursor hhalf =>
      rw [hpoint, ha.lines] at hbottom
      have htarget : t.wrapTarget = t.grid.cursor.point.line := if_pos hbottom
      refine ⟨h, ?_, fun column => hhalf _⟩
      rw [hcursor, htarget, hpoint]
      rfl

/-- What a character clears after a wrap, apart from the cell that the wrap flags. -/
theorem Wrapped.clears {width : Nat} (ha : Edited S t a)
    (hpoint : a.grid.cursor.point = t.grid.cursor.point) (hsheds : Sheds t.grid.cursor.point t a)
    (hspacer : a.IsHalf t.grid.cursor.point → t.IsHalf t.grid.cursor.point ∨ t.HalfTemplate)
    (hb : Wrapped a b) (hmode : a.mode.lineWrap = true)
    (hend : t.grid.cursor.point.line + 1 ≠ t.regionEnd)
    (h : b.Clears width b.grid.cursor.point q) :
    q = t.grid.cursor.point ∨ t.ClearsWrapped width q := by
  obtain ⟨hedit, htarget, hhalf⟩ := hb.target ha hpoint hmode hend
  have htop : b.topmostLine = t.topmostLine := by
    simp only [topmostLine, hedit.dims, ha.dims]
  have hlast : b.lastColumn = t.lastColumn := by
    simp only [lastColumn, hedit.dims, ha.dims]
  have habove : ∀ column, (column = 0 ∨ width ≠ 1 ∧ column = 1) →
      b.ClearsAbove ⟨t.wrapTarget, column⟩ q → q = t.grid.cursor.point ∨ t.ClearsWrapped width q := by
    rintro column hcolumn ⟨hb, -, hne, hq, cell, hcell, hleading⟩
    rw [htop] at hne
    rw [hlast] at hq
    by_cases hcur : q = t.grid.cursor.point
    · exact .inl hcur
    · refine .inr ⟨column, hcolumn, ?_, hne, hq, ?_⟩
      · have hahalf := hhalf column hb
        by_cases heq : (⟨t.wrapTarget, column⟩ : Point) = t.grid.cursor.point
        · rw [heq] at hahalf ⊢
          exact (hspacer hahalf).imp id fun htemplate => ⟨rfl, htemplate⟩
        · exact .inl (hsheds.isHalf heq hahalf)
      · rw [hedit.cells q (by rw [AtCursor, hpoint]; exact hcur)] at hcell
        obtain ⟨cell', hcell', -, -, hleading'⟩ := hsheds q hcur cell hcell
        exact ⟨cell', hcell', hleading' hleading⟩
  rw [htarget] at h
  rcases h with ⟨-, hpos, -⟩ | h | ⟨hwidth, h⟩
  · exact absurd hpos (Nat.lt_irrefl 0)
  · exact habove 0 (.inl rfl) h
  · exact habove 1 (.inr ⟨hwidth, rfl⟩) h

/-! ### Characters -/

/-- The cells that a character changes away from where the cursor passes. -/
inductive Strays (env : Env) (t : Term) (c : Char) (q : Point) : Prop
  | joined (hwidth : env.width c = some 0) (hcolumn : t.zeroWidthColumn = some q.column)
      (hline : q.line = t.grid.cursor.point.line)
  | written {width : Nat} (hwidth : env.width c = some width) (hpos : width ≠ 0)
      (hstays : ¬ t.Wraps width)
      (hroom : width ≠ 1 → t.grid.cursor.point.column + 1 < t.grid.columns)
      (h : t.Clears width t.grid.cursor.point q)
  | spacer {width : Nat} (hwidth : env.width c = some width) (hpos : width ≠ 0)
      (hwraps : t.Wraps width) (hneeds : t.grid.cursor.inputNeedsWrap = false)
      (h : t.Clears 1 t.grid.cursor.point q)
  | wrapped {width : Nat} (hwidth : env.width c = some width) (hpos : width ≠ 0)
      (hwraps : t.Wraps width) (h : t.ClearsWrapped width q)

/-- The character goes to the next line first. -/
def WrapsFor (env : Env) (t : Term) (c : Char) : Prop :=
  ∃ width, env.width c = some width ∧ width ≠ 0 ∧ t.Wraps width

/-- The damage covers what a character changes: the report is full, or a wrap scrolls, or
the cells away from the cursor are covered before and, if the wrap stays on the line, the
cursor's cell is enclosed. -/
def InputSafe (env : Env) (t : Term) (c : Char) : Prop :=
  t.Exempt ∨ t.WrapsFor env c ∧ t.grid.cursor.point.line + 1 = t.regionEnd ∨
    (∀ q, t.Shown q → t.Strays env c q → t.Covered q ∨
      t.WrapsFor env c ∧ t.AtDeadEnd ∧ q.line = t.grid.cursor.point.line) ∧
    (t.WrapsFor env c → t.AtDeadEnd → t.Shown t.grid.cursor.point →
      t.Enclosed t.grid.cursor.point)

/-- The next report is full or covers all changes. -/
def Accounted (t₀ t : Term) : Prop := t.Exempt ∨ Tracked t₀ t

/-- A character that goes to the next line first. -/
theorem Swept.wrapped {width : Nat} (ha : Edited S t a)
    (hpoint : a.grid.cursor.point = t.grid.cursor.point) (hsheds : Sheds t.grid.cursor.point t a)
    (hspacer : a.IsHalf t.grid.cursor.point → t.IsHalf t.grid.cursor.point ∨ t.HalfTemplate)
    (hb : Wrapped a b) (hmode : a.mode.lineWrap = true) (h : Swept width b t') (ht : Tracked t₀ t)
    (hsafe : t.grid.cursor.point.line + 1 = t.regionEnd ∨
      (t.AtDeadEnd → t.Shown t.grid.cursor.point → t.Enclosed t.grid.cursor.point) ∧
      (∀ p, t.Shown p → S p → t.Covered p ∨ t.AtDeadEnd ∧
        p.line = t.grid.cursor.point.line ∧ p.column ≤ t.grid.cursor.point.column) ∧
      ∀ p, t.Shown p → t.ClearsWrapped width p → t.Covered p) : Accounted t₀ t' := by
  by_cases hline : t.grid.cursor.point.line + 1 = t.regionEnd
  · have hfull := hb.full hmode (by rw [hpoint, ha.regionEnd]; exact hline)
    exact .inl (.inl (h.edited.damage.full hfull))
  · obtain ⟨hend, hS, hclears⟩ := hsafe.resolve_left hline
    rcases hb.tracked ha hpoint hmode ht hend hS with hfull | ⟨hbt, hkeep⟩
    · exact .inl (.inl (h.edited.damage.full hfull))
    · have hshown : ∀ p, b.Shown p → t.Shown p := by
        intro p hp
        simp only [Shown, hbt.displayOffset, hbt.lines] at hp
        simp only [Shown, ht.displayOffset, ht.lines]
        exact hp
      refine .inr (h.tracked hbt fun p hp hclear => ?_)
      rcases hb.clears ha hpoint hsheds hspacer hmode hline hclear with rfl | hwrapped
      · exact hkeep _ (hshown _ hp) (ht.anchored.swept (.refl _) rfl rfl (Nat.le_refl _) (Nat.le_refl _))
      · exact hkeep p (hshown p hp) (hclears p (hshown p hp) hwrapped)

/-- At a dead end, what is cleared on the cursor's line is left of the cursor. -/
theorem Clears.column_le {width : Nat} (h : t.Clears width p q) (hline : q.line = p.line) :
    q.column ≤ p.column := by
  rcases h with ⟨-, -, rfl, -⟩ | ⟨-, -, -, rfl, -⟩ | ⟨-, -, -, -, rfl, -⟩
  · exact Nat.sub_le _ _
  · simp only at hline
    omega
  · simp only at hline
    omega

theorem Wrapped.eq_of_off (h : Wrapped t t') (hmode : t.mode.lineWrap = false) : t' = t := by
  cases h with
  | off _ h => exact h
  | scrolled hon _ _ _ _ _ => exact absurd (hon.symm.trans hmode) (by decide)
  | moved hon _ _ _ _ _ => exact absurd (hon.symm.trans hmode) (by decide)
  | stuck hon _ _ _ _ _ _ => exact absurd (hon.symm.trans hmode) (by decide)

theorem Printed.tracked {width : Nat} (h : Printed width t t') (hstays : ¬ t.Wraps width)
    (ht : Tracked t₀ t)
    (hclears : (width ≠ 1 → t.grid.cursor.point.column + 1 < t.grid.columns) →
      ∀ p, t.Shown p → t.Clears width t.grid.cursor.point p → t.Covered p) : Tracked t₀ t' := by
  cases h with
  | swept hroom h => exact h.tracked ht (hclears hroom)
  | dropped _ _ h =>
      subst h
      exact ht.advance (S := fun _ => False) ⟨rfl, rfl, .of_raw rfl, .refl _⟩ rfl (Nat.le_refl _)
        fun _ _ => False.elim
  | wrapped hwidth hcol ha _ _ _ _ _ hmode _ _ =>
      exact absurd ⟨ha.mode ▸ hmode, .inr ⟨hwidth, hcol⟩⟩ hstays

/-- A fullwidth character that has no room leaves a spacer, and goes to the next line. -/
theorem Printed.accounted {width : Nat} (h : Printed width t t') (hwraps : t.Wraps width)
    (hneeds : t.grid.cursor.inputNeedsWrap = false) (ht : Tracked t₀ t)
    (hsafe : t.grid.cursor.point.line + 1 = t.regionEnd ∨
      (t.AtDeadEnd → t.Shown t.grid.cursor.point → t.Enclosed t.grid.cursor.point) ∧
      (∀ p, t.Shown p → t.Clears 1 t.grid.cursor.point p → t.Covered p ∨ t.AtDeadEnd ∧
        p.line = t.grid.cursor.point.line) ∧
      ∀ p, t.Shown p → t.ClearsWrapped width p → t.Covered p) : Accounted t₀ t' := by
  obtain ⟨hwidth, hcol⟩ := hwraps.2.resolve_left fun hyes => absurd (hneeds.symm.trans hyes) (by decide)
  cases h with
  | swept hroom _ =>
      have hlt := hroom hwidth
      omega
  | dropped hmode _ _ => exact absurd (hwraps.1.symm.trans hmode) (by decide)
  | wrapped _ _ ha hpoint _ _ hsheds hspacer hmode hb h =>
      refine h.wrapped ha hpoint hsheds (.inr ∘ hspacer) hb hmode ht (hsafe.imp id fun hsafe => ?_)
      obtain ⟨hend, hclears, hwrapped⟩ := hsafe
      refine ⟨hend, fun p hp hS => ?_, hwrapped⟩
      have hlast := lastColumn_eq t
      have hclear : t.Clears 1 t.grid.cursor.point p →
          t.Covered p ∨ t.AtDeadEnd ∧ p.line = t.grid.cursor.point.line ∧
            p.column ≤ t.grid.cursor.point.column := fun hclear =>
        (hclears p hp hclear).imp id fun hdead => ⟨hdead.1, hdead.2, hclear.column_le hdead.2⟩
      rcases hS with rfl | ⟨-, hlt⟩ | hleft | habove
      · exact .inl (ht.anchored.swept (.refl _) rfl rfl (Nat.le_refl _) (Nat.le_refl _))
      · omega
      · exact hclear (.inl hleft)
      · exact hclear (.inr (.inl habove))

theorem Inputted.accounted {env : Env} {c : Char} (h : Inputted env c t t') (hwf : t.WF)
    (hsafe : t.InputSafe env c) (ht : Accounted t₀ t) : Accounted t₀ t' := by
  by_cases hexempt : t.Exempt
  · exact .inl (h.exempt hexempt)
  have htracked : Tracked t₀ t := ht.resolve_left hexempt
  have hsafe := hsafe.resolve_left hexempt
  cases h with
  | ignored _ h => exact h ▸ ht
  | joined hwidth hcolumn h _ =>
      have hnowrap : ¬ t.WrapsFor env c := by
        rintro ⟨width, hwidth', hpos, -⟩
        rw [hwidth] at hwidth'
        exact hpos (Option.some.inj hwidth').symm
      obtain ⟨hstrays, -⟩ := hsafe.resolve_left fun hscroll => hnowrap hscroll.1
      refine .inr (htracked.advance h.toEdited.redraws (by rw [h.cursor]) (by rw [h.cursor])
        fun p hp hS => .inl ?_)
      subst hS
      exact (hstrays _ hp (.joined hwidth hcolumn rfl)).resolve_right fun hwrap => hnowrap hwrap.1
  | @printed width a b hwidth hpos ha hb h =>
      rcases hb with rfl | ⟨hinsert, hb⟩
      · by_cases hwraps : t.Wraps width
        · have hsafe' : t.grid.cursor.point.line + 1 = t.regionEnd ∨
              (t.AtDeadEnd → t.Shown t.grid.cursor.point → t.Enclosed t.grid.cursor.point) ∧
              ∀ p, t.Shown p → t.Strays env c p → t.Covered p ∨ t.AtDeadEnd ∧
                p.line = t.grid.cursor.point.line := by
            refine hsafe.imp And.right fun hsafe => ?_
            exact ⟨hsafe.2 ⟨width, hwidth, hpos, hwraps⟩,
              fun p hp hstray => (hsafe.1 p hp hstray).imp id And.right⟩
          have hwrapped : ∀ p, t.Shown p → t.ClearsWrapped width p →
              (t.Covered p ∨ t.AtDeadEnd ∧ p.line = t.grid.cursor.point.line) → t.Covered p := by
            -- A wrap that stays on the line clears above it.
            rintro p - ⟨column, -, -, -, rfl, -⟩ hcovered
            refine hcovered.resolve_right fun hdead => ?_
            have htarget : t.wrapTarget = t.grid.cursor.point.line := if_pos hdead.1.2
            have hline := hdead.2
            simp only [htarget] at hline
            omega
          rcases ha with ⟨hneeds, rfl⟩ | ⟨hneeds, ha⟩
          · refine h.accounted hwraps hneeds htracked (hsafe'.imp id fun hsafe => ?_)
            refine ⟨hsafe.1, fun p hp hclear => ?_, fun p hp hclear => ?_⟩
            · exact hsafe.2 p hp (.spacer hwidth hpos hwraps hneeds hclear)
            · exact hwrapped p hp hclear (hsafe.2 p hp (.wrapped hwidth hpos hwraps hclear))
          · have hstart := (ha.cursor hwraps.1).1
            have htwo := hwf.two_le
            have hcolumns := ha.columns
            cases h with
            | swept _ h =>
                refine h.wrapped (.refl hwf.grid) rfl (.refl _ _) .inl ha hwraps.1 htracked
                  (hsafe'.imp id fun hsafe => ⟨hsafe.1, fun _ _ => False.elim, fun p hp hclear => ?_⟩)
                exact hwrapped p hp hclear (hsafe.2 p hp (.wrapped hwidth hpos hwraps hclear))
            | dropped _ hcol _ => omega
            | wrapped _ hcol _ _ _ _ _ _ _ _ _ => omega
        · have hnowrap : ¬ t.WrapsFor env c := by
            rintro ⟨width', hwidth', -, hwraps'⟩
            rw [hwidth] at hwidth'
            exact hwraps (Option.some.inj hwidth' ▸ hwraps')
          obtain ⟨hstrays, -⟩ := hsafe.resolve_left fun hscroll => hnowrap hscroll.1
          have hat : b = t := by
            rcases ha with ⟨-, ha⟩ | ⟨hneeds, ha⟩
            · exact ha
            · refine ha.eq_of_off (Bool.eq_false_iff.mpr fun hmode => ?_)
              exact hwraps ⟨hmode, .inl hneeds⟩
          subst hat
          refine .inr (h.tracked hwraps htracked fun hroom p hp hclear => ?_)
          exact (hstrays p hp (.written hwidth hpos hwraps hroom hclear)).resolve_right
            fun hwrap => hnowrap hwrap.1
      · exact .inl (h.exempt (hb.toEdited.exempt (.inr hinsert)))

end Term
end Velacritty
