import Velacritty.HandlerSound

/-! Printing: wrapping at the end of a line, and the cells that a character changes. -/
namespace Velacritty
open Fallible

namespace Term
variable {t t' a b : Term} {S : Point → Prop}

/-! ### Wrapping -/

/-- The wrap flag of the cursor's cell. -/
def AtCursor (t : Term) (p : Point) : Prop := p = t.grid.cursor.point

def IsHalf (t : Term) (p : Point) : Prop :=
  ∃ cell, t.grid.cellAt p = some cell ∧ (cell.flags.wideChar || cell.flags.wideCharSpacer) = true

def wrappedCursor (t : Term) (line : Int) : Cursor Cell :=
  { t.grid.cursor with point := ⟨line, 0⟩, inputNeedsWrap := false }

/-- A wrap flags the cursor's cell and goes to the start of the next line: by scrolling
at the end of the region, or by moving. Stuck below the region it goes to the start of
the same line. -/
inductive Wrapped (t t' : Term) : Prop
  | off (hmode : t.mode.lineWrap = false) (h : t' = t)
  | scrolled {a b : Term} (hmode : t.mode.lineWrap = true)
      (hline : t.grid.cursor.point.line + 1 = t.regionEnd) (ha : Drawn t.AtCursor t a)
      (hb : ScrolledUp t.regionStart 1 a b) (h : Edited (fun _ => False) b t')
      (hcursor : t'.grid.cursor = t.wrappedCursor t.grid.cursor.point.line)
  | moved (hmode : t.mode.lineWrap = true) (hline : t.grid.cursor.point.line + 1 ≠ t.regionEnd)
      (h : Edited t.AtCursor t t') (hsource : t'.damageState.Marks t.grid.cursor.point)
      (htarget : t'.damageState.Marks t'.grid.cursor.point)
      (hcursor : t'.grid.cursor = t.wrappedCursor (t.grid.cursor.point.line + 1))
  | stuck (hmode : t.mode.lineWrap = true) (hline : t.grid.cursor.point.line + 1 ≠ t.regionEnd)
      (hbottom : t.grid.cursor.point.line + 1 = t.grid.lines)
      (h : Edited t.AtCursor t t') (htarget : t'.damageState.Marks t'.grid.cursor.point)
      (hcursor : t'.grid.cursor = t.wrappedCursor t.grid.cursor.point.line)
      (hhalf : ∀ p, t'.IsHalf p → t.IsHalf p)

theorem wrapColumn_returns (S : Point → Prop) (h : t.WF) :
    Returns ((t.setColumn 0).setNeedsWrap false).damageCursor fun t' =>
      Edited S t t' ∧ t'.damageState.Marks t'.grid.cursor.point ∧
        t.damageState.Grows t'.damageState ∧
        t'.grid.cursor = t.wrappedCursor t.grid.cursor.point.line := by
  have hc : Grid.InScreen t.grid.lines t.grid.columns ⟨t.grid.cursor.point.line, 0⟩ :=
    ⟨h.grid.cursor.line_nonneg, h.grid.cursor.line_lt, h.grid.columns_pos⟩
  have hedit : Edited S t (t.withCursor (t.wrappedCursor t.grid.cursor.point.line)) :=
    withCursor_edited h _ hc
  refine (damageCursor_returns (t := t.withCursor (t.wrappedCursor t.grid.cursor.point.line))
    h.damage hc).mono fun b hb => ⟨hedit.trans (hb.1.drawn hedit.grid_wf).toEdited, ?_, hb.1.damage, ?_⟩
  · rw [hb.1.grid]
    exact hb.2
  · rw [hb.1.grid]
    rfl

/-- A wrap makes no half of a fullwidth character. -/
theorem IsHalf.of_wrapped {p q : Point} (ha : Drawn (· = q) t a)
    (hq : a.grid.cellAt q = (t.grid.cellAt q).map (setWrapline true))
    (hb : Edited (fun _ => False) a b) (h : b.IsHalf p) : t.IsHalf p := by
  obtain ⟨cell, hcell, hhalf⟩ := h
  rw [hb.cells p id] at hcell
  by_cases hp : p = q
  · rw [hp, hq, Option.map_eq_some_iff] at hcell
    obtain ⟨c, hc, rfl⟩ := hcell
    exact ⟨c, hp ▸ hc, hhalf⟩
  · rw [ha.toEdited.cells p hp] at hcell
    exact ⟨cell, hcell, hhalf⟩

theorem wrapline_returns (h : t.WF) : Returns t.wrapline (Wrapped t) := by
  have htop := h.topmostLine_le
  have hlo := h.grid.cursor.line_nonneg
  have hhi := h.grid.cursor.line_lt
  have hend := h.region.stop_le
  unfold wrapline
  split
  · next hmode =>
      refine (modifyCell_returns h (by omega) hhi h.grid.cursor.column_lt _).bind fun a ha => ?_
      obtain ⟨ha, hflagged, -⟩ := ha
      have hwf := ha.toEdited.wf h
      simp only [ha.cursor, ha.toEdited.regionEnd]
      split
      · next hle =>
          refine (linefeed_returns hwf).bind fun b hb => ?_
          have hal : a.grid.cursor.point.line = t.grid.cursor.point.line := by rw [ha.cursor]
          cases hb with
          | scrolled hline hb =>
              rw [hal, ha.toEdited.regionEnd] at hline
              rw [ha.toEdited.regionStart] at hb
              refine (wrapColumn_returns (fun _ => False) hb.wf).mono fun c hc => ?_
              refine .scrolled hmode hline ha hb hc.1 (hc.2.2.2.trans ?_)
              simp only [wrappedCursor, hb.same.cursor, ha.cursor]
          | moved hline hb hcursor =>
              rw [hal, ha.toEdited.regionEnd] at hline
              refine (wrapColumn_returns t.AtCursor (hb.toEdited.wf hwf)).mono fun c hc => ?_
              obtain ⟨hc, htarget, hgrows, hcursor'⟩ := hc
              refine .moved hmode hline ((ha.toEdited.trans (hb.toEdited.mono fun _ => False.elim)).trans hc)
                ?_ htarget (hcursor'.trans ?_)
              · have hsource := hgrows.marks _ hb.source
                rwa [ha.cursor] at hsource
              · simp only [wrappedCursor, hcursor, ha.cursor]
          | stuck hline hbottom hb =>
              subst hb
              rw [hal, ha.toEdited.regionEnd] at hline
              rw [hal, ha.toEdited.lines] at hbottom
              refine (wrapColumn_returns (fun _ => False) hwf).mono fun c hc => ?_
              obtain ⟨hc, htarget, -, hcursor'⟩ := hc
              refine .stuck hmode hline hbottom (ha.toEdited.trans (hc.mono fun _ => False.elim)) htarget
                (hcursor'.trans ?_) fun p hp => hp.of_wrapped ha hflagged hc
              simp only [wrappedCursor, ha.cursor]
      · next hlt =>
          refine Returns.bind (P := fun b => Edited t.AtCursor t b ∧
            b.damageState.Marks t.grid.cursor.point ∧
            b.grid.cursor = { t.grid.cursor with point.line := t.grid.cursor.point.line + 1 })
            ?_ fun b hb => ?_
          · refine (damageCursor_returns hwf.damage hwf.grid.cursor).bind fun b hb => .pure ?_
            obtain ⟨hb, hsource⟩ := hb
            have hedit := ha.toEdited.trans (hb.drawn hwf.grid).toEdited
            have hbwf := hedit.wf h
            have hcursor : b.grid.cursor = t.grid.cursor := by rw [hb.grid, ha.cursor]
            rw [hcursor]
            refine ⟨hedit.trans (withCursor_edited hbwf { b.grid.cursor with
              point := ⟨t.grid.cursor.point.line + 1, t.grid.cursor.point.column⟩ } ?_), ?_, ?_⟩
            · rw [hedit.lines, hedit.columns]
              exact ⟨by simp only; omega, by simp only; omega, h.grid.cursor.column_lt⟩
            · rwa [ha.cursor] at hsource
            · simp only [setCursorPoint, hcursor]
          · obtain ⟨hedit, hsource, hcursor⟩ := hb
            refine (wrapColumn_returns t.AtCursor (hedit.wf h)).mono fun c hc => ?_
            obtain ⟨hc, htarget, hgrows, hcursor'⟩ := hc
            refine .moved hmode (by omega) (hedit.trans hc) (hgrows.marks _ hsource) htarget
              (hcursor'.trans ?_)
            simp only [wrappedCursor, hcursor]
  · next hmode => exact .pure (.off (Bool.eq_false_iff.mpr hmode) rfl)

/-! ### Writing -/

/-- Writing to `p` clears the cell before it: `p` holds the second half of a fullwidth
character, or a first half that has no room for a second one. -/
def ClearsLeft (t : Term) (p q : Point) : Prop :=
  t.IsHalf p ∧ 0 < p.column ∧ q = ⟨p.line, p.column - 1⟩ ∧
    (∀ cell, t.grid.cellAt p = some cell → cell.flags.wideChar = true → t.lastColumn ≤ p.column) ∧
    ∃ cell, t.grid.cellAt q = some cell ∧ cell.clearWide ≠ cell

/-- Writing to `p` removes a leading spacer at the end of the line above. -/
def ClearsAbove (t : Term) (p q : Point) : Prop :=
  t.IsHalf p ∧ p.column ≤ 1 ∧ p.line ≠ t.topmostLine ∧ q = ⟨p.line - 1, t.lastColumn⟩ ∧
    ∃ cell, t.grid.cellAt q = some cell ∧ cell.flags.leadingWideCharSpacer = true

/-- The cells that writing to `p` changes. -/
def Writes (t : Term) (p q : Point) : Prop :=
  q = p ∨ q = ⟨p.line, p.column + 1⟩ ∧ p.column < t.lastColumn ∨ t.ClearsLeft p q ∨ t.ClearsAbove p q

/-- Flags of fullwidth characters were only removed, except at `p`. -/
def Sheds (p : Point) (t t' : Term) : Prop :=
  ∀ q, q ≠ p → ∀ c', t'.grid.cellAt q = some c' → ∃ c, t.grid.cellAt q = some c ∧
    (c'.flags.wideChar = true → c.flags.wideChar = true) ∧
    (c'.flags.wideCharSpacer = true → c.flags.wideCharSpacer = true) ∧
    (c'.flags.leadingWideCharSpacer = true → c.flags.leadingWideCharSpacer = true)

theorem Sheds.refl (p : Point) (t : Term) : Sheds p t t :=
  fun _ _ c' hc' => ⟨c', hc', id, id, id⟩

theorem Sheds.trans {p : Point} {a b c : Term} (h : Sheds p a b) (h' : Sheds p b c) :
    Sheds p a c := by
  intro q hq c' hc'
  obtain ⟨d, hd, hwide, hspacer, hleading⟩ := h' q hq c' hc'
  obtain ⟨e, he, hwide', hspacer', hleading'⟩ := h q hq d hd
  exact ⟨e, he, hwide' ∘ hwide, hspacer' ∘ hspacer, hleading' ∘ hleading⟩

/-- An update that removes flags at most. -/
theorem sheds_of_modifyCell {p q : Point} {f : Cell → Cell} (h : Drawn (· = q) t t')
    (hq : t'.grid.cellAt q = (t.grid.cellAt q).map f)
    (hf : ∀ c, ((f c).flags.wideChar = true → c.flags.wideChar = true) ∧
      ((f c).flags.wideCharSpacer = true → c.flags.wideCharSpacer = true) ∧
      ((f c).flags.leadingWideCharSpacer = true → c.flags.leadingWideCharSpacer = true)) :
    Sheds p t t' := by
  intro r _ c' hc'
  by_cases hr : r = q
  · subst hr
    rw [hq, Option.map_eq_some_iff] at hc'
    obtain ⟨c, hc, rfl⟩ := hc'
    exact ⟨c, hc, hf c⟩
  · rw [h.toEdited.cells r hr] at hc'
    exact ⟨c', hc', id, id, id⟩

theorem Drawn.of_fixed {q : Point} (h : Drawn (· = q) t t') (hq : t'.grid.cellAt q = t.grid.cellAt q) :
    Drawn S t t' := by
  refine ⟨⟨h.toEdited.rest, h.toEdited.grid_rest, h.toEdited.grid_wf, h.toEdited.len, ?_,
    h.toEdited.damage⟩, h.cursor⟩
  intro r _
  by_cases hr : r = q
  · rw [hr, hq]
  · exact h.toEdited.cells r hr

theorem clearOtherHalf_returns (h : t.WF) {cell : Cell}
    (hcell : t.grid.cellAt t.grid.cursor.point = some cell) (hhalf : t.IsHalf t.grid.cursor.point) :
    Returns (t.clearOtherHalf cell) fun t' => Drawn (t.Writes t.grid.cursor.point) t t' ∧
      Sheds t.grid.cursor.point t t' ∧ t'.damageState = t.damageState ∧
      ∀ p, p.line ≠ t.grid.cursor.point.line → t'.grid.cellAt p = t.grid.cellAt p := by
  have htop := h.topmostLine_le
  have hlo := h.grid.cursor.line_nonneg
  have hhi := h.grid.cursor.line_lt
  have hcol := h.grid.cursor.column_lt
  have hlast := lastColumn_eq t
  have hother : ∀ {c : Nat} {a : Term}, Drawn (· = ⟨t.grid.cursor.point.line, c⟩) t a →
      ∀ p, p.line ≠ t.grid.cursor.point.line → a.grid.cellAt p = t.grid.cellAt p := by
    intro c a ha p hp
    exact ha.toEdited.cells p fun hq => hp (hq ▸ rfl)
  simp only [clearOtherHalf]
  split
  · next hright =>
      refine (modifyCell_returns (p := ⟨t.grid.cursor.point.line, t.grid.cursor.point.column + 1⟩) h
        (by simp only; omega) hhi (by simp only; omega) _).mono fun a ha =>
          ⟨ha.1.mono fun q hq => ?_, ?_, ha.2.2, hother ha.1⟩
      · exact .inr (.inl ⟨hq, hright.2⟩)
      · exact sheds_of_modifyCell ha.1 ha.2.1
          fun c => ⟨id, fun hfalse => absurd hfalse Bool.false_ne_true, id⟩
  · next hright =>
      split
      · next hpos =>
          refine (modifyCell_returns (p := ⟨t.grid.cursor.point.line, t.grid.cursor.point.column - 1⟩) h
            (by simp only; omega) hhi (by simp only; omega) _).mono fun a ha =>
              ⟨?_, ?_, ha.2.2, hother ha.1⟩
          · by_cases hclear : ∃ c, t.grid.cellAt ⟨t.grid.cursor.point.line,
              t.grid.cursor.point.column - 1⟩ = some c ∧ c.clearWide ≠ c
            · refine ha.1.mono fun q hq => .inr (.inr (.inl ⟨hhalf, hpos, hq, fun c hc hwide => ?_, hq ▸ hclear⟩))
              rw [hcell] at hc
              cases hc
              exact Nat.not_lt.mp fun hlt => hright ⟨hwide, hlt⟩
            · refine ha.1.of_fixed ?_
              rw [ha.2.1]
              cases hleft : t.grid.cellAt ⟨t.grid.cursor.point.line, t.grid.cursor.point.column - 1⟩ with
              | none => rfl
              | some c => exact congrArg some (not_not.mp fun hne => hclear ⟨c, hleft, hne⟩)
          · exact sheds_of_modifyCell ha.1 ha.2.1
              fun c => ⟨fun hfalse => absurd hfalse Bool.false_ne_true, id, id⟩
      · exact .pure ⟨.refl h.grid, .refl _ _, rfl, fun _ _ => rfl⟩

theorem clearLeadingSpacer_returns (h : t.WF) :
    Returns t.clearLeadingSpacer fun t' =>
      Drawn (fun q => t.grid.cursor.point.column ≤ 1 ∧ t.grid.cursor.point.line ≠ t.topmostLine ∧
        q = ⟨t.grid.cursor.point.line - 1, t.lastColumn⟩ ∧
        ∃ cell, t.grid.cellAt q = some cell ∧ cell.flags.leadingWideCharSpacer = true) t t' ∧
      Sheds t.grid.cursor.point t t' ∧ t'.damageState = t.damageState := by
  have htop := h.topmostLine_le
  have hlo := h.grid.cursor.line_nonneg
  have hhi := h.grid.cursor.line_lt
  have hlast := lastColumn_eq t
  have hpos := h.grid.columns_pos
  simp only [clearLeadingSpacer]
  split
  · next habove =>
      generalize hq : (⟨t.grid.cursor.point.line - 1, t.lastColumn⟩ : Point) = q
      have hline : q.line = t.grid.cursor.point.line - 1 := hq ▸ rfl
      have hcolumn : q.column = t.lastColumn := hq ▸ rfl
      refine (modifyCell_returns h (p := q) (by omega) (by omega) (by omega) _).mono fun b hb =>
        ⟨?_, ?_, hb.2.2⟩
      · by_cases hleading : ∃ cell, t.grid.cellAt q = some cell ∧ cell.flags.leadingWideCharSpacer = true
        · refine hb.1.mono fun r hr => ?_
          subst hr
          exact ⟨habove.1, habove.2, rfl, hleading⟩
        · refine hb.1.of_fixed ?_
          rw [hb.2.1]
          cases hcell : t.grid.cellAt q with
          | none => rfl
          | some c =>
              have hfalse : c.flags.leadingWideCharSpacer = false :=
                Bool.eq_false_iff.mpr fun htrue => hleading ⟨c, hcell, htrue⟩
              obtain ⟨ch, fg, bg, flags, extra⟩ := c
              simp only at hfalse
              simp only [Option.map_some, GridCell.modifyFlags, ← hfalse]
      · exact sheds_of_modifyCell hb.1 hb.2.1
          fun c => ⟨id, id, fun hfalse => absurd hfalse Bool.false_ne_true⟩
  · exact .pure ⟨.refl h.grid, .refl _ _, rfl⟩

/-- Clearing one half of a fullwidth character clears the other half. -/
theorem clearRelated_returns (h : t.WF) :
    Returns t.clearRelated fun t' => Drawn (t.Writes t.grid.cursor.point) t t' ∧
      Sheds t.grid.cursor.point t t' ∧ t'.damageState = t.damageState := by
  have htop := h.topmostLine_le
  have hlo := h.grid.cursor.line_nonneg
  obtain ⟨cell, hcell, -⟩ := Grid.cellAt_returns h.grid (p := t.grid.cursor.point)
    (show t.topmostLine ≤ _ by omega) h.grid.cursor.line_lt h.grid.cursor.column_lt
  simp only [clearRelated, hcell, Option.bind_eq_bind, Option.bind_some]
  split
  · next hhalf =>
      have hhalf' : t.IsHalf t.grid.cursor.point := ⟨cell, hcell, hhalf⟩
      refine (clearOtherHalf_returns h hcell hhalf').bind fun a ha => ?_
      obtain ⟨ha, hsheds, hdamage, hother⟩ := ha
      have hlast' : a.lastColumn = t.lastColumn := by simp only [lastColumn, ha.toEdited.dims]
      have htop' : a.topmostLine = t.topmostLine := by simp only [topmostLine, ha.toEdited.dims]
      refine (clearLeadingSpacer_returns (ha.toEdited.wf h)).mono fun b hb =>
        ⟨ha.trans (hb.1.mono fun q hq => ?_), ?_, hb.2.2.trans hdamage⟩
      · rw [ha.cursor, htop', hlast'] at hq
        obtain ⟨hle, hne, rfl, hleading⟩ := hq
        rw [hother _ (by simp only; omega)] at hleading
        exact .inr (.inr (.inr ⟨hhalf', hle, hne, rfl, hleading⟩))
      · have hsheds' := hb.2.1
        rw [ha.cursor] at hsheds'
        exact hsheds.trans hsheds'
  · exact .pure ⟨.refl h.grid, .refl _ _, rfl⟩

/-- The template is marked as a half of a fullwidth character. -/
def HalfTemplate (t : Term) : Prop :=
  (t.grid.cursor.template.flags.wideChar || t.grid.cursor.template.flags.wideCharSpacer) = true

theorem writeAtCursor_returns (env : Env) (h : t.WF) (c : Char) :
    Returns (t.writeAtCursor env c) fun t' => Drawn (t.Writes t.grid.cursor.point) t t' ∧
      Sheds t.grid.cursor.point t t' ∧ t'.damageState = t.damageState ∧
      (t'.IsHalf t.grid.cursor.point → t.HalfTemplate) := by
  have htop := h.topmostLine_le
  have hlo := h.grid.cursor.line_nonneg
  simp only [writeAtCursor]
  refine (clearRelated_returns h).bind fun a ha => ?_
  obtain ⟨ha, hsheds, hdamage⟩ := ha
  have hwf := ha.toEdited.wf h
  have hdims := ha.toEdited.dims
  rw [ha.cursor]
  refine (modifyCell_returns hwf ?_ ?_ ?_ _).mono fun b hb =>
    ⟨ha.trans (hb.1.mono fun q hq => .inl hq), hsheds.trans ?_, hb.2.2.trans hdamage, ?_⟩
  · simp only [topmostLine, hdims] at htop ⊢
    omega
  · rw [ha.toEdited.lines]
    exact h.grid.cursor.line_lt
  · rw [ha.toEdited.columns]
    exact h.grid.cursor.column_lt
  · intro q hq c' hc'
    rw [hb.1.toEdited.cells q hq] at hc'
    exact ⟨c', hc', id, id, id⟩
  · rintro ⟨cell, hcell, hhalf⟩
    rw [hb.2.1, Option.map_eq_some_iff] at hcell
    obtain ⟨_, -, rfl⟩ := hcell
    exact hhalf

/-! ### Printing -/

/-- The cells away from a written character that change with it. -/
def Clears (t : Term) (width : Nat) (p q : Point) : Prop :=
  t.ClearsLeft p q ∨ t.ClearsAbove p q ∨ width ≠ 1 ∧ t.ClearsAbove ⟨p.line, p.column + 1⟩ q

/-- A character was written: the cursor went right over all cells that changed, but for
the ones it clears. -/
structure Swept (width : Nat) (t t' : Term) : Prop where
  edited : Edited (fun q => q.line = t.grid.cursor.point.line ∧
    t.grid.cursor.point.column ≤ q.column ∧ q.column ≤ t'.grid.cursor.point.column ∨
      t.Clears width t.grid.cursor.point q) t t'
  line : t'.grid.cursor.point.line = t.grid.cursor.point.line
  column : t.grid.cursor.point.column ≤ t'.grid.cursor.point.column
  needsWrap : t'.grid.cursor.inputNeedsWrap = true →
    t'.grid.cursor.point.column + 1 = t.grid.columns ∨
      t.grid.cursor.inputNeedsWrap = true ∧ t.grid.cursor.point.column + 1 < t.grid.columns
  damage : t'.damageState = t.damageState

theorem advanceCursor_edited (h : t.WF) :
    Edited S t t.advanceCursor ∧ t.advanceCursor.damageState = t.damageState := by
  have hlo := h.grid.cursor.line_nonneg
  have hhi := h.grid.cursor.line_lt
  have hcol := h.grid.cursor.column_lt
  unfold advanceCursor
  split
  · next hlt =>
      refine ⟨withCursor_edited h { t.grid.cursor with
        point.column := t.grid.cursor.point.column + 1 } ⟨hlo, hhi, hlt⟩, rfl⟩
  · exact ⟨withCursor_edited h { t.grid.cursor with inputNeedsWrap := true }
      ⟨hlo, hhi, hcol⟩, rfl⟩

theorem advanceCursor_cursor (t : Term) :
    t.grid.cursor.point.column + 1 < t.grid.columns ∧ t.advanceCursor.grid.cursor =
        { t.grid.cursor with point.column := t.grid.cursor.point.column + 1 } ∨
      t.grid.columns ≤ t.grid.cursor.point.column + 1 ∧
        t.advanceCursor.grid.cursor = { t.grid.cursor with inputNeedsWrap := true } := by
  unfold advanceCursor
  split
  · next hlt => exact .inl ⟨hlt, rfl⟩
  · next hge => exact .inr ⟨Nat.not_lt.mp hge, rfl⟩

theorem writeMarked_returns (env : Env) (h : t.WF) (mark : Bool → Flags → Flags) (c : Char) :
    Returns (t.writeMarked env mark c) fun t' => Edited (t.Writes t.grid.cursor.point) t t' ∧
      t'.grid.cursor.point = t.grid.cursor.point ∧
      t'.grid.cursor.inputNeedsWrap = t.grid.cursor.inputNeedsWrap ∧
      Sheds t.grid.cursor.point t t' ∧ t'.damageState = t.damageState ∧
      (t'.IsHalf t.grid.cursor.point → HalfTemplate (t.withCursor { t.grid.cursor with
        template.flags := mark true t.grid.cursor.template.flags })) := by
  have hedit : Edited (t.Writes t.grid.cursor.point) t (t.withCursor { t.grid.cursor with
      template.flags := mark true t.grid.cursor.template.flags }) :=
    withCursor_edited h _ h.grid.cursor
  refine (writeAtCursor_returns env (hedit.wf h) c).bind fun a ha => .pure ?_
  obtain ⟨ha, hsheds, hdamage, hhalf⟩ := ha
  have hboth : Edited (t.Writes t.grid.cursor.point) t a := hedit.trans ha.toEdited
  have hwf := hboth.wf h
  have hcursor : a.grid.cursor.point = t.grid.cursor.point := by rw [ha.cursor]; rfl
  refine ⟨hboth.trans (withCursor_edited hwf _ hwf.grid.cursor), hcursor, ?_, ?_, hdamage, hhalf⟩
  · simp only [ha.cursor]
    rfl
  · exact hsheds

theorem writeAdvance_returns (env : Env) (h : t.WF) (c : Char) :
    Returns (t.writeAtCursor env c >>= fun a => some a.advanceCursor) (Swept 1 t) := by
  have hlast := lastColumn_eq t
  refine (writeAtCursor_returns env h c).bind fun a ha => .pure ?_
  obtain ⟨ha, -, hdamage, -⟩ := ha
  have hwf := ha.toEdited.wf h
  have hcolumns := ha.toEdited.columns
  obtain ⟨hadv, hdamage'⟩ := advanceCursor_edited (S := t.Writes t.grid.cursor.point) hwf
  have hedit := ha.toEdited.trans hadv
  have hcol := h.grid.cursor.column_lt
  have hcursor := advanceCursor_cursor a
  rw [hcolumns, ha.cursor] at hcursor
  refine ⟨hedit.mono fun q hq => ?_, ?_, ?_, ?_, hdamage'.trans hdamage⟩
  · rcases hq with rfl | ⟨rfl, hlt⟩ | hleft | habove
    · refine .inl ⟨rfl, Nat.le_refl _, ?_⟩
      rcases hcursor with ⟨-, hc⟩ | ⟨-, hc⟩ <;> rw [hc]
      exact Nat.le_succ _
    · refine .inl ⟨rfl, Nat.le_succ _, ?_⟩
      rcases hcursor with ⟨-, hc⟩ | ⟨hge, -⟩
      · rw [hc]
      · omega
    · exact .inr (.inl hleft)
    · exact .inr (.inr (.inl habove))
  · rcases hcursor with ⟨-, hc⟩ | ⟨-, hc⟩ <;> rw [hc]
  · rcases hcursor with ⟨-, hc⟩ | ⟨-, hc⟩ <;> rw [hc]
    exact Nat.le_succ _
  · rcases hcursor with ⟨hlt, hc⟩ | ⟨hge, hc⟩ <;> rw [hc]
    · exact fun hnw => .inr ⟨hnw, hlt⟩
    · exact fun _ => .inl (by simp only; omega)

/-- A fullwidth character that fits is written to two cells. -/
theorem writeWide_returns (env : Env) (h : t.WF) (c : Char) {width : Nat} (hwidth : width ≠ 1)
    (hroom : t.grid.cursor.point.column + 1 < t.grid.columns) :
    Returns (t.writeWide env c) (Swept width t) := by
  have hlast := lastColumn_eq t
  have htop := h.topmostLine_le
  refine (writeMarked_returns env h _ c).bind fun a ha => ?_
  obtain ⟨ha, hpoint, hneeds, hsheds, hdamage, -⟩ := ha
  have hwf := ha.wf h
  have hc : Grid.InScreen a.grid.lines a.grid.columns
      ⟨a.grid.cursor.point.line, a.grid.cursor.point.column + 1⟩ := by
    rw [ha.lines, ha.columns, hpoint]
    exact ⟨h.grid.cursor.line_nonneg, h.grid.cursor.line_lt, hroom⟩
  have hmove : Edited (fun _ => False) a (a.setColumn (a.grid.cursor.point.column + 1)) :=
    withCursor_edited hwf { a.grid.cursor with
      point.column := a.grid.cursor.point.column + 1 } hc
  have hbwf := hmove.wf hwf
  refine (writeMarked_returns env hbwf _ ' ').bind fun b hb => .pure ?_
  obtain ⟨hb, hpoint', hneeds', -, hdamage', -⟩ := hb
  have hpb : (a.setColumn (a.grid.cursor.point.column + 1)).grid.cursor.point =
      ⟨t.grid.cursor.point.line, t.grid.cursor.point.column + 1⟩ := by
    rw [← hpoint]
    rfl
  rw [hpb] at hpoint'
  have hneeds'' : b.grid.cursor.inputNeedsWrap = t.grid.cursor.inputNeedsWrap := hneeds'.trans hneeds
  have hcolumns : b.grid.columns = t.grid.columns := hb.columns.trans ha.columns
  have hcwf := hb.wf hbwf
  obtain ⟨hadv, hdamage''⟩ := advanceCursor_edited (S := fun _ => False) hcwf
  have hcursor := advanceCursor_cursor b
  rw [hcolumns, hpoint'] at hcursor
  have hcol' : t.grid.cursor.point.column + 1 ≤ b.advanceCursor.grid.cursor.point.column := by
    rcases hcursor with ⟨-, hc⟩ | ⟨-, hc⟩ <;> rw [hc]
    · exact Nat.le_succ _
    · rw [hpoint']
  have hline' : b.advanceCursor.grid.cursor.point.line = t.grid.cursor.point.line := by
    have hline : b.grid.cursor.point.line = t.grid.cursor.point.line := by rw [hpoint']
    rcases hcursor with ⟨-, hc⟩ | ⟨-, hc⟩ <;> rw [hc] <;> exact hline
  refine ⟨((ha.mono ?_).trans (hmove.mono fun _ => False.elim)).trans
    ((hb.mono ?_).trans (hadv.mono fun _ => False.elim)), hline', Nat.le_of_succ_le hcol', ?_,
    hdamage''.trans (hdamage'.trans hdamage)⟩
  · rintro q (rfl | ⟨rfl, hlt⟩ | hleft | habove)
    · exact .inl ⟨rfl, Nat.le_refl _, Nat.le_of_succ_le hcol'⟩
    · exact .inl ⟨rfl, Nat.le_succ _, hcol'⟩
    · exact .inr (.inl hleft)
    · exact .inr (.inr (.inl habove))
  · intro q hq
    rw [hpb] at hq
    rcases hq with rfl | ⟨rfl, hlt⟩ | ⟨-, -, rfl, -⟩ | ⟨hhalf, hle, hne, rfl, cell, hcell, hleading⟩
    · exact .inl ⟨rfl, Nat.le_succ _, hcol'⟩
    · refine .inl ⟨rfl, by simp only; omega, ?_⟩
      have hlast' : (a.setColumn (a.grid.cursor.point.column + 1)).lastColumn = t.grid.columns - 1 := by
        rw [lastColumn_eq, hmove.columns, ha.columns]
      rw [hlast'] at hlt
      rcases hcursor with ⟨-, hc⟩ | ⟨hge, -⟩
      · rw [hc]
      · simp only at hge hlt
        omega
    · exact .inl ⟨rfl, Nat.le_refl _, Nat.le_of_succ_le hcol'⟩
    · have htop' : (a.setColumn (a.grid.cursor.point.column + 1)).topmostLine = t.topmostLine := by
        simp only [topmostLine, hmove.dims, ha.dims]
      have hlast' : (a.setColumn (a.grid.cursor.point.column + 1)).lastColumn = t.lastColumn := by
        simp only [lastColumn, hmove.dims, ha.dims]
      rw [htop'] at hne
      rw [hlast'] at hcell
      rw [hlast']
      refine .inr (.inr (.inr ⟨hwidth, ?_, hle, hne, rfl, ?_⟩))
      · obtain ⟨cell', hcell', hhalf⟩ := hhalf
        have hq : (⟨t.grid.cursor.point.line, t.grid.cursor.point.column + 1⟩ : Point) ≠
            t.grid.cursor.point := fun heq => absurd (congrArg Point.column heq) (Nat.succ_ne_self _)
        obtain ⟨cell'', hcell'', hwide, hspacer, -⟩ := hsheds _ hq cell' hcell'
        refine ⟨cell'', hcell'', ?_⟩
        rw [Bool.or_eq_true] at hhalf ⊢
        exact hhalf.imp hwide hspacer
      · have hq : (⟨t.grid.cursor.point.line - 1, t.lastColumn⟩ : Point) ≠ t.grid.cursor.point := by
          intro heq
          have := congrArg Point.line heq
          simp only at this
          omega
        obtain ⟨cell', hcell', -, -, hleading'⟩ := hsheds _ hq cell hcell
        exact ⟨cell', hcell', hleading' hleading⟩
  · rcases hcursor with ⟨hlt, hc⟩ | ⟨hge, hc⟩ <;> rw [hc]
    · exact fun hnw => .inr ⟨hneeds''.symm.trans hnw, hroom⟩
    · refine fun _ => .inl ?_
      simp only [hpoint']
      simp only at hge
      omega

/-- A character goes to the cursor's cell; a fullwidth one may have to wrap first, or
is dropped where it would have to. -/
inductive Printed (width : Nat) (t t' : Term) : Prop
  | swept (hroom : width ≠ 1 → t.grid.cursor.point.column + 1 < t.grid.columns)
      (h : Swept width t t')
  | dropped (hmode : t.mode.lineWrap = false) (hcol : t.grid.cursor.point.column + 1 = t.grid.columns)
      (h : t' = t.setNeedsWrap true)
  | wrapped {a b : Term} (hwidth : width ≠ 1) (hcol : t.grid.cursor.point.column + 1 = t.grid.columns)
      (ha : Edited (t.Writes t.grid.cursor.point) t a) (hpoint : a.grid.cursor.point = t.grid.cursor.point)
      (hneeds : a.grid.cursor.inputNeedsWrap = t.grid.cursor.inputNeedsWrap)
      (hdamage : a.damageState = t.damageState) (hsheds : Sheds t.grid.cursor.point t a)
      (hspacer : a.IsHalf t.grid.cursor.point → t.HalfTemplate)
      (hmode : a.mode.lineWrap = true) (hb : Wrapped a b) (h : Swept width b t')

theorem Wrapped.wf (h : Wrapped t t') (ht : t.WF) : t'.WF := by
  cases h with
  | off _ h => exact h ▸ ht
  | scrolled _ _ _ hb h _ => exact h.wf hb.wf
  | moved _ _ h _ _ _ => exact h.wf ht
  | stuck _ _ _ h _ _ _ => exact h.wf ht

theorem Wrapped.columns (h : Wrapped t t') : t'.grid.columns = t.grid.columns := by
  cases h with
  | off _ h => rw [h]
  | scrolled _ _ ha hb h _ => rw [h.columns, hb.same.columns, ha.toEdited.columns]
  | moved _ _ h _ _ _ => exact h.columns
  | stuck _ _ _ h _ _ _ => exact h.columns

theorem Wrapped.mode (h : Wrapped t t') : t'.mode = t.mode := by
  cases h with
  | off _ h => rw [h]
  | scrolled _ _ ha hb h _ =>
      rw [h.mode, (congrArg Term.mode hb.rest :), ha.toEdited.mode]
  | moved _ _ h _ _ _ => exact h.mode
  | stuck _ _ _ h _ _ _ => exact h.mode

theorem Wrapped.cursor (h : Wrapped t t') (hmode : t.mode.lineWrap = true) :
    t'.grid.cursor.point.column = 0 ∧ t'.grid.cursor.inputNeedsWrap = false := by
  cases h with
  | off hoff _ => exact absurd (hmode.symm.trans hoff) (by decide)
  | scrolled _ _ _ _ _ hcursor => rw [hcursor]; exact ⟨rfl, rfl⟩
  | moved _ _ _ _ _ hcursor => rw [hcursor]; exact ⟨rfl, rfl⟩
  | stuck _ _ _ _ _ hcursor _ => rw [hcursor]; exact ⟨rfl, rfl⟩

theorem inputWide_returns (env : Env) (h : t.WF) (c : Char) {width : Nat} (hwidth : width ≠ 1) :
    Returns (t.inputWide env c) (Printed width t) := by
  have hcol := h.grid.cursor.column_lt
  have hcolumns : t.columns = t.grid.columns := rfl
  unfold inputWide
  split
  · next hfull =>
      have hlast : t.grid.cursor.point.column + 1 = t.grid.columns := by omega
      split
      · next hmode =>
          refine (writeMarked_returns env h _ ' ').bind fun a ha => ?_
          obtain ⟨ha, hpoint, hneeds, hsheds, hdamage, hspacer⟩ := ha
          have hmode' : a.mode.lineWrap = true := by rw [ha.mode]; exact hmode
          refine (wrapline_returns (ha.wf h)).bind fun b hb => ?_
          have hbwf := hb.wf (ha.wf h)
          have htwo := h.two_le
          refine (writeWide_returns env hbwf c hwidth ?_).mono fun t' ht' =>
            .wrapped hwidth hlast ha hpoint hneeds hdamage hsheds hspacer hmode' hb ht'
          rw [(hb.cursor hmode').1, hb.columns, ha.columns]
          exact htwo
      · next hmode => exact .pure (.dropped (Bool.eq_false_iff.mpr hmode) hlast rfl)
  · next hroom =>
      have hroom' : t.grid.cursor.point.column + 1 < t.grid.columns := by omega
      exact (writeWide_returns env h c hwidth hroom').mono fun t' ht' => .swept (fun _ => hroom') ht'

/-- In insert mode, the rest of the line moves first. -/
theorem shiftForInsert_returns (h : t.WF) (width : Nat) :
    Returns (t.shiftForInsert width) fun t' => t' = t ∨
      t.mode.insert = true ∧ Drawn (fun p => p.line = t.grid.cursor.point.line) t t' := by
  have htop := h.topmostLine_le
  have hlo := h.grid.cursor.line_nonneg
  unfold shiftForInsert
  split
  · next hshift =>
      obtain ⟨hmode, hroom⟩ := hshift
      refine (modifyRow_returns h (by omega) h.grid.cursor.line_lt (fun _ => True)
        fun r hr => ?_).mono fun t' ht' => .inr ⟨hmode, ht'.1.mono fun p hp => hp.1⟩
      refine (Row.swapAll_returns (Row.touch_wf hr) fun o ho => ?_).mono fun r' hr' =>
        ⟨hr', fun c hc => absurd trivial hc⟩
      rw [List.mem_reverse, List.mem_range] at ho
      simp only [Term.columns] at ho hroom
      omega
  · exact .pure (.inl rfl)

theorem zeroWidthColumn_returns (h : t.WF) :
    Returns t.zeroWidthColumn fun column => t.zeroWidthColumn = some column ∧
      column ≤ t.grid.cursor.point.column := by
  have htop := h.topmostLine_le
  have hlo := h.grid.cursor.line_nonneg
  have hcol := h.grid.cursor.column_lt
  suffices hs : ∃ column, t.zeroWidthColumn = some column ∧ column ≤ t.grid.cursor.point.column by
    obtain ⟨column, heq, hle⟩ := hs
    exact ⟨column, heq, heq, hle⟩
  simp only [zeroWidthColumn]
  generalize hc : (if t.grid.cursor.inputNeedsWrap then t.grid.cursor.point.column
    else t.grid.cursor.point.column - 1) = column
  have hle : column ≤ t.grid.cursor.point.column := by
    rw [← hc]
    split
    · exact Nat.le_refl _
    · exact Nat.sub_le _ _
  obtain ⟨cell, hcell, -⟩ := Grid.cellAt_returns h.grid (p := ⟨t.grid.cursor.point.line, column⟩)
    (show t.topmostLine ≤ t.grid.cursor.point.line by omega) h.grid.cursor.line_lt (by simp only; omega)
  rw [hcell, Option.bind_eq_bind, Option.bind_some]
  refine ⟨_, rfl, ?_⟩
  split
  · exact Nat.le_trans (Nat.sub_le _ _) hle
  · exact hle

theorem inputZeroWidth_returns (h : t.WF) (c : Char) :
    Returns (t.inputZeroWidth c) fun t' => ∃ column, t.zeroWidthColumn = some column ∧
      Drawn (· = ⟨t.grid.cursor.point.line, column⟩) t t' ∧ t'.damageState = t.damageState := by
  have htop := h.topmostLine_le
  have hlo := h.grid.cursor.line_nonneg
  have hcol := h.grid.cursor.column_lt
  refine (zeroWidthColumn_returns h).bind fun column hcolumn => ?_
  refine (modifyCell_returns (p := ⟨t.grid.cursor.point.line, column⟩) h (by simp only; omega)
    h.grid.cursor.line_lt (by simp only; omega) _).mono fun t' ht' => ?_
  exact ⟨column, hcolumn.1, ht'.1, ht'.2.2⟩

/-- What a character does: nothing if it has no width, a change of the cell it joins if
it has width zero, and else it is printed after a pending wrap. -/
inductive Inputted (env : Env) (c : Char) (t t' : Term) : Prop
  | ignored (hwidth : env.width c = none) (h : t' = t)
  | joined {column : Nat} (hwidth : env.width c = some 0) (hcolumn : t.zeroWidthColumn = some column)
      (h : Drawn (· = ⟨t.grid.cursor.point.line, column⟩) t t')
      (hdamage : t'.damageState = t.damageState)
  | printed {width : Nat} {a b : Term} (hwidth : env.width c = some width) (hpos : width ≠ 0)
      (ha : t.grid.cursor.inputNeedsWrap = false ∧ a = t ∨
        t.grid.cursor.inputNeedsWrap = true ∧ Wrapped t a)
      (hb : b = a ∨ a.mode.insert = true ∧ Drawn (fun p => p.line = a.grid.cursor.point.line) a b)
      (h : Printed width b t')

theorem input_returns (env : Env) (h : t.WF) (c : Char) :
    Returns (t.input env c) (Inputted env c t) := by
  unfold input
  split
  · next hwidth => exact .pure (.ignored hwidth rfl)
  · next hwidth =>
      refine (inputZeroWidth_returns h c).mono fun t' ht' => ?_
      obtain ⟨column, hcolumn, hdrawn, hdamage⟩ := ht'
      exact .joined hwidth hcolumn hdrawn hdamage
  · next width hpos hwidth =>
      refine Returns.bind (P := fun a => a.WF ∧ (t.grid.cursor.inputNeedsWrap = false ∧ a = t ∨
        t.grid.cursor.inputNeedsWrap = true ∧ Wrapped t a)) ?_ fun a ha => ?_
      · split
        · next hnw =>
            exact (wrapline_returns h).mono fun a ha => ⟨ha.wf h, .inr ⟨hnw, ha⟩⟩
        · next hnw => exact .pure ⟨h, .inl ⟨Bool.eq_false_iff.mpr hnw, rfl⟩⟩
      · obtain ⟨hwf, ha⟩ := ha
        refine (shiftForInsert_returns hwf width).bind fun b hb => ?_
        have hbwf : b.WF := by
          rcases hb with rfl | ⟨-, hb⟩
          · exact hwf
          · exact hb.toEdited.wf hwf
        refine Returns.mono (P := Printed width b) ?_ fun t' ht' => .printed hwidth hpos ha hb ht'
        split
        · next hone =>
            subst hone
            exact (writeAdvance_returns env hbwf c).mono fun t' ht' =>
              .swept (fun hne => absurd rfl hne) ht'
        · next hne => exact inputWide_returns env hbwf c hne

theorem Printed.wf {width : Nat} (h : Printed width t t') (ht : t.WF) : t'.WF := by
  cases h with
  | swept _ h => exact h.edited.wf ht
  | dropped _ _ h => exact h ▸ (withCursor_edited (S := fun _ => False) ht
      { t.grid.cursor with inputNeedsWrap := true } ht.grid.cursor).wf ht
  | wrapped _ _ ha _ _ _ _ _ _ hb h => exact h.edited.wf (hb.wf (ha.wf ht))

theorem Inputted.wf {env : Env} {c : Char} (h : Inputted env c t t') (ht : t.WF) : t'.WF := by
  cases h with
  | ignored _ h => exact h ▸ ht
  | joined _ _ h _ => exact h.toEdited.wf ht
  | printed _ _ ha hb h =>
      have hawf : Term.WF _ := ha.elim (fun h => h.2 ▸ ht) fun h => h.2.wf ht
      exact h.wf (hb.elim (fun h => h ▸ hawf) fun h => h.2.toEdited.wf hawf)

/-! ### Tabs -/

/-- Tabs were put: the cursor went right over all cells that changed. -/
structure Tabbed (t t' : Term) : Prop where
  edited : Edited (fun q => q.line = t.grid.cursor.point.line ∧
    t.grid.cursor.point.column ≤ q.column ∧ q.column ≤ t'.grid.cursor.point.column) t t'
  line : t'.grid.cursor.point.line = t.grid.cursor.point.line
  column : t.grid.cursor.point.column ≤ t'.grid.cursor.point.column
  needsWrap : t'.grid.cursor.inputNeedsWrap = t.grid.cursor.inputNeedsWrap
  damage : t'.damageState = t.damageState

theorem Tabbed.refl (h : t.WF) : Tabbed t t := ⟨.refl h.grid, rfl, Nat.le_refl _, rfl, rfl⟩

theorem Tabbed.trans (h : Tabbed t a) (h' : Tabbed a b) : Tabbed t b := by
  have hcol := h.column
  have hcol' := h'.column
  refine ⟨(h.edited.mono ?_).trans (h'.edited.mono ?_), h'.line.trans h.line,
    Nat.le_trans hcol hcol', h'.needsWrap.trans h.needsWrap, h'.damage.trans h.damage⟩
  · rintro q ⟨hl, hlo, hhi⟩
    exact ⟨hl, hlo, Nat.le_trans hhi hcol'⟩
  · rintro q ⟨hl, hlo, hhi⟩
    exact ⟨hl.trans h.line, Nat.le_trans hcol hlo, hhi⟩

theorem putOneTab_returns (env : Env) (h : t.WF) : Returns (t.putOneTab env) (Tabbed t) := by
  have htop := h.topmostLine_le
  have hlo := h.grid.cursor.line_nonneg
  have hhi := h.grid.cursor.line_lt
  have hcol := h.grid.cursor.column_lt
  simp only [putOneTab]
  refine (modifyCell_returns h (by omega) hhi hcol _).bind fun a ha => ?_
  obtain ⟨ha, -, hdamage⟩ := ha
  have hwf := ha.toEdited.wf h
  refine (nextTabStop_returns hwf.tabs hwf.grid.cursor.column_lt).bind fun column hcolumn => .pure ?_
  rw [ha.cursor, ha.toEdited.columns] at hcolumn
  have hmove : Edited (fun _ => False) a (a.setColumn column) :=
    withCursor_edited hwf { a.grid.cursor with point.column := column } (by
      rw [ha.cursor, ha.toEdited.lines, ha.toEdited.columns]
      exact ⟨hlo, hhi, hcolumn.2⟩)
  refine ⟨(ha.toEdited.mono ?_).trans (hmove.mono fun _ => False.elim), ?_, hcolumn.1, ?_, hdamage⟩
  · rintro q rfl
    exact ⟨rfl, Nat.le_refl _, hcolumn.1⟩
  · simp only [setColumn, ha.cursor]
  · simp only [setColumn, ha.cursor]

theorem putTabs_returns (env : Env) (h : t.WF) (count : Nat) :
    Returns (putTabs env count t) (Tabbed t) := by
  induction count generalizing t with
  | zero => exact .pure (.refl h)
  | succ count ih =>
      rw [putTabs]
      split
      · refine (putOneTab_returns env h).bind fun a ha => ?_
        exact (ih (ha.edited.wf h)).mono fun b hb => ha.trans hb
      · exact .pure (.refl h)

theorem putTab_returns (env : Env) (h : t.WF) (count : Nat) :
    Returns (t.putTab env count) fun t' =>
      t.grid.cursor.inputNeedsWrap = true ∧ Wrapped t t' ∨
        t.grid.cursor.inputNeedsWrap = false ∧ Tabbed t t' := by
  unfold putTab
  split
  · next hnw => exact (wrapline_returns h).mono fun t' ht' => .inl ⟨hnw, ht'⟩
  · next hnw =>
      exact (putTabs_returns env h count).mono fun t' ht' => .inr ⟨Bool.eq_false_iff.mpr hnw, ht'⟩

end Term
end Velacritty
