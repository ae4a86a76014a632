import Velacritty.AltScreen
import Velacritty.SpacerRows

/-! What most handlers keep of the stored rows: they only make no halves of fullwidth
characters. -/
namespace Velacritty
open Fallible

/-- A property of rows that fresh rows have, and that updates keep which make no halves. -/
structure Row.Kept (P : Row Cell → Prop) : Prop where
  lasting : Storage.Lasting P
  modify : ∀ r column f, P r → Cell.KeepsHalves f → Allows (r.modify column f) P
  fill : ∀ r start stop filler, P r → filler.Plain →
    Allows (r.modifyRange start stop fun _ => filler) P

theorem Row.spaced_kept (n : Nat) : Kept (Spaced n) where
  lasting := spaced_lasting n
  modify _ _ _ h hf := h.modify_keeps hf
  fill _ _ _ _ h hfiller := h.fill hfiller fun _ _ _ => by omega

/-! ### Grids -/

namespace Grid
variable {g g' : Grid Cell} {P : Row Cell → Prop}

/-- Every stored row satisfies `P`, and what the cursors write is plain. -/
structure Stocked (P : Row Cell → Prop) (g : Grid Cell) : Prop where
  rows : g.raw.Holds P
  template : g.cursor.template.Plain
  saved : g.savedCursor.template.Plain

theorem Stocked.restocked (h : g.Stocked P) (h' : g.Restocked P g') : g'.Stocked P :=
  ⟨h'.rows, h'.cursor ▸ h.template, h'.savedCursor ▸ h.saved⟩

theorem new_stocked (hP : Row.Kept P) (lines columns maxScrollLimit : Nat) :
    (new lines columns maxScrollLimit : Grid Cell).Stocked P :=
  ⟨new_holds hP.lasting lines columns maxScrollLimit, Cell.blank_plain, Cell.blank_plain⟩

theorem reset_stocked (hP : Row.Kept P) (h : g.Stocked P) : Allows g.reset (Stocked P) :=
  (reset_restocked hP.lasting h.rows).mono fun _ ha =>
    ⟨ha.1, ha.2.1 ▸ Cell.blank_plain, ha.2.2 ▸ Cell.blank_plain⟩

end Grid

/-! ### Terminals -/

namespace Term
variable {t t' : Term} {env : Env} {P : Row Cell → Prop}

/-- Every stored row of both screens satisfies `P`, and what the cursors write is plain. -/
structure Stocked (P : Row Cell → Prop) (t : Term) : Prop where
  grid : t.grid.Stocked P
  inactiveGrid : t.inactiveGrid.Stocked P

theorem new_stocked (hP : Row.Kept P) (config : Config) (lines columns : Nat) :
    (new config lines columns).Stocked P := ⟨Grid.new_stocked hP _ _ _, Grid.new_stocked hP _ _ _⟩

theorem bgCell_plain (t : Term) : t.bgCell.Plain := Cell.ofColor_plain _

theorem Stocked.cursor (h : t.Stocked P) {cursor : Cursor Cell} (hc : cursor.template.Plain) :
    Stocked P { t with grid.cursor := cursor } :=
  ⟨⟨h.grid.rows, hc, h.grid.saved⟩, h.inactiveGrid⟩

theorem Stocked.raw (h : t.Stocked P) {raw : Storage Cell} (hraw : raw.Holds P) :
    Stocked P { t with grid.raw := raw } :=
  ⟨⟨hraw, h.grid.template, h.grid.saved⟩, h.inactiveGrid⟩

theorem Stocked.modifyRow (h : t.Stocked P) {line : Int} {f : Row Cell → Option (Row Cell)}
    (hf : ∀ r, P r → Allows (f r) P) : Allows (t.modifyRow line f) (Stocked P) := by
  intro t' ht'
  obtain ⟨raw, hraw, rfl⟩ := modifyRow_eq ht'
  exact h.raw (h.grid.rows.modify hf raw hraw)

theorem Stocked.damageColumns (h : t.Stocked P) (left right : Nat) :
    Allows (t.damageColumns left right) (Stocked P) := by
  intro t' ht'
  simp only [Term.damageColumns, damageLine, Option.bind_eq_bind, Option.bind_eq_some_iff,
    Option.some.injEq] at ht'
  obtain ⟨_, -, _, -, rfl⟩ := ht'
  exact ⟨h.grid, h.inactiveGrid⟩

theorem Stocked.damageCursor (h : t.Stocked P) : Allows t.damageCursor (Stocked P) :=
  h.damageColumns _ _

theorem Stocked.markFullyDamaged (h : t.Stocked P) : t.markFullyDamaged.Stocked P :=
  ⟨h.grid, h.inactiveGrid⟩

theorem Stocked.setCursorPoint (h : t.Stocked P) (line : Int) (column : Nat) :
    (t.setCursorPoint line column).Stocked P := h.cursor h.grid.template

theorem Stocked.setColumn (h : t.Stocked P) (column : Nat) : (t.setColumn column).Stocked P :=
  h.cursor h.grid.template

theorem Stocked.setNeedsWrap (h : t.Stocked P) (b : Bool) : (t.setNeedsWrap b).Stocked P :=
  h.cursor h.grid.template

theorem stocked_ite {c : Prop} [Decidable c] {a b : Term} (ha : a.Stocked P) (hb : b.Stocked P) :
    (if c then a else b).Stocked P := by
  split
  · exact ha
  · exact hb

theorem Stocked.advanceCursor (h : t.Stocked P) : t.advanceCursor.Stocked P :=
  stocked_ite (h.setColumn _) (h.setNeedsWrap true)

theorem deselect_stocked (h : t.Stocked P) (top bottom : Option Int) :
    (t.deselect top bottom).Stocked P := ⟨h.grid, h.inactiveGrid⟩

/-! ### Moving -/

theorem goto_stocked (h : t.Stocked P) (line : Int) (col : Nat) :
    Allows (t.goto line col) (Stocked P) := by
  simp only [goto]
  refine h.damageCursor.bind fun a ha => ?_
  exact (ha.setCursorPoint _ _).damageCursor.bind fun b hb => .pure (hb.setNeedsWrap false)

theorem moveForward_stocked (h : t.Stocked P) (cols : Nat) :
    Allows (t.moveForward cols) (Stocked P) :=
  (h.damageColumns _ _).bind fun _ ha => .pure ((ha.setColumn _).setNeedsWrap false)

theorem moveBackward_stocked (h : t.Stocked P) (cols : Nat) :
    Allows (t.moveBackward cols) (Stocked P) :=
  (h.damageColumns _ _).bind fun _ ha => .pure ((ha.setColumn _).setNeedsWrap false)

theorem carriageReturn_stocked (h : t.Stocked P) : Allows t.carriageReturn (Stocked P) :=
  (h.damageColumns _ _).bind fun _ ha => .pure ((ha.setColumn 0).setNeedsWrap false)

theorem backspace_stocked (h : t.Stocked P) : Allows t.backspace (Stocked P) := by
  unfold backspace
  split
  · exact ((h.setColumn _).setNeedsWrap false).damageColumns _ _
  · exact .pure h

theorem moveBackwardTabs_stocked (h : t.Stocked P) (count : Nat) :
    Allows (t.moveBackwardTabs count) (Stocked P) :=
  Allows.bind (P := fun _ => True) (fun _ _ => trivial) fun _ _ => (h.setColumn _).damageColumns _ _

theorem moveForwardTabs_stocked (h : t.Stocked P) (count : Nat) :
    Allows (t.moveForwardTabs count) (Stocked P) :=
  Allows.bind (P := fun _ => True) (fun _ _ => trivial) fun _ _ => (h.setColumn _).damageColumns _ _

theorem saveCursorPosition_stocked (h : t.Stocked P) : t.saveCursorPosition.Stocked P :=
  ⟨⟨h.grid.rows, h.grid.template, h.grid.template⟩, h.inactiveGrid⟩

theorem restoreCursorPosition_stocked (h : t.Stocked P) :
    Allows t.restoreCursorPosition (Stocked P) :=
  h.damageCursor.bind fun _ ha => (ha.cursor ha.grid.saved).damageCursor

theorem setScrollingRegion_stocked (h : t.Stocked P) (top : Nat) (bottom : Option Nat) :
    Allows (t.setScrollingRegion top bottom) (Stocked P) := by
  simp only [setScrollingRegion]
  split
  · exact .pure h
  · exact goto_stocked (by exact ⟨h.grid, h.inactiveGrid⟩) 0 0

theorem Viewed.stocked (h : Viewed t t') (ht : t.Stocked P) : t'.Stocked P := by
  rw [h.rest]
  exact ⟨⟨ht.grid.rows, ht.grid.template, ht.grid.saved⟩, ht.inactiveGrid⟩

theorem Configured.stocked {options : Config} (h : Configured options t t') (ht : t.Stocked P) :
    t'.Stocked P := by
  cases halt : t.mode.altScreen with
  | true =>
      obtain ⟨hgrid, hinactive⟩ := h.alternate halt
      exact ⟨hgrid ▸ ht.grid, ht.inactiveGrid.restocked
        (Grid.updateHistory_restocked ht.inactiveGrid.rows _ _ hinactive)⟩
  | false =>
      obtain ⟨hinactive, hgrid⟩ := h.primary halt
      exact ⟨ht.grid.restocked (Grid.updateHistory_restocked ht.grid.rows _ _ hgrid),
        hinactive ▸ ht.inactiveGrid⟩

theorem clearSaved_stocked (h : t.Stocked P) : Allows t.clearSaved (Stocked P) := by
  unfold clearSaved
  split
  · exact (Grid.clearHistory_restocked h.grid.rows).bind fun _ hgrid =>
      .pure ⟨h.grid.restocked hgrid, h.inactiveGrid⟩
  · exact .pure h

/-! ### Scrolling, tabs and erasing -/

section
variable (hP : Row.Kept P)
include hP

theorem Stocked.modifyCell (h : t.Stocked P) {p : Point} {f : Cell → Cell} (hf : Cell.KeepsHalves f) :
    Allows (t.modifyCell p f) (Stocked P) := by
  intro t' ht'
  obtain ⟨raw, hraw, rfl⟩ := modifyCell_eq ht'
  exact h.raw (h.grid.rows.modify (fun r hr => hP.modify r _ _ hr hf) raw hraw)

theorem Stocked.scrollUpRelative (h : t.Stocked P) (origin : Int) (lines : Nat) :
    Allows (t.scrollUpRelative origin lines) (Stocked P) := by
  refine Allows.bind (P := fun _ => True) (fun _ _ => trivial) fun size _ => ?_
  refine (Grid.scrollUp_restocked hP.lasting h.grid.rows _ _ _).bind fun grid hgrid => ?_
  have hstocked := h.grid.restocked hgrid
  refine .pure (Stocked.markFullyDamaged ?_)
  exact stocked_ite ⟨hstocked, h.inactiveGrid⟩ ⟨hstocked, h.inactiveGrid⟩

theorem Stocked.scrollDownRelative (h : t.Stocked P) (origin : Int) (lines : Nat) :
    Allows (t.scrollDownRelative origin lines) (Stocked P) := by
  refine Allows.bind (P := fun _ => True) (fun _ _ => trivial) fun size _ => ?_
  refine Allows.bind (P := fun _ => True) (fun _ _ => trivial) fun below _ => ?_
  simp only
  -- The vi mode cursor and the selection move first.
  generalize hmoved : (if origin ≤ t.viModeCursor.line ∧ t.viModeCursor.line < t.regionEnd then
    (_ : Term) else _) = a
  have ha : a.Stocked P := by
    rw [← hmoved]
    exact stocked_ite ⟨h.grid, h.inactiveGrid⟩ ⟨h.grid, h.inactiveGrid⟩
  refine (Grid.scrollDown_restocked hP.lasting ha.grid.rows _ _ _).bind fun grid hgrid => ?_
  exact .pure (Stocked.markFullyDamaged ⟨ha.grid.restocked hgrid, ha.inactiveGrid⟩)

theorem Stocked.linefeed (h : t.Stocked P) : Allows t.linefeed (Stocked P) := by
  simp only [Term.linefeed]
  split
  · exact h.scrollUpRelative hP _ _
  · split
    · exact h.damageCursor.bind fun a ha => (ha.setCursorPoint _ _).damageCursor
    · exact .pure h

theorem Stocked.wrapline (h : t.Stocked P) : Allows t.wrapline (Stocked P) := by
  unfold Term.wrapline
  split
  · refine (h.modifyCell hP (Cell.setWrapline_keepsHalves true)).bind fun a ha => ?_
    refine Allows.bind (P := Stocked P) ?_ fun b hb =>
      ((hb.setColumn 0).setNeedsWrap false).damageCursor
    split
    · exact ha.linefeed hP
    · exact ha.damageCursor.bind fun b hb => .pure (hb.setCursorPoint _ _)
  · exact .pure h

theorem newline_stocked (h : t.Stocked P) : Allows t.newline (Stocked P) := by
  refine (h.linefeed hP).bind fun a ha => ?_
  split
  · exact carriageReturn_stocked ha
  · exact .pure ha

theorem putOneTab_stocked (h : t.Stocked P) : Allows (t.putOneTab env) (Stocked P) := by
  have hkeeps : ∀ c, Cell.KeepsHalves fun cell => if cell.c = ' ' then { cell with c } else cell := by
    intro c cell
    simp only
    split
    · exact ⟨id, id⟩
    · exact ⟨id, id⟩
  refine (h.modifyCell hP (hkeeps _)).bind fun a ha => ?_
  exact Allows.bind (P := fun _ => True) (fun _ _ => trivial) fun column _ => .pure (ha.setColumn column)

theorem putTabs_stocked (h : t.Stocked P) (count : Nat) :
    Allows (putTabs env count t) (Stocked P) := by
  induction count generalizing t with
  | zero => exact .pure h
  | succ count ih =>
      unfold putTabs
      split
      · exact (putOneTab_stocked hP h).bind fun a ha => ih ha
      · exact .pure h

theorem putTab_stocked (h : t.Stocked P) (count : Nat) : Allows (t.putTab env count) (Stocked P) := by
  unfold putTab
  split
  · exact h.wrapline hP
  · exact putTabs_stocked hP h count

theorem reverseIndex_stocked (h : t.Stocked P) : Allows t.reverseIndex (Stocked P) := by
  unfold reverseIndex
  split
  · exact h.scrollDownRelative hP _ _
  · exact h.damageCursor.bind fun a ha => (ha.setCursorPoint _ _).damageCursor

theorem eraseChars_stocked (h : t.Stocked P) (count : Nat) :
    Allows (t.eraseChars count) (Stocked P) :=
  (h.damageColumns _ _).bind fun _ ha => ha.modifyRow fun r hr => hP.fill r _ _ _ hr t.bgCell_plain

theorem clearColumns_stocked (h : t.Stocked P) (left right : Nat) :
    Allows (t.clearColumns left right) (Stocked P) := by
  refine (h.damageColumns _ _).bind fun a ha => ?_
  refine (ha.modifyRow fun r hr => hP.fill r _ _ _ hr t.bgCell_plain).bind fun b hb => ?_
  exact .pure (deselect_stocked hb _ _)

theorem clearLine_stocked (h : t.Stocked P) (mode : LineClearMode) :
    Allows (t.clearLine mode) (Stocked P) := by
  cases mode with
  | right =>
      simp only [clearLine]
      split
      · exact .pure h
      · exact clearColumns_stocked hP h _ _
  | left => exact clearColumns_stocked hP h _ _
  | all => exact clearColumns_stocked hP h _ _

theorem insertBlankLines_stocked (h : t.Stocked P) (lines : Nat) :
    Allows (t.insertBlankLines lines) (Stocked P) := by
  simp only [insertBlankLines]
  split
  · exact h.scrollDownRelative hP _ _
  · exact .pure h

theorem deleteLines_stocked (h : t.Stocked P) (lines : Nat) :
    Allows (t.deleteLines lines) (Stocked P) := by
  refine Allows.bind (P := fun _ => True) (fun _ _ => trivial) fun line _ => ?_
  refine Allows.bind (P := fun _ => True) (fun _ _ => trivial) fun below _ => ?_
  simp only
  split
  · exact h.scrollUpRelative hP _ _
  · exact .pure h

theorem resetRegion_stocked (h : t.Stocked P) (start stop : Int) :
    Allows (t.resetRegion start stop) (Stocked P) :=
  (Grid.resetRegion_restocked hP.lasting h.grid.rows start stop).bind fun _ hgrid =>
    .pure ⟨h.grid.restocked hgrid, h.inactiveGrid⟩

theorem clearAbove_stocked (h : t.Stocked P) : Allows t.clearAbove (Stocked P) := by
  refine Allows.bind (P := Stocked P) ?_ fun a ha => ?_
  · split
    · exact resetRegion_stocked hP h _ _
    · exact .pure h
  · refine (ha.modifyRow fun r hr => hP.fill r _ _ _ hr a.bgCell_plain).bind fun b hb => ?_
    exact .pure (deselect_stocked hb _ _)

theorem clearBelow_stocked (h : t.Stocked P) : Allows t.clearBelow (Stocked P) := by
  refine (h.modifyRow fun r hr => hP.fill r _ _ _ hr t.bgCell_plain).bind fun a ha => ?_
  refine Allows.bind (P := fun _ => True) (fun _ _ => trivial) fun line _ => ?_
  refine Allows.bind (P := fun _ => True) (fun _ _ => trivial) fun lastLine _ => ?_
  refine Allows.bind (P := Stocked P) ?_ fun b hb => .pure (deselect_stocked hb _ _)
  split
  · exact resetRegion_stocked hP ha _ _
  · exact .pure ha

theorem clearAll_stocked (h : t.Stocked P) : Allows t.clearAll (Stocked P) := by
  refine Allows.bind (P := Stocked P) ?_ fun a ha => .pure ⟨ha.grid, ha.inactiveGrid⟩
  split
  · exact resetRegion_stocked hP h _ _
  · exact (Grid.clearViewport_restocked hP.lasting h.grid.rows).bind fun _ hgrid =>
      .pure ⟨h.grid.restocked hgrid, h.inactiveGrid⟩

theorem clearScreen_stocked (h : t.Stocked P) (mode : ClearMode) :
    Allows (t.clearScreen mode) (Stocked P) := by
  refine Allows.bind (P := Stocked P) ?_ fun a ha => .pure ha.markFullyDamaged
  cases mode with
  | above => exact clearAbove_stocked hP h
  | below => exact clearBelow_stocked hP h
  | all => exact clearAll_stocked hP h
  | saved => exact clearSaved_stocked h

theorem decaln_stocked (h : t.Stocked P) : Allows t.decaln (Stocked P) := by
  refine Allows.bind (P := Stocked P) (fun a ha => ?_) fun a ha => .pure ha.markFullyDamaged
  refine foldlM_invariant h (fun b line c hb _ hc => ?_) ha
  refine foldlM_invariant hb (fun d column e hd _ he => ?_) hc
  have hkeeps : Cell.KeepsHalves fun _ => { c := 'E' } := fun _ =>
    ⟨fun hspacer => absurd hspacer Bool.false_ne_true, fun hwide => absurd hwide Bool.false_ne_true⟩
  exact hd.modifyCell hP hkeeps e he

theorem deccolm_stocked (h : t.Stocked P) : Allows t.deccolm (Stocked P) := by
  refine (setScrollingRegion_stocked h 1 none).bind fun a ha => ?_
  exact (resetRegion_stocked hP ha _ _).bind fun b hb => .pure hb.markFullyDamaged

/-! ### Screens -/

theorem resetState_stocked (h : t.Stocked P) : Allows t.resetState (Stocked P) := by
  simp only [resetState]
  generalize hactive : (if t.mode.altScreen = true then (_ : Term) else t) = a
  have ha : a.Stocked P := by
    rw [← hactive]
    exact stocked_ite ⟨h.inactiveGrid, h.grid⟩ h
  refine (Grid.reset_stocked hP ha.grid).bind fun grid hgrid => ?_
  exact (Grid.reset_stocked hP ha.inactiveGrid).bind fun inactive hinactive => .pure ⟨hgrid, hinactive⟩

theorem swapAlt_stocked (h : t.Stocked P) : Allows t.swapAlt (Stocked P) := by
  refine Allows.bind (P := Stocked P) ?_ fun a ha =>
    .pure (Stocked.markFullyDamaged ⟨ha.inactiveGrid, ha.grid⟩)
  split
  · exact .pure h
  · have hinactive : Grid.Stocked P { t.inactiveGrid with cursor := t.grid.cursor } :=
      ⟨h.inactiveGrid.rows, h.grid.template, h.inactiveGrid.saved⟩
    refine (Grid.resetRegion_restocked hP.lasting hinactive.rows _ _).bind
      fun grid hgrid => .pure ⟨⟨h.grid.rows, h.grid.template, h.grid.template⟩, ?_⟩
    exact hinactive.restocked hgrid

theorem swapAltIf_stocked (h : t.Stocked P) (b : Bool) : Allows (t.swapAltIf b) (Stocked P) := by
  unfold swapAltIf
  split
  · exact swapAlt_stocked hP h
  · exact .pure h

end

/-! ### Handlers that leave the screen alone -/

def SameTemplate (t t' : Term) : Prop := t'.grid.cursor.template = t.grid.cursor.template

/-- What the cursor writes is the same, and no line was damaged by itself. -/
structure Aside (t t' : Term) : Prop where
  template : t.SameTemplate t'
  damage : t'.damageState = t.damageState ∨ t'.damageState.full = true

theorem Aside.refl (t : Term) : t.Aside t := ⟨rfl, .inl rfl⟩

theorem aside_ite {c : Prop} [Decidable c] {a b : Term} (ha : t.Aside a) (hb : t.Aside b) :
    t.Aside (if c then a else b) := by
  split
  · exact ha
  · exact hb

theorem writeColor_aside (index : Nat) (color : Option Rgb) (changed : Option Rgb → Bool) :
    Allows (t.writeColor index color changed) t.Aside := by
  refine Allows.bind (P := fun _ => True) (fun _ _ => trivial) fun old _ => .pure ?_
  split
  · exact ⟨rfl, .inr rfl⟩
  · exact ⟨rfl, .inl rfl⟩

theorem setPrivateMode_aside {mode : PrivateMode} (h : mode.movesScreen = false) :
    Allows (t.setPrivateMode mode) t.Aside := by
  cases mode with
  | unknown _ => exact .pure (.refl t)
  | named mode =>
      cases mode with
      | swapScreenAndSetRestoreCursor | origin | columnMode => cases h
      | _ => exact .pure ⟨rfl, .inl rfl⟩

theorem unsetPrivateMode_aside {mode : PrivateMode}
    (h : (mode = .named .origin || !mode.movesScreen) = true) :
    Allows (t.unsetPrivateMode mode) t.Aside := by
  cases mode with
  | unknown _ => exact .pure (.refl t)
  | named mode =>
      cases mode with
      | swapScreenAndSetRestoreCursor | columnMode => cases h
      | _ => exact .pure ⟨rfl, .inl rfl⟩

/-- Attributes and hyperlinks make no halves of fullwidth characters. -/
theorem terminalAttribute_plain (h : t.grid.cursor.template.Plain) (attr : Attr) :
    (t.terminalAttribute attr).grid.cursor.template.Plain := by
  have hcolor : ∀ {cell : Cell} (color : Option Color), cell.Plain → (cell.setUnderlineColor color).Plain := by
    intro cell color hcell
    unfold Cell.setUnderlineColor
    split
    · exact ⟨hcell.wideChar, hcell.spacer⟩
    · exact ⟨hcell.wideChar, hcell.spacer⟩
  cases attr with
  | reset => exact hcolor none ⟨rfl, rfl⟩
  | underlineColor color => exact hcolor color h
  | _ => exact ⟨h.wideChar, h.spacer⟩

theorem setHyperlink_plain (h : t.grid.cursor.template.Plain) (hyperlink : Option Hyperlink) :
    (t.setHyperlink hyperlink).grid.cursor.template.Plain := by
  simp only [setHyperlink, modifyTemplate]
  unfold Cell.setHyperlink
  split
  · exact ⟨h.wideChar, h.spacer⟩
  · exact ⟨h.wideChar, h.spacer⟩

theorem Quiet.stocked (h : t.Quiet t') (ht : t.Stocked P)
    (htemplate : t'.grid.cursor.template.Plain) : t'.Stocked P := by
  have hraw : t'.grid.raw = t.grid.raw := (congrArg Grid.raw h.grid :)
  have hsaved : t'.grid.savedCursor = t.grid.savedCursor := (congrArg Grid.savedCursor h.grid :)
  exact ⟨⟨hraw ▸ ht.grid.rows, htemplate, hsaved ▸ ht.grid.saved⟩, h.inactiveGrid ▸ ht.inactiveGrid⟩

end Term

namespace HandlerOp
variable {t : Term} {env : Env} {P : Row Cell → Prop}

/-- The handlers that change what the cursor writes. -/
def isAttribute : HandlerOp → Bool
  | terminalAttribute _ | setHyperlink _ => true
  | _ => false

theorem step_aside {op : HandlerOp} (h : op.isQuiet = true) (hop : op.isAttribute = false) :
    Allows (op.step env t) t.Aside := by
  have hrefl : t.Aside t := .refl t
  cases op with
  | setHorizontalTabstop =>
      simp only [step, Term.setHorizontalTabstop]
      split
      · exact .pure ⟨rfl, .inl rfl⟩
      · exact fun _ ha => by cases ha
  | clearTabs mode =>
      cases mode with
      | current =>
          simp only [step, Term.clearTabs]
          split
          · exact .pure ⟨rfl, .inl rfl⟩
          · exact fun _ ha => by cases ha
      | all => exact .pure ⟨rfl, .inl rfl⟩
  | setHyperlink hyperlink => cases hop
  | terminalAttribute attr => cases hop
  | setPrivateMode mode =>
      exact Term.setPrivateMode_aside (by simpa only [isQuiet, Bool.not_eq_true'] using h)
  | unsetPrivateMode mode => exact Term.unsetPrivateMode_aside h
  | reportPrivateMode mode =>
      have hside : t.Aside (if mode = .named .blinkingCursor then t.modifyCursorStyle id else t) :=
        Term.aside_ite ⟨rfl, .inl rfl⟩ hrefl
      exact .pure ⟨hside.template, hside.damage⟩
  | setMode mode =>
      cases mode with
      | unknown _ => exact .pure hrefl
      | named mode => cases mode <;> exact .pure ⟨rfl, .inl rfl⟩
  | unsetMode mode =>
      cases mode with
      | unknown _ => exact .pure hrefl
      | named mode =>
          cases mode with
          | insert => exact .pure ⟨rfl, .inr rfl⟩
          | lineFeedNewLine => exact .pure ⟨rfl, .inl rfl⟩
  | setColor index color => exact Term.writeColor_aside _ _ _
  | resetColor index => exact Term.writeColor_aside _ _ _
  | clipboardStore clipboard base64 =>
      refine .pure ?_
      simp only [Term.clipboardStore]
      refine Term.aside_ite ?_ hrefl
      split
      · exact ⟨rfl, .inl rfl⟩
      · exact hrefl
  | clipboardLoad clipboard terminator =>
      refine .pure ?_
      simp only [Term.clipboardLoad]
      refine Term.aside_ite ?_ hrefl
      split
      · exact ⟨rfl, .inl rfl⟩
      · exact hrefl
  | identifyTerminal intermediate =>
      refine .pure ?_
      simp only [Term.identifyTerminal]
      split
      · exact ⟨rfl, .inl rfl⟩
      · exact ⟨rfl, .inl rfl⟩
      · exact hrefl
  | deviceStatus arg =>
      exact .pure (Term.aside_ite ⟨rfl, .inl rfl⟩ (Term.aside_ite ⟨rfl, .inl rfl⟩ hrefl))
  | reportKeyboardMode => exact .pure (Term.aside_ite ⟨rfl, .inl rfl⟩ hrefl)
  | pushKeyboardMode mode =>
      simp only [step, Term.pushKeyboardMode]
      split
      · refine Allows.bind (P := t.Aside) ?_ fun a ha => .pure ⟨ha.template, ha.damage⟩
        split
        · split
          · exact fun _ ha => by cases ha
          · exact .pure ⟨rfl, .inl rfl⟩
        · exact .pure hrefl
      · exact .pure hrefl
  | popKeyboardModes toPop => exact .pure (Term.aside_ite ⟨rfl, .inl rfl⟩ hrefl)
  | setKeyboardMode mode apply => exact .pure (Term.aside_ite ⟨rfl, .inl rfl⟩ hrefl)
  | popTitle =>
      refine .pure ?_
      simp only [Term.popTitle]
      split
      · exact ⟨rfl, .inl rfl⟩
      · exact hrefl
  | substitute | bell | dynamicColorSequence _ _ _ | textAreaSizePixels | textAreaSizeChars
  | reportMode _ | setKeypadApplicationMode | unsetKeypadApplicationMode | configureCharset _ _
  | setActiveCharset _ | setCursorStyle _ | setCursorShape _ | setTitle _ | pushTitle =>
      exact .pure ⟨rfl, .inl rfl⟩
  | _ => cases h

/-- Attributes and hyperlinks are for what is written later. -/
theorem step_attribute_damage {op : HandlerOp} (hop : op.isAttribute = true) :
    Allows (op.step env t) fun t' => t'.damageState = t.damageState := by
  cases op with
  | terminalAttribute attr => cases attr <;> exact .pure rfl
  | setHyperlink hyperlink => exact .pure rfl
  | _ => cases hop

theorem step_quiet_stocked {op : HandlerOp} (h : op.isQuiet = true) (ht : t.Stocked P) :
    Allows (op.step env t) (Term.Stocked P) := by
  intro t' ht'
  refine (step_quiet env h t' ht').stocked ht ?_
  by_cases hop : op.isAttribute = false
  · rw [(step_aside h hop t' ht').template]
    exact ht.grid.template
  · cases op with
    | terminalAttribute attr =>
        cases ht'
        exact Term.terminalAttribute_plain ht.grid.template attr
    | setHyperlink hyperlink =>
        cases ht'
        exact Term.setHyperlink_plain ht.grid.template hyperlink
    | _ => exact absurd rfl hop

/-! ### Steps -/

/-- The handlers that write halves of fullwidth characters, or move cells of a row. -/
def movesHalves : HandlerOp → Bool
  | input _ | insertBlank _ | deleteChars _ => true
  | _ => false

/-- All other handlers keep what holds of the stored rows. -/
theorem step_stocked (hP : Row.Kept P) (h : t.Stocked P) {op : HandlerOp}
    (hop : op.movesHalves = false) : Allows (op.step env t) (Term.Stocked P) := by
  by_cases hquiet : op.isQuiet = true
  · exact step_quiet_stocked hquiet h
  cases op with
  | input _ | insertBlank _ | deleteChars _ => cases hop
  | goto line col => exact Term.goto_stocked h line col
  | gotoLine line => exact Term.goto_stocked h line _
  | gotoCol col => exact Term.goto_stocked h _ col
  | moveUp lines => exact Term.goto_stocked h _ _
  | moveDown lines => exact Term.goto_stocked h _ _
  | moveForward cols => exact Term.moveForward_stocked h cols
  | moveBackward cols => exact Term.moveBackward_stocked h cols
  | moveDownAndCr lines => exact Term.goto_stocked h _ _
  | moveUpAndCr lines => exact Term.goto_stocked h _ _
  | putTab count => exact Term.putTab_stocked hP h count
  | backspace => exact Term.backspace_stocked h
  | carriageReturn => exact Term.carriageReturn_stocked h
  | linefeed => exact h.linefeed hP
  | newline => exact Term.newline_stocked hP h
  | scrollUp lines => exact h.scrollUpRelative hP _ _
  | scrollDown lines => exact h.scrollDownRelative hP _ _
  | insertBlankLines lines => exact Term.insertBlankLines_stocked hP h lines
  | deleteLines lines => exact Term.deleteLines_stocked hP h lines
  | eraseChars count => exact Term.eraseChars_stocked hP h count
  | moveBackwardTabs count => exact Term.moveBackwardTabs_stocked h count
  | moveForwardTabs count => exact Term.moveForwardTabs_stocked h count
  | saveCursorPosition => exact .pure (Term.saveCursorPosition_stocked h)
  | restoreCursorPosition => exact Term.restoreCursorPosition_stocked h
  | clearLine mode => exact Term.clearLine_stocked hP h mode
  | clearScreen mode => exact Term.clearScreen_stocked hP h mode
  | resetState => exact Term.resetState_stocked hP h
  | reverseIndex => exact Term.reverseIndex_stocked hP h
  | decaln => exact Term.decaln_stocked hP h
  | setScrollingRegion top bottom => exact Term.setScrollingRegion_stocked h top bottom
  | setPrivateMode mode =>
      cases mode with
      | unknown _ => exact absurd rfl hquiet
      | named mode =>
          cases mode with
          | swapScreenAndSetRestoreCursor => exact Term.swapAltIf_stocked hP h false
          | origin => exact Term.goto_stocked (by exact ⟨h.grid, h.inactiveGrid⟩) 0 0
          | columnMode => exact Term.deccolm_stocked hP h
          | _ => exact absurd rfl hquiet
  | unsetPrivateMode mode =>
      cases mode with
      | unknown _ => exact absurd rfl hquiet
      | named mode =>
          cases mode with
          | swapScreenAndSetRestoreCursor => exact Term.swapAltIf_stocked hP h true
          | columnMode => exact Term.deccolm_stocked hP h
          | _ => exact absurd rfl hquiet
  | _ => exact absurd rfl hquiet

end HandlerOp

/-- The steps that do so; a change of the width moves cells from row to row. -/
def TermOp.movesHalves : TermOp → Bool
  | .handler op => op.movesHalves
  | .resize _ _ => true
  | _ => false

namespace Term
variable {t : Term} {env : Env} {P : Row Cell → Prop}

/-- All other steps keep what holds of the stored rows. -/
theorem step_stocked (hP : Row.Kept P) (ht : t.WF) (h : t.Stocked P) {op : TermOp}
    (hop : op.Admissible t) (hmoves : op.movesHalves = false) :
    Allows (op.step env t) (Stocked P) := by
  intro t' ht'
  have hstepped := TermOp.step_stepped env ht hop t' ht'
  cases op with
  | handler op => exact HandlerOp.step_stocked hP h hmoves t' ht'
  | resize lines columns => cases hmoves
  | setOptions options =>
      cases hstepped with
      | viewed hviewed => exact hviewed.stocked h
      | configured hconfigured => exact hconfigured.stocked h
  | swapAlt => exact swapAlt_stocked hP h t' ht'
  | setAutoScrollEnabled enabled =>
      cases ht'
      exact ⟨⟨h.grid.rows, h.grid.template, h.grid.saved⟩, h.inactiveGrid⟩
  | scrollDisplay _ | toggleViMode | viMotion _ | viGotoPoint _ | setSelection _ | damage
  | resetDamage =>
      cases hstepped with
      | viewed hviewed => exact hviewed.stocked h

end Term
end Velacritty
