import Velacritty.OwnerOps

/-! Every call of the parser, by its effect. -/
namespace Velacritty
open Fallible

namespace Term
variable {t t' : Term}

/-- The calls that swap the screens: only away from the one that is shown. -/
def Swaps (t : Term) (op : HandlerOp) : Prop :=
  op = .setPrivateMode (.named .swapScreenAndSetRestoreCursor) ∧ t.mode.altScreen = false ∨
    op = .unsetPrivateMode (.named .swapScreenAndSetRestoreCursor) ∧ t.mode.altScreen = true

/-- What a call of the parser did. -/
inductive Stepped (env : Env) (t t' : Term) : HandlerOp → Prop
  | same {op} (h : t' = t) : Stepped env t t' op
  | quiet {op} (h : t.Quiet t') : Stepped env t t' op
  | inputted {c} (h : Inputted env c t t') : Stepped env t t' (.input c)
  | freed {op} {a : Term} (ha : t.Quiet a) (h : Moved a t')
      (hneeds : t'.grid.cursor.inputNeedsWrap = false) : Stepped env t t' op
  | raised {op} (h : Moved t t')
      (hcolumn : t'.grid.cursor.point.column = t.grid.cursor.point.column)
      (hneeds : t'.grid.cursor.inputNeedsWrap = t.grid.cursor.inputNeedsWrap) : Stepped env t t' op
  | wrapped {count} (hneeds : t.grid.cursor.inputNeedsWrap = true) (h : Wrapped t t') :
      Stepped env t t' (.putTab count)
  | tabbed {count} (hneeds : t.grid.cursor.inputNeedsWrap = false) (h : Tabbed t t') :
      Stepped env t t' (.putTab count)
  | tabbedBack {count} (column : Nat) (h : Moved t t')
      (hcursor : t'.grid.cursor = { t.grid.cursor with point.column := column })
      (hcolumn : column = t.grid.cursor.point.column ∧
          (count = 0 ∨ ∀ k < t.grid.cursor.point.column, t.tabs[k]? ≠ some true) ∨
        column < t.grid.cursor.point.column ∧ count ≠ 0 ∧ t.tabs[column]? = some true) :
      Stepped env t t' (.moveBackwardTabs count)
  | tabbedForward {op} (column : Nat) (h : Moved t t')
      (hcursor : t'.grid.cursor = { t.grid.cursor with point.column := column })
      (hlo : t.grid.cursor.point.column ≤ column) (hhi : column < t.grid.columns) :
      Stepped env t t' op
  | linefed {op} (hop : op = .linefeed ∨ op = .newline) (h : Linefed t t') : Stepped env t t' op
  | newline {a : Term} (ha : Linefed t a) (h : Moved a t') (hneeds : t'.grid.cursor.inputNeedsWrap = false) :
      Stepped env t t' .newline
  | scrolledUp {lines} (h : ScrolledUp t.regionStart lines t t') : Stepped env t t' (.scrollUp lines)
  | scrolledDown {op} (origin : Int) (h : ScrolledDown origin t t') : Stepped env t t' op
  | deletedLines {lines} (hlo : t.regionStart ≤ t.grid.cursor.point.line)
      (hhi : t.grid.cursor.point.line < t.regionEnd)
      (h : ScrolledUp t.grid.cursor.point.line
        (min (t.screenLines - t.grid.cursor.point.line.toNat) lines) t t') :
      Stepped env t t' (.deleteLines lines)
  | redrawn {op} (h : Redrawn t t') : Stepped env t t' op
  | redone {op} (h : Redone t t') : Stepped env t t' op
  | saved {op} (h : t' = t.saveCursorPosition) : Stepped env t t' op
  | restored {op} (h : Moved t t') (hcursor : t'.grid.cursor = t.grid.savedCursor) :
      Stepped env t t' op
  | cleared {op} (h : Cleared t t') : Stepped env t t' op
  | restarted (h : Restarted t t') : Stepped env t t' .resetState
  | regioned {top bottom} (h : Regioned top bottom t t') :
      Stepped env t t' (.setScrollingRegion top bottom)
  | regionedRedone {op} {a : Term} (ha : Regioned 1 none t a) (h : Redone a t') : Stepped env t t' op
  | swapped {op} (hop : t.Swaps op) (h : Swapped t t') : Stepped env t t' op

theorem Linefed.wf (h : Linefed t t') (ht : t.WF) : t'.WF := by
  cases h with
  | scrolled _ h => exact h.wf
  | moved _ h _ => exact h.toEdited.wf ht
  | stuck _ _ h => exact h ▸ ht

theorem Stepped.wf {env : Env} {op : HandlerOp} (h : Stepped env t t' op) (ht : t.WF) : t'.WF := by
  cases h with
  | same h => exact h ▸ ht
  | quiet h => exact h.wf ht
  | inputted h => exact h.wf ht
  | freed ha h _ => exact h.toEdited.wf (ha.wf ht)
  | raised h _ _ => exact h.toEdited.wf ht
  | wrapped _ h => exact h.wf ht
  | tabbed _ h => exact h.edited.wf ht
  | tabbedBack _ h _ _ => exact h.toEdited.wf ht
  | tabbedForward _ h _ _ _ => exact h.toEdited.wf ht
  | linefed _ h => exact h.wf ht
  | newline ha h _ => exact h.toEdited.wf (ha.wf ht)
  | scrolledUp h => exact h.wf
  | scrolledDown _ h => exact h.wf
  | deletedLines _ _ h => exact h.wf
  | redrawn h =>
      obtain ⟨S, h, -⟩ := h
      exact h.toEdited.wf ht
  | redone h => exact h.toEdited.wf ht
  | saved h =>
      rw [h]
      exact ⟨⟨ht.grid.raw, ht.grid.visible, ht.grid.columns_pos, ht.grid.history_le, ht.grid.cursor,
        ht.grid.cursor⟩, ht.inactiveGrid, ht.inactive_lines, ht.inactive_columns, ht.two_le, ht.region,
        ht.region_pos, ht.tabs, ht.damage, ht.lastCursor⟩
  | restored h _ => exact h.toEdited.wf ht
  | cleared h => exact h.wf ht
  | restarted h => exact h.wf
  | regioned h => exact h.wf ht
  | regionedRedone ha h => exact h.toEdited.wf (ha.wf ht)
  | swapped _ h => exact h.wf

end Term

namespace HandlerOp
variable {t : Term}

theorem goto_stepped (env : Env) (op : HandlerOp) (h : t.WF) (line : Int) (col : Nat) :
    Allows (t.goto line col) fun t' => Term.Stepped env t t' op :=
  (Term.goto_returns h line col).allows.mono fun _ ht' => .freed (.refl t) ht'.1 ht'.2

theorem swapAltIf_stepped (env : Env) {op : HandlerOp} {b : Bool} (h : t.WF)
    (hop : t.mode.altScreen = b → t.Swaps op) :
    Allows (t.swapAltIf b) fun t' => Term.Stepped env t t' op := by
  unfold Term.swapAltIf
  split
  · next hb => exact (Term.swapAlt_returns h).allows.mono fun _ ht' => .swapped (hop hb) ht'
  · exact .pure (.same rfl)

theorem setPrivateMode_stepped (env : Env) (h : t.WF) (mode : PrivateMode) :
    Allows (t.setPrivateMode mode) fun t' => Term.Stepped env t t' (.setPrivateMode mode) := by
  by_cases hquiet : mode.movesScreen = false
  · exact (setPrivateMode_quiet hquiet).mono fun _ => .quiet
  · cases mode with
    | unknown _ => exact absurd rfl hquiet
    | named mode =>
        cases mode with
        | swapScreenAndSetRestoreCursor => exact swapAltIf_stepped env h fun hb => .inl ⟨rfl, hb⟩
        | origin =>
            have hset : t.Quiet (t.modifyMode fun m => { m with origin := true }) :=
              Term.quiet_modifyMode rfl rfl id
            exact (Term.goto_returns (hset.wf h) 0 0).allows.mono fun _ ht' => .freed hset ht'.1 ht'.2
        | columnMode =>
            refine (Term.deccolm_returns h).allows.mono fun _ ht' => ?_
            obtain ⟨a, ha, ht'⟩ := ht'
            exact .regionedRedone ha ht'
        | _ => exact absurd rfl hquiet

theorem unsetPrivateMode_stepped (env : Env) (h : t.WF) (mode : PrivateMode) :
    Allows (t.unsetPrivateMode mode) fun t' => Term.Stepped env t t' (.unsetPrivateMode mode) := by
  by_cases hquiet : (mode = .named .origin || !mode.movesScreen) = true
  · exact (unsetPrivateMode_quiet hquiet).mono fun _ => .quiet
  · cases mode with
    | unknown _ => exact absurd rfl hquiet
    | named mode =>
        cases mode with
        | swapScreenAndSetRestoreCursor => exact swapAltIf_stepped env h fun hb => .inr ⟨rfl, hb⟩
        | columnMode =>
            refine (Term.deccolm_returns h).allows.mono fun _ ht' => ?_
            obtain ⟨a, ha, ht'⟩ := ht'
            exact .regionedRedone ha ht'
        | _ => exact absurd rfl hquiet

/-- Every call of the parser has one of the effects. -/
theorem step_stepped (env : Env) (h : t.WF) {op : HandlerOp} (hop : op.Admissible) :
    Allows (op.step env t) fun t' => Term.Stepped env t t' op := by
  by_cases hquiet : op.isQuiet = true
  · exact (step_quiet env hquiet).mono fun _ => .quiet
  cases op with
  | input c => exact (Term.input_returns env h c).allows.mono fun _ => .inputted
  | goto line col => exact goto_stepped env _ h line col
  | gotoLine line => exact goto_stepped env _ h line _
  | gotoCol col => exact goto_stepped env _ h _ col
  | insertBlank count => exact (Term.insertBlank_returns h count).allows.mono fun _ => .redrawn
  | moveUp lines => exact goto_stepped env _ h _ _
  | moveDown lines => exact goto_stepped env _ h _ _
  | moveForward cols =>
      exact (Term.moveForward_returns h cols).allows.mono fun _ ht' => .freed (.refl t) ht'.1 ht'.2
  | moveBackward cols =>
      exact (Term.moveBackward_returns h cols).allows.mono fun _ ht' => .freed (.refl t) ht'.1 ht'.2
  | moveDownAndCr lines => exact goto_stepped env _ h _ _
  | moveUpAndCr lines => exact goto_stepped env _ h _ _
  | putTab count =>
      refine (Term.putTab_returns env h count).allows.mono fun _ ht' => ?_
      rcases ht' with ⟨hneeds, ht'⟩ | ⟨hneeds, ht'⟩
      · exact .wrapped hneeds ht'
      · exact .tabbed hneeds ht'
  | backspace =>
      refine (Term.backspace_returns h).allows.mono fun _ ht' => ?_
      rcases ht' with ht' | ht'
      · exact .same ht'
      · exact .freed (.refl t) ht'.1 ht'.2
  | carriageReturn =>
      refine (Term.carriageReturn_returns h).allows.mono fun _ ht' => .freed (.refl t) ht'.1 ?_
      rw [ht'.2]
  | linefeed => exact (Term.linefeed_returns h).allows.mono fun _ => .linefed (.inl rfl)
  | newline =>
      refine (Term.newline_returns h).allows.mono fun _ ht' => ?_
      obtain ⟨a, ha, ht', -⟩ := ht'
      rcases ht' with rfl | ht'
      · exact .linefed (.inr rfl) ha
      · exact .newline ha ht'.1 ht'.2
  | scrollUp lines => exact (Term.scrollUp_returns h lines).allows.mono fun _ => .scrolledUp
  | scrollDown lines => exact (Term.scrollDown_returns h lines).allows.mono fun _ => .scrolledDown _
  | insertBlankLines lines =>
      refine (Term.insertBlankLines_returns h lines).allows.mono fun _ ht' => ?_
      rcases ht' with ht' | ht'
      · exact .same ht'
      · exact .scrolledDown _ ht'
  | deleteLines lines =>
      refine (Term.deleteLines_returns h lines).allows.mono fun _ ht' => ?_
      rcases ht' with ht' | ht'
      · exact .same ht'
      · exact .deletedLines ht'.1.1 ht'.1.2 ht'.2
  | eraseChars count => exact (Term.eraseChars_returns h count).allows.mono fun _ => .redrawn
  | deleteChars count => exact (Term.deleteChars_returns h count).allows.mono fun _ => .redrawn
  | moveBackwardTabs count =>
      refine (Term.moveBackwardTabs_returns h count).allows.mono fun _ ht' => ?_
      obtain ⟨ht', column, hcursor, hcolumn⟩ := ht'
      exact .tabbedBack column ht' hcursor hcolumn
  | moveForwardTabs count =>
      refine (Term.moveForwardTabs_returns h count).allows.mono fun _ ht' => ?_
      obtain ⟨ht', column, hlo, hhi, hcursor⟩ := ht'
      exact .tabbedForward column ht' hcursor hlo hhi
  | saveCursorPosition => exact .pure (.saved rfl)
  | restoreCursorPosition =>
      exact (Term.restoreCursorPosition_returns h).allows.mono fun _ ht' => .restored ht'.1 ht'.2
  | clearLine mode =>
      refine (Term.clearLine_returns h mode).allows.mono fun _ ht' => ?_
      rcases ht' with ht' | ht'
      · exact .same ht'
      · exact .redrawn ht'
  | clearScreen mode => exact (Term.clearScreen_returns h mode).allows.mono fun _ => .cleared
  | resetState => exact (Term.resetState_returns h).allows.mono fun _ => .restarted
  | reverseIndex =>
      refine (Term.reverseIndex_returns h).allows.mono fun _ ht' => ?_
      rcases ht' with ht' | ht'
      · exact .scrolledDown _ ht'
      · exact .raised ht'.1 ht'.2.1 ht'.2.2
  | decaln => exact (Term.decaln_returns h).allows.mono fun _ => .redone
  | setPrivateMode mode => exact setPrivateMode_stepped env h mode
  | unsetPrivateMode mode => exact unsetPrivateMode_stepped env h mode
  | setScrollingRegion top bottom =>
      exact (Term.setScrollingRegion_returns h hop bottom).allows.mono fun _ => .regioned
  | _ => exact absurd rfl hquiet

end HandlerOp
end Velacritty
