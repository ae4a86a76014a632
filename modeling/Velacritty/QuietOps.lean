import Velacritty.PrintSound
import Velacritty.TermOp

/-! Handlers that leave the screen alone, and those that replace it as a whole. -/
namespace Velacritty
open Fallible

namespace Term
variable {t t' : Term}

/-- Neither cells nor the cursor's place changed; damage was added at most. -/
structure Quiet (t t' : Term) : Prop where
  grid : t'.grid = { t.grid with cursor := t'.grid.cursor }
  point : t'.grid.cursor.point = t.grid.cursor.point
  needsWrap : t'.grid.cursor.inputNeedsWrap = t.grid.cursor.inputNeedsWrap
  inactiveGrid : t'.inactiveGrid = t.inactiveGrid
  viModeCursor : t'.viModeCursor = t.viModeCursor
  vi : t'.mode.vi = t.mode.vi
  altScreen : t'.mode.altScreen = t.mode.altScreen
  regionStart : t'.regionStart = t.regionStart
  regionEnd : t'.regionEnd = t.regionEnd
  tabs : t'.tabs.length = t.tabs.length
  damage : t.damageState.Grows t'.damageState
  insert : t.mode.insert = true → t'.mode.insert = true ∨ t'.damageState.full = true

theorem Quiet.refl (t : Term) : Quiet t t :=
  ⟨rfl, rfl, rfl, rfl, rfl, rfl, rfl, rfl, rfl, rfl, .refl _, .inl⟩

theorem Quiet.wf (h : Quiet t t') (ht : t.WF) : t'.WF := by
  have hgrid := h.grid
  have hraw : t'.grid.raw = t.grid.raw := (congrArg Grid.raw hgrid :)
  have hlines : t'.grid.lines = t.grid.lines := (congrArg Grid.lines hgrid :)
  have hcolumns : t'.grid.columns = t.grid.columns := (congrArg Grid.columns hgrid :)
  have hmax : t'.grid.maxScrollLimit = t.grid.maxScrollLimit := (congrArg Grid.maxScrollLimit hgrid :)
  have hsaved : t'.grid.savedCursor = t.grid.savedCursor := (congrArg Grid.savedCursor hgrid :)
  refine ⟨⟨?_, ?_, ?_, ?_, ?_, ?_⟩, ?_, ?_, ?_, ?_, ?_, ?_, ?_, ?_, ?_⟩
  · rw [hraw, hcolumns]; exact ht.grid.raw
  · rw [hraw, hlines]; exact ht.grid.visible
  · rw [hcolumns]; exact ht.grid.columns_pos
  · rw [hraw, hlines, hmax]; exact ht.grid.history_le
  · rw [hlines, hcolumns, h.point]; exact ht.grid.cursor
  · rw [hlines, hcolumns, hsaved]; exact ht.grid.savedCursor
  · rw [h.inactiveGrid]; exact ht.inactiveGrid
  · rw [h.inactiveGrid, hlines]; exact ht.inactive_lines
  · rw [h.inactiveGrid, hcolumns]; exact ht.inactive_columns
  · rw [hcolumns]; exact ht.two_le
  · rw [hlines, h.regionStart, h.regionEnd]; exact ht.region
  · rw [h.regionEnd]; exact ht.region_pos
  · rw [h.tabs, hcolumns]; exact ht.tabs
  · rw [h.damage.length, hlines]; exact ht.damage
  · rw [hlines, hcolumns, h.damage.lastCursor]; exact ht.lastCursor

theorem Quiet.sendEvent (h : Quiet t t') (event : Event) : Quiet t (t'.sendEvent event) :=
  ⟨h.grid, h.point, h.needsWrap, h.inactiveGrid, h.viModeCursor, h.vi, h.altScreen, h.regionStart,
    h.regionEnd, h.tabs, h.damage, h.insert⟩

theorem quiet_modifyMode {f : TermMode → TermMode} (hvi : (f t.mode).vi = t.mode.vi)
    (halt : (f t.mode).altScreen = t.mode.altScreen)
    (hinsert : t.mode.insert = true → (f t.mode).insert = true) : Quiet t (t.modifyMode f) :=
  ⟨rfl, rfl, rfl, rfl, rfl, hvi, halt, rfl, rfl, rfl, .refl _, fun h => .inl (hinsert h)⟩

theorem quiet_modifyTemplate (f : Cell → Cell) : Quiet t (t.modifyTemplate f) :=
  ⟨rfl, rfl, rfl, rfl, rfl, rfl, rfl, rfl, rfl, rfl, .refl _, .inl⟩

theorem quiet_modifyCursorStyle (f : CursorStyle → CursorStyle) : Quiet t (t.modifyCursorStyle f) :=
  ⟨rfl, rfl, rfl, rfl, rfl, rfl, rfl, rfl, rfl, rfl, .refl _, .inl⟩

theorem quiet_applyKeyboardMode (h : Quiet t t') (mode : KeyboardModes)
    (apply : KeyboardModesApplyBehavior) : Quiet t (t'.applyKeyboardMode mode apply) :=
  ⟨h.grid, h.point, h.needsWrap, h.inactiveGrid, h.viModeCursor, h.vi, h.altScreen, h.regionStart,
    h.regionEnd, h.tabs, h.damage, h.insert⟩

theorem writeColor_quiet (index : Nat) (color : Option Rgb) (changed : Option Rgb → Bool) :
    Allows (t.writeColor index color changed) (Quiet t) := by
  intro t' ht'
  simp only [writeColor, Option.bind_eq_bind, Option.bind_eq_some_iff, Option.some.injEq] at ht'
  obtain ⟨old, -, rfl⟩ := ht'
  split
  · exact ⟨rfl, rfl, rfl, rfl, rfl, rfl, rfl, rfl, rfl, rfl, TermDamageState.markFull_grows _,
      fun _ => .inr rfl⟩
  · exact ⟨rfl, rfl, rfl, rfl, rfl, rfl, rfl, rfl, rfl, rfl, .refl _, .inl⟩

theorem pushKeyboardMode_quiet (mode : KeyboardModes) :
    Allows (t.pushKeyboardMode mode) (Quiet t) := by
  unfold pushKeyboardMode
  split
  · refine Allows.bind (P := fun a => Quiet t a) ?_ fun a ha => .pure ?_
    · split
      · split
        · exact fun _ h => nomatch h
        · exact .pure ⟨rfl, rfl, rfl, rfl, rfl, rfl, rfl, rfl, rfl, rfl, .refl _, .inl⟩
      · exact .pure (.refl t)
    · exact ⟨ha.grid, ha.point, ha.needsWrap, ha.inactiveGrid, ha.viModeCursor, ha.vi, ha.altScreen,
        ha.regionStart, ha.regionEnd, ha.tabs, ha.damage, ha.insert⟩
  · exact .pure (.refl t)

theorem terminalAttribute_quiet (attr : Attr) : Quiet t (t.terminalAttribute attr) := by
  cases attr with
  | blinkSlow | blinkFast | cancelBlink => exact .refl t
  | _ => exact ⟨rfl, rfl, rfl, rfl, rfl, rfl, rfl, rfl, rfl, rfl, .refl _, .inl⟩

theorem setTitle_quiet (title : Option String) : Quiet t (t.setTitle title) :=
  ⟨rfl, rfl, rfl, rfl, rfl, rfl, rfl, rfl, rfl, rfl, .refl _, .inl⟩

theorem clearTabs_quiet (mode : TabulationClearMode) : Allows (t.clearTabs mode) (Quiet t) := by
  cases mode with
  | current =>
      simp only [clearTabs]
      split
      · exact .pure ⟨rfl, rfl, rfl, rfl, rfl, rfl, rfl, rfl, rfl, List.length_set, .refl _, .inl⟩
      · exact fun _ h => nomatch h
  | all =>
      exact .pure ⟨rfl, rfl, rfl, rfl, rfl, rfl, rfl, rfl, rfl, List.length_map .., .refl _, .inl⟩

theorem setHorizontalTabstop_quiet : Allows t.setHorizontalTabstop (Quiet t) := by
  simp only [setHorizontalTabstop]
  split
  · exact .pure ⟨rfl, rfl, rfl, rfl, rfl, rfl, rfl, rfl, rfl, List.length_set, .refl _, .inl⟩
  · exact fun _ h => nomatch h

theorem unsetMode_quiet (mode : Mode) : Quiet t (t.unsetMode mode) := by
  cases mode with
  | unknown _ => exact .refl t
  | named mode =>
      cases mode with
      | insert => exact ⟨rfl, rfl, rfl, rfl, rfl, rfl, rfl, rfl, rfl, rfl,
          TermDamageState.markFull_grows _, fun _ => .inr rfl⟩
      | lineFeedNewLine => exact ⟨rfl, rfl, rfl, rfl, rfl, rfl, rfl, rfl, rfl, rfl, .refl _, .inl⟩

theorem setMode_quiet (mode : Mode) : Quiet t (t.setMode mode) := by
  cases mode with
  | unknown _ => exact .refl t
  | named mode =>
      cases mode with
      | insert => exact ⟨rfl, rfl, rfl, rfl, rfl, rfl, rfl, rfl, rfl, rfl, .refl _, fun _ => .inl rfl⟩
      | lineFeedNewLine => exact ⟨rfl, rfl, rfl, rfl, rfl, rfl, rfl, rfl, rfl, rfl, .refl _, .inl⟩

end Term

namespace PrivateMode

/-- The modes that move the cursor or change the screen. -/
def movesScreen : PrivateMode → Bool
  | named .swapScreenAndSetRestoreCursor | named .origin | named .columnMode => true
  | _ => false

end PrivateMode

namespace HandlerOp

/-- The handlers that neither draw nor move the cursor. -/
def isQuiet : HandlerOp → Bool
  | bell | substitute | setHorizontalTabstop | clearTabs _ | setHyperlink _ | terminalAttribute _
  | reportPrivateMode _ | setMode _ | unsetMode _ | reportMode _ | setKeypadApplicationMode
  | unsetKeypadApplicationMode | configureCharset _ _ | setActiveCharset _ | setColor _ _
  | resetColor _ | dynamicColorSequence _ _ _ | clipboardStore _ _ | clipboardLoad _ _
  | identifyTerminal _ | deviceStatus _ | reportKeyboardMode | pushKeyboardMode _
  | popKeyboardModes _ | setKeyboardMode _ _ | setCursorStyle _ | setCursorShape _ | setTitle _
  | pushTitle | popTitle | textAreaSizePixels | textAreaSizeChars => true
  | setPrivateMode mode => !mode.movesScreen
  | unsetPrivateMode mode => mode = .named .origin || !mode.movesScreen
  | _ => false

variable {t : Term}

theorem setPrivateMode_quiet {mode : PrivateMode} (h : mode.movesScreen = false) :
    Allows (t.setPrivateMode mode) t.Quiet := by
  cases mode with
  | unknown _ => exact .pure (.refl t)
  | named mode =>
      cases mode with
      | swapScreenAndSetRestoreCursor | origin | columnMode => cases h
      | syncUpdate => exact .pure (.refl t)
      | blinkingCursor => exact .pure ((Term.quiet_modifyCursorStyle _).sendEvent _)
      | reportMouseClicks | reportCellMouseMotion | reportAllMouseMotion =>
          exact .pure ((Term.quiet_modifyMode rfl rfl id).sendEvent _)
      | _ => exact .pure (Term.quiet_modifyMode rfl rfl id)

theorem unsetPrivateMode_quiet {mode : PrivateMode}
    (h : (mode = .named .origin || !mode.movesScreen) = true) :
    Allows (t.unsetPrivateMode mode) t.Quiet := by
  cases mode with
  | unknown _ => exact .pure (.refl t)
  | named mode =>
      cases mode with
      | swapScreenAndSetRestoreCursor | columnMode => cases h
      | syncUpdate => exact .pure (.refl t)
      | blinkingCursor => exact .pure ((Term.quiet_modifyCursorStyle _).sendEvent _)
      | reportMouseClicks | reportCellMouseMotion | reportAllMouseMotion =>
          exact .pure ((Term.quiet_modifyMode rfl rfl id).sendEvent _)
      | _ => exact .pure (Term.quiet_modifyMode rfl rfl id)

theorem step_quiet (env : Env) {op : HandlerOp} (h : op.isQuiet = true) :
    Allows (op.step env t) t.Quiet := by
  have hrefl : t.Quiet t := .refl t
  cases op with
  | setHorizontalTabstop => exact Term.setHorizontalTabstop_quiet
  | clearTabs mode => exact Term.clearTabs_quiet mode
  | setHyperlink hyperlink => exact .pure (Term.quiet_modifyTemplate _)
  | terminalAttribute attr => exact .pure (Term.terminalAttribute_quiet attr)
  | setPrivateMode mode => exact setPrivateMode_quiet (by simpa only [isQuiet, Bool.not_eq_true'] using h)
  | unsetPrivateMode mode => exact unsetPrivateMode_quiet h
  | reportPrivateMode mode =>
      refine .pure ?_
      simp only [Term.reportPrivateMode]
      split
      · exact (Term.quiet_modifyCursorStyle id).sendEvent _
      · exact hrefl.sendEvent _
  | setMode mode => exact .pure (Term.setMode_quiet mode)
  | unsetMode mode => exact .pure (Term.unsetMode_quiet mode)
  | setKeypadApplicationMode => exact .pure (Term.quiet_modifyMode rfl rfl id)
  | unsetKeypadApplicationMode => exact .pure (Term.quiet_modifyMode rfl rfl id)
  | configureCharset index charset =>
      exact .pure ⟨rfl, rfl, rfl, rfl, rfl, rfl, rfl, rfl, rfl, rfl, .refl _, .inl⟩
  | setActiveCharset index =>
      exact .pure ⟨rfl, rfl, rfl, rfl, rfl, rfl, rfl, rfl, rfl, rfl, .refl _, .inl⟩
  | setColor index color => exact Term.writeColor_quiet _ _ _
  | resetColor index => exact Term.writeColor_quiet _ _ _
  | clipboardStore clipboard base64 =>
      refine .pure ?_
      simp only [Term.clipboardStore]
      split
      · split
        · exact hrefl.sendEvent _
        · exact hrefl
      · exact hrefl
  | clipboardLoad clipboard terminator =>
      refine .pure ?_
      simp only [Term.clipboardLoad]
      split
      · split
        · exact hrefl.sendEvent _
        · exact hrefl
      · exact hrefl
  | identifyTerminal intermediate =>
      refine .pure ?_
      simp only [Term.identifyTerminal]
      split
      · exact hrefl.sendEvent _
      · exact hrefl.sendEvent _
      · exact hrefl
  | deviceStatus arg =>
      refine .pure ?_
      simp only [Term.deviceStatus]
      split
      · exact hrefl.sendEvent _
      · split
        · exact hrefl.sendEvent _
        · exact hrefl
  | reportKeyboardMode =>
      refine .pure ?_
      simp only [Term.reportKeyboardMode]
      split
      · exact hrefl.sendEvent _
      · exact hrefl
  | pushKeyboardMode mode => exact Term.pushKeyboardMode_quiet mode
  | popKeyboardModes toPop =>
      refine .pure ?_
      simp only [Term.popKeyboardModes]
      split
      · exact ⟨rfl, rfl, rfl, rfl, rfl, rfl, rfl, rfl, rfl, rfl, .refl _, .inl⟩
      · exact hrefl
  | setKeyboardMode mode apply =>
      refine .pure ?_
      simp only [Term.setKeyboardMode]
      split
      · exact Term.quiet_applyKeyboardMode hrefl _ _
      · exact hrefl
  | setCursorStyle style =>
      exact .pure ⟨rfl, rfl, rfl, rfl, rfl, rfl, rfl, rfl, rfl, rfl, .refl _, .inl⟩
  | setCursorShape shape => exact .pure (Term.quiet_modifyCursorStyle _)
  | setTitle title => exact .pure (Term.setTitle_quiet title)
  | pushTitle => exact .pure ⟨rfl, rfl, rfl, rfl, rfl, rfl, rfl, rfl, rfl, rfl, .refl _, .inl⟩
  | popTitle =>
      refine .pure ?_
      simp only [Term.popTitle]
      split
      · exact ⟨rfl, rfl, rfl, rfl, rfl, rfl, rfl, rfl, rfl, rfl, .refl _, .inl⟩
      · exact hrefl
  | substitute => exact .pure hrefl
  | bell | dynamicColorSequence _ _ _ | textAreaSizePixels | textAreaSizeChars | reportMode _ =>
      exact .pure (hrefl.sendEvent _)
  | _ => cases h

end HandlerOp
end Velacritty
