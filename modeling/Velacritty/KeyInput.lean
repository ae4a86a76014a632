import Velacritty.Bindings
import Velacritty.KeyReports

/-! What becomes of a key: the bindings that it triggers, the searches and hints that take it, and
what is written to the PTY. -/
namespace Velacritty
open ControlSequences

structure KeyContext where
  preedit : Bool
  hintActive : Bool
  charPending : Bool
  searchActive : Bool
  mode : TermMode
  mods : ModifiersState
  optionAsAlt : Bool
  deriving DecidableEq, Repr

/-- The actions that run, the text that goes to a hint, to an inline search or to a search, and what
is written. -/
structure KeyOutcome (A : Type) where
  actions : List A
  hintInput : List Char
  inlineSearchInput : Option (List Char)
  searchInput : List Char
  written : List Char
  deriving DecidableEq, Repr

namespace KeyOutcome
variable {A : Type}

def run (actions : List A) : KeyOutcome A := ⟨actions, [], none, [], []⟩

end KeyOutcome

structure Plain (texts : KeyTexts) (c : KeyContext) (key : KeyEvent) : Prop where
  mode : c.mode.keyboard.reportAllKeysAsEsc = false
  escape : key.logicalKey ≠ .named .escape
  numpad : key.location ≠ .numpad
  mods : maskedMods texts c.optionAsAlt key c.mods ∈
    [ModifiersState.empty, { ModifiersState.empty with shift := true }]

section
variable {texts : KeyTexts} {c : KeyContext} {key : KeyEvent}

/-- Neither of the modifiers that are left is `Alt`. -/
theorem Plain.alt (h : Plain texts c key) : (maskedMods texts c.optionAsAlt key c.mods).alt = false := by
  rcases List.mem_cons.mp h.mods with h | h
  · rw [h]
    rfl
  · rw [List.mem_singleton.mp h]
    rfl

end

section
variable {A : Type} [DecidableEq A]

end
end Velacritty
