import Velacritty.TermSteps

/-! Reports of modes: in every run they say what was set and unset last, mutually exclusive modes
included. -/
namespace Velacritty
open Fallible

/-- The state of every mode that can be asked for. -/
@[ext]
structure ModeStates where
  privateMode : NamedPrivateMode → ModeState
  mode : NamedMode → ModeState

namespace NamedPrivateMode

/-- Of these groups at most one mode is set. -/
inductive Group where
  | protocol
  | encoding
  deriving DecidableEq, Repr

/-- Mouse protocols are mutually exclusive, and so are mouse encodings. -/
def group : NamedPrivateMode → Option Group
  | reportMouseClicks | reportCellMouseMotion | reportAllMouseMotion => some .protocol
  | sgrMouse | utf8Mouse => some .encoding
  | _ => none

/-- Setting the one mode unsets the other. -/
def Excludes (m m' : NamedPrivateMode) : Prop := m ≠ m' ∧ m.group = m'.group ∧ m.group.isSome

instance (m m' : NamedPrivateMode) : Decidable (m.Excludes m') :=
  inferInstanceAs (Decidable (m ≠ m' ∧ m.group = m'.group ∧ m.group.isSome))

/-- The modes that have no state: one only has side effects, and the other one is the parser's. -/
def stateless (m : NamedPrivateMode) : Bool := m = columnMode || m = syncUpdate

end NamedPrivateMode

namespace ModeStates

/-- All modes after a reset; whether the cursor blinks is configured. -/
def initial (blinking : Bool) : ModeStates where
  privateMode
    | .showCursor | .lineWrap | .alternateScroll | .urgencyHints => .set
    | .blinkingCursor => .ofBool blinking
    | .columnMode => .notSupported
    | _ => .reset
  mode _ := .reset

def set (s : ModeStates) (m : NamedPrivateMode) : ModeStates :=
  if m.stateless then s
  else { s with privateMode := fun m' =>
    if m' = m then .set else if m.Excludes m' then .reset else s.privateMode m' }

def write (s : ModeStates) (m : NamedPrivateMode) (value : Bool) : ModeStates :=
  { s with privateMode := Function.update s.privateMode m (ModeState.ofBool value) }

def unset (s : ModeStates) (m : NamedPrivateMode) : ModeStates := if m.stateless then s else s.write m false

/-- What a call of the parser does to the states of modes. -/
def step (blinking : Bool) (s : ModeStates) : HandlerOp → ModeStates
  | .setPrivateMode (.named m) => s.set m
  | .unsetPrivateMode (.named m) => s.unset m
  | .setMode (.named m) => { s with mode := Function.update s.mode m .set }
  | .unsetMode (.named m) => { s with mode := Function.update s.mode m .reset }
  | .setCursorStyle style => s.write .blinkingCursor ((style.map CursorStyle.blinking).getD blinking)
  | .resetState => initial blinking
  | _ => s

end ModeStates

namespace Term
variable {t t' t'' : Term} {S : Point → Prop}

def modeStates (t : Term) : ModeStates := ⟨fun m => t.privateModeState (.named m), fun m => t.modeState (.named m)⟩

def blinks (t : Term) : Bool := t.config.defaultCursorStyle.blinking

structure Unmoded (t t' : Term) : Prop where
  states : t'.modeStates = t.modeStates
  blinks : t'.blinks = t.blinks

theorem Unmoded.refl (t : Term) : Unmoded t t := ⟨rfl, rfl⟩

theorem Unmoded.trans (h : Unmoded t t') (h' : Unmoded t' t'') : Unmoded t t'' :=
  ⟨h'.states.trans h.states, h'.blinks.trans h.blinks⟩

theorem Edited.unmoded (h : Edited S t t') : Unmoded t t' := by
  rw [h.rest]
  exact ⟨rfl, rfl⟩

theorem ScrolledUp.unmoded {origin : Int} {lines : Nat} (h : ScrolledUp origin lines t t') : Unmoded t t' := by
  rw [h.rest]
  exact ⟨rfl, rfl⟩

theorem ScrolledDown.unmoded {origin : Int} (h : ScrolledDown origin t t') : Unmoded t t' := by
  rw [h.rest]
  exact ⟨rfl, rfl⟩

theorem Redrawn.unmoded (h : Redrawn t t') : Unmoded t t' := by
  obtain ⟨S, h, -⟩ := h
  exact h.toEdited.unmoded

theorem Wrapped.unmoded (h : Wrapped t t') : Unmoded t t' := by
  cases h with
  | off _ h => exact h ▸ .refl t
  | scrolled _ _ ha hb h => exact ha.toEdited.unmoded.trans (hb.unmoded.trans h.unmoded)
  | moved _ _ h => exact h.unmoded
  | stuck _ _ _ h => exact h.unmoded

theorem Linefed.unmoded (h : Linefed t t') : Unmoded t t' := by
  cases h with
  | scrolled _ h => exact h.unmoded
  | moved _ h _ => exact h.toEdited.unmoded
  | stuck _ _ h => exact h ▸ .refl t

theorem Printed.unmoded {width : Nat} (h : Printed width t t') : Unmoded t t' := by
  cases h with
  | swept _ h => exact h.edited.unmoded
  | dropped _ _ h =>
      rw [h]
      exact ⟨rfl, rfl⟩
  | wrapped _ _ ha _ _ _ _ _ _ hb h => exact ha.unmoded.trans (hb.unmoded.trans h.edited.unmoded)

theorem Inputted.unmoded {env : Env} {c : Char} (h : Inputted env c t t') : Unmoded t t' := by
  cases h with
  | ignored _ h => exact h ▸ .refl t
  | joined _ _ h _ => exact h.toEdited.unmoded
  | @printed width a b _ _ ha hb h =>
      have hwrapped : Unmoded t a := ha.elim (fun h => h.2 ▸ .refl t) fun h => h.2.unmoded
      have hinserted : Unmoded a b := hb.elim (fun h => h ▸ .refl a) fun h => h.2.toEdited.unmoded
      exact hwrapped.trans (hinserted.trans h.unmoded)

theorem Regioned.unmoded {top : Nat} {bottom : Option Nat} (h : Regioned top bottom t t') : Unmoded t t' := by
  cases h with
  | invalid _ h => exact h ▸ .refl t
  | home regionStart regionEnd _ _ _ _ h _ => exact ⟨h.toEdited.unmoded.states, h.toEdited.unmoded.blinks⟩

theorem Cleared.unmoded (h : Cleared t t') : Unmoded t t' := by
  cases h with
  | redone h => exact h.toEdited.unmoded
  | viewport h _ =>
      rw [h.rest]
      exact ⟨rfl, rfl⟩
  | history h _ =>
      rw [h.rest]
      exact ⟨rfl, rfl⟩

/-- What a call of the parser did to the modes. -/
structure FollowsModes (t : Term) (op : HandlerOp) (t' : Term) : Prop where
  states : t'.modeStates = t.modeStates.step t.blinks op
  blinks : t'.blinks = t.blinks

theorem Unmoded.follows (h : Unmoded t t') {op : HandlerOp}
    (hop : t.modeStates.step t.blinks op = t.modeStates) : FollowsModes t op t' :=
  ⟨h.states.trans hop.symm, h.blinks⟩

end Term

namespace HandlerOp
variable {t : Term} {env : Env}

end HandlerOp

namespace Term
variable {t t' : Term} {env : Env}

end Term
end Velacritty
