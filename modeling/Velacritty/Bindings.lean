import Velacritty.KeySequences
import Mathlib.Data.Finset.Basic
import Mathlib.Data.Finset.Disjoint
import Mathlib.Data.Fintype.Basic
import Mathlib.Data.List.ReduceOption

/-! Key and mouse bindings: how a config's are loaded over the defaults, and what they do. -/
namespace Velacritty

/-- Modes available for key bindings, one constructor for each bit. -/
inductive BindingFlag where
  | appCursor
  | appKeypad
  | altScreen
  | vi
  | search
  | disambiguateEscCodes
  | reportAllKeysAsEsc
  deriving DecidableEq, Repr

instance : Fintype BindingFlag where
  elems := {.appCursor, .appKeypad, .altScreen, .vi, .search, .disambiguateEscCodes, .reportAllKeysAsEsc}
  complete flag := by cases flag <;> decide

abbrev BindingMode := Finset BindingFlag

def BindingFlag.active (mode : TermMode) (search : Bool) : BindingFlag → Bool
  | .appCursor => mode.appCursor
  | .appKeypad => mode.appKeypad
  | .altScreen => mode.altScreen
  | .vi => mode.vi
  | .search => search
  | .disambiguateEscCodes => mode.keyboard.disambiguateEscCodes
  | .reportAllKeysAsEsc => mode.keyboard.reportAllKeysAsEsc

def BindingMode.new (mode : TermMode) (search : Bool) : BindingMode :=
  Finset.univ.filter fun flag => flag.active mode search

structure Binding (T A : Type) where
  /-- Modifier keys required to activate binding. -/
  mods : ModifiersState
  action : A
  /-- Binding mode required to activate binding. -/
  mode : BindingMode
  /-- Excluded binding modes where the binding won't be activated. -/
  notmode : BindingMode
  /-- A key or a mouse button. -/
  trigger : T

namespace Binding
variable {T A : Type} [BEq T]

def isTriggeredBy (b : Binding T A) (mode : BindingMode) (mods : ModifiersState) (input : T) : Bool :=
  b.trigger == input && b.mods == mods && decide (b.mode ⊆ mode) && decide (Disjoint mode b.notmode)

def triggersMatch (b binding : Binding T A) : Bool :=
  if b.trigger != binding.trigger || b.mods != binding.mods then false
  else
    let selfmode := if b.mode = ∅ then Finset.univ else b.mode
    let bindingmode := if binding.mode = ∅ then Finset.univ else binding.mode
    if Disjoint selfmode bindingmode then false
    else if ¬ Disjoint b.mode binding.notmode ∨ ¬ Disjoint binding.mode b.notmode then false
    else true

end Binding

/-- The bindings of a config, with the defaults that they leave. Values that are no bindings are
skipped. -/
def deserializeBindings {T A V : Type} [BEq T] (deserialize : V → Option (Binding T A)) (values : List V)
    (default : List (Binding T A)) : List (Binding T A) :=
  let bindings := values.filterMap deserialize
  let default := bindings.foldl (fun default binding => default.filter fun b => !b.triggersMatch binding)
    default
  bindings ++ default

/-! ### Keys -/

inductive BindingLocation where
  | standard
  | numpad
  | any
  deriving DecidableEq, Repr

/-- Anywhere is the same place as any other. -/
instance : BEq BindingLocation where
  beq
    | _, .any => true
    | .any, _ => true
    | .standard, .standard => true
    | .numpad, .numpad => true
    | _, _ => false

def BindingLocation.ofKey : KeyLocation → BindingLocation
  | .standard => .standard
  | .left => .any
  | .right => .any
  | .numpad => .numpad

/-- A trigger by the number of the key on the keyboard, or by its meaning. -/
inductive BindingKey where
  | scancode (physicalKey : Nat)
  | keycode (key : Key) (location : BindingLocation)
  deriving DecidableEq, Repr

instance : BEq BindingKey where
  beq
    | .scancode key, .scancode key' => key == key'
    | .keycode key location, .keycode key' location' => key == key' && location == location'
    | _, _ => false

abbrev KeyBinding (A : Type) := Binding BindingKey A

inductive TargetOs where
  | macos
  | windows
  | other
  deriving DecidableEq, Repr

/-- The key that bindings are compared with: the character in lower case, without `Alt` where it is
composed with it. -/
def bindingKey (os : TargetOs) (toLowercase : List Char → List Char) (mods : ModifiersState)
    (key : KeyEvent) : Key :=
  match key.logicalKey with
  | .character ch =>
      if (os == .macos || os == .windows && mods.control) && mods.alt then key.keyWithoutModifiers
      else .character (toLowercase ch)
  | logicalKey => logicalKey

/-- A key that was pressed: its number, its meaning for bindings and its place. -/
structure KeyPress where
  physicalKey : Nat
  logicalKey : Key
  location : KeyLocation

def KeyPress.ofEvent (os : TargetOs) (toLowercase : List Char → List Char) (mods : ModifiersState)
    (physicalKey : Nat) (key : KeyEvent) : KeyPress where
  physicalKey
  logicalKey := bindingKey os toLowercase mods key
  location := key.location

/-- What a binding's trigger is compared with. -/
def BindingKey.input (trigger : BindingKey) (press : KeyPress) : BindingKey :=
  match trigger with
  | .scancode _ => .scancode press.physicalKey
  | .keycode _ _ => .keycode press.logicalKey (.ofKey press.location)

def Binding.isTriggeredByKey {A : Type} (b : KeyBinding A) (mode : BindingMode) (mods : ModifiersState)
    (press : KeyPress) : Bool :=
  b.isTriggeredBy mode mods (b.trigger.input press)

section
variable {T A : Type} [DecidableEq A]

def runBindings (receiveChar : A) (triggered : Binding T A → Bool) :
    List (Binding T A) → Option Bool → List A × Option Bool
  | [], suppressChars => ([], suppressChars)
  | b :: bindings, suppressChars =>
      if triggered b then
        let (actions, suppressChars) := runBindings receiveChar triggered bindings
          (some (suppressChars.getD true && b.action != receiveChar))
        (b.action :: actions, suppressChars)
      else runBindings receiveChar triggered bindings suppressChars

/-- The actions of a key press, in order, and whether its character is suppressed. -/
def processKeyBindings (os : TargetOs) (toLowercase : List Char → List Char) (receiveChar : A)
    (bindings : List (KeyBinding A)) (hints : List (Option (KeyBinding A))) (mode : TermMode)
    (search : Bool) (mods : ModifiersState) (physicalKey : Nat) (key : KeyEvent) : List A × Bool :=
  let press := .ofEvent os toLowercase mods physicalKey key
  let triggered := fun b : KeyBinding A => b.isTriggeredByKey (.new mode search) mods press
  let (actions, suppressChars) := runBindings receiveChar triggered bindings none
  let (hintActions, suppressChars) := runBindings receiveChar triggered hints.reduceOption suppressChars
  (actions ++ hintActions, suppressChars.getD false)

end

/-- The actions of a mouse press, in order. -/
def processMouseBindings {T A : Type} [BEq T] (bindings : List (Binding T A)) (mode : TermMode)
    (search mouseMode : Bool) (mods : ModifiersState) (button : T) : List A :=
  let fallbackAllowed := mouseMode && mods.shift
  let exact := bindings.filter fun b =>
    b.isTriggeredBy (.new mode search) mods button && (fallbackAllowed || !mouseMode)
  let fallback :=
    if fallbackAllowed && exact.isEmpty then
      bindings.filter fun b => b.isTriggeredBy (.new mode search) { mods with shift := false } button
    else []
  (exact ++ fallback).map Binding.action

/-! ### Bindings that are triggered together -/

namespace Binding
variable {T A : Type} [BEq T] {b u : Binding T A} {mode : BindingMode} {mods : ModifiersState} {input : T}

theorem isTriggeredBy_iff : b.isTriggeredBy mode mods input ↔
    (b.trigger == input) ∧ b.mods = mods ∧ b.mode ⊆ mode ∧ Disjoint mode b.notmode := by
  simp [isTriggeredBy, and_assoc]

theorem all_disjoint {m : BindingMode} : Disjoint Finset.univ m ↔ m = ∅ := by
  rw [Finset.disjoint_iff_inter_eq_empty, Finset.univ_inter]

theorem disjoint_all {m : BindingMode} : Disjoint m Finset.univ ↔ m = ∅ := by
  rw [disjoint_comm, all_disjoint]

theorem triggersMatch_iff : b.triggersMatch u ↔ (b.trigger == u.trigger) ∧ b.mods = u.mods ∧
    (b.mode.Nonempty → u.mode.Nonempty → ¬ Disjoint b.mode u.mode) ∧
    Disjoint b.mode u.notmode ∧ Disjoint u.mode b.notmode := by
  have hall : (Finset.univ : BindingMode) ≠ ∅ := Finset.ne_empty_of_mem (Finset.mem_univ .vi)
  unfold triggersMatch
  rcases Finset.eq_empty_or_nonempty b.mode with hb | hb <;>
    rcases Finset.eq_empty_or_nonempty u.mode with hu | hu
  · simp [bne, hb, hu, hall]
  · simp [bne, hb, hu, hu.ne_empty, all_disjoint, and_assoc]
  · simp [bne, hb, hu, hb.ne_empty, disjoint_all, and_assoc]
  · simp [bne, hb, hu, hb.ne_empty, hu.ne_empty, and_assoc]

/-- Of two bindings with one trigger that do not match, both are triggered only where each of them
requires modes and they have none of these in common. -/
theorem modes_of_triggered (hb : b.mode ⊆ mode ∧ Disjoint mode b.notmode)
    (hu : u.mode ⊆ mode ∧ Disjoint mode u.notmode) (htrigger : (b.trigger == u.trigger))
    (hmods : b.mods = u.mods) (h : ¬ b.triggersMatch u) :
    b.mode.Nonempty ∧ u.mode.Nonempty ∧ Disjoint b.mode u.mode := by
  have hbu := hu.2.mono_left hb.1
  have hub := hb.2.mono_left hu.1
  rw [triggersMatch_iff] at h
  by_contra hne
  exact h ⟨htrigger, hmods, fun hb hu hdisjoint => hne ⟨hb, hu, hdisjoint⟩, hbu, hub⟩

theorem exists_mode_of_match (hb : Disjoint b.mode b.notmode) (hu : Disjoint u.mode u.notmode)
    (h : b.triggersMatch u) : ∃ mode : BindingMode, (b.mode ⊆ mode ∧ Disjoint mode b.notmode) ∧
      u.mode ⊆ mode ∧ Disjoint mode u.notmode := by
  obtain ⟨-, -, -, hbu, hub⟩ := triggersMatch_iff.mp h
  exact ⟨b.mode ∪ u.mode, ⟨Finset.subset_union_left, Finset.disjoint_union_left.mpr ⟨hb, hub⟩⟩,
    Finset.subset_union_right, Finset.disjoint_union_left.mpr ⟨hbu, hu⟩⟩

end Binding

section
variable {T A V : Type} [BEq T]

def keptDefaults (user default : List (Binding T A)) : List (Binding T A) :=
  default.filter fun b => user.all fun u => !b.triggersMatch u

theorem foldl_retain (user default : List (Binding T A)) :
    user.foldl (fun default u => default.filter fun b => !b.triggersMatch u) default =
      keptDefaults user default := by
  induction user generalizing default with
  | nil => exact (List.filter_eq_self.mpr fun _ _ => rfl).symm
  | cons u user ih =>
      rw [List.foldl_cons, ih, keptDefaults, keptDefaults, List.filter_filter]
      simp only [List.all_cons, Bool.and_comm]

theorem deserializeBindings_eq (deserialize : V → Option (Binding T A)) (values : List V)
    (default : List (Binding T A)) : deserializeBindings deserialize values default =
      values.filterMap deserialize ++ keptDefaults (values.filterMap deserialize) default := by
  rw [deserializeBindings, foldl_retain]

theorem not_match_of_kept {user default : List (Binding T A)} {b u : Binding T A}
    (hb : b ∈ keptDefaults user default) (hu : u ∈ user) : ¬ b.triggersMatch u := by
  have := List.all_eq_true.mp (List.mem_filter.mp hb).2 u hu
  simpa using this

theorem match_of_not_kept {user default : List (Binding T A)} {b : Binding T A} (hb : b ∈ default)
    (hkept : b ∉ keptDefaults user default) : ∃ u ∈ user, b.triggersMatch u := by
  by_contra hnone
  refine hkept (List.mem_filter.mpr ⟨hb, List.all_eq_true.mpr fun u hu => ?_⟩)
  by_contra hmatch
  exact hnone ⟨u, hu, by simpa using hmatch⟩

/-! ### Key presses -/

end

namespace BindingKey
variable {a b : BindingKey} {press : KeyPress}

def isScancode : BindingKey → Bool
  | scancode _ => true
  | keycode _ _ => false

/-- Triggers that one press has are equal, but for a number beside a meaning, and for the two places
of a key that the press does not tell apart. -/
theorem beq_of_input (ha : (a == a.input press)) (hb : (b == b.input press))
    (hkinds : a.isScancode = b.isScancode) :
    (a == b) ∨ press.location = .left ∨ press.location = .right := by
  cases a with
  | scancode key =>
      cases b with
      | scancode key' =>
          obtain rfl : key = press.physicalKey := eq_of_beq ha
          obtain rfl : key' = press.physicalKey := eq_of_beq hb
          exact .inl (beq_self_eq_true press.physicalKey)
      | keycode key' location' => exact absurd hkinds Bool.noConfusion
  | keycode key location =>
      cases b with
      | scancode key' => exact absurd hkinds Bool.noConfusion
      | keycode key' location' =>
          obtain ⟨hkey, hlocation⟩ := Bool.and_eq_true_iff.mp ha
          obtain ⟨hkey', hlocation'⟩ := Bool.and_eq_true_iff.mp hb
          obtain rfl : key = press.logicalKey := eq_of_beq hkey
          obtain rfl : key' = press.logicalKey := eq_of_beq hkey'
          have hplaces : (location == location') ∨ press.location = .left ∨ press.location = .right := by
            revert hlocation hlocation'
            cases location <;> cases location' <;> cases press.location <;> decide
          exact hplaces.imp_left fun h => Bool.and_eq_true_iff.mpr ⟨beq_self_eq_true _, h⟩

/-- If two triggers are equal and a press has one of them, then at some place it has both. -/
theorem input_of_beq (hab : (a == b)) (ha : (a == a.input press)) :
    ∃ location, (a == a.input { press with location }) ∧ (b == b.input { press with location }) := by
  cases a with
  | scancode key =>
      cases b with
      | scancode key' =>
          obtain rfl : key = key' := eq_of_beq hab
          exact ⟨press.location, ha, ha⟩
      | keycode key' location' => exact absurd hab Bool.noConfusion
  | keycode key location =>
      cases b with
      | scancode key' => exact absurd hab Bool.noConfusion
      | keycode key' location' =>
          obtain ⟨hkey, -⟩ := Bool.and_eq_true_iff.mp ha
          obtain ⟨hkey', hplaces⟩ := Bool.and_eq_true_iff.mp hab
          obtain rfl : key = key' := eq_of_beq hkey'
          have hplace : ∃ place : KeyLocation, (location == .ofKey place) ∧ (location' == .ofKey place) := by
            revert hplaces
            cases location <;> cases location' <;>
              first
              | exact fun _ => ⟨.standard, rfl, rfl⟩
              | exact fun _ => ⟨.numpad, rfl, rfl⟩
              | exact fun h => absurd h Bool.noConfusion
          obtain ⟨place, hlocation, hlocation'⟩ := hplace
          exact ⟨place, Bool.and_eq_true_iff.mpr ⟨hkey, hlocation⟩,
            Bool.and_eq_true_iff.mpr ⟨hkey, hlocation'⟩⟩

end BindingKey

section
variable {T A V : Type} [DecidableEq A]

/-- All bindings that are triggered run, in order; the character is suppressed as long as none of
them is `ReceiveChar`. -/
theorem runBindings_eq (receiveChar : A) (triggered : Binding T A → Bool) (bindings : List (Binding T A))
    (suppressChars : Option Bool) :
    let actions := (bindings.filter triggered).map Binding.action
    runBindings receiveChar triggered bindings suppressChars =
      (actions, if actions = [] then suppressChars
        else some (suppressChars.getD true && decide (receiveChar ∉ actions))) := by
  induction bindings generalizing suppressChars with
  | nil => rfl
  | cons b bindings ih =>
      rw [runBindings]
      by_cases hb : triggered b
      · rw [if_pos hb, ih]
        have hne : (b.action != receiveChar) = decide (receiveChar ≠ b.action) := by
          rw [bne, beq_eq_decide, decide_not, decide_eq_decide.mpr eq_comm]
        simp only [List.filter_cons_of_pos hb, List.map_cons, List.mem_cons, not_or, Bool.decide_and, hne,
          ← Bool.and_assoc]
        split
        · rename_i hnil
          simp [hnil]
        · simp
      · rw [if_neg hb, ih, List.filter_cons_of_neg hb]

/-- The actions of bindings that are triggered; the character is suppressed unless there are none, or
one of them is `ReceiveChar`. -/
def outcome (receiveChar : A) (run : List (Binding T A)) : List A × Bool :=
  (run.map Binding.action, decide (run ≠ [] ∧ receiveChar ∉ run.map Binding.action))

theorem processKeyBindings_eq (os : TargetOs) (toLowercase : List Char → List Char) (receiveChar : A)
    (bindings : List (KeyBinding A)) (hints : List (Option (KeyBinding A))) (mode : TermMode)
    (search : Bool) (mods : ModifiersState) (physicalKey : Nat) (key : KeyEvent) :
    processKeyBindings os toLowercase receiveChar bindings hints mode search mods physicalKey key =
      outcome receiveChar ((bindings ++ hints.reduceOption).filter fun b =>
        b.isTriggeredByKey (.new mode search) mods (.ofEvent os toLowercase mods physicalKey key)) := by
  simp only [processKeyBindings, runBindings_eq, outcome, List.filter_append, List.map_append,
    List.mem_append, List.append_eq_nil_iff, List.map_eq_nil_iff, ne_eq]
  congr 1
  generalize List.filter _ bindings = run
  generalize List.filter _ hints.reduceOption = hintRun
  cases run <;> cases hintRun <;> simp

/-- Why a default is left beside a binding of the config that the same press triggers. -/
inductive Beside (press : KeyPress) (b u : KeyBinding A) : Prop
  /-- They require different modes. -/
  | modes (hb : b.mode.Nonempty) (hu : u.mode.Nonempty) (h : Disjoint b.mode u.mode)
  /-- One of them is by the number of the key. -/
  | kinds (h : b.trigger.isScancode ≠ u.trigger.isScancode)
  /-- They are at different places, which the press is at neither of. -/
  | places (h : ¬ (b.trigger == u.trigger)) (side : press.location = .left ∨ press.location = .right)

/-- What the two bindings are in conflict about: a mode and a place of the key where both are
triggered. -/
def Conflict (mods : ModifiersState) (press : KeyPress) (b u : KeyBinding A) : Prop :=
  ∃ mode location, b.isTriggeredByKey mode mods { press with location } ∧
    u.isTriggeredByKey mode mods { press with location }

/-- A key press runs the bindings of the config, then the defaults that they leave, then those of
hints, each of these in order. A default that was removed matches a binding of the config, and is in
conflict with it if that can be triggered at all. -/
theorem processKeyBindings_loaded (os : TargetOs) (toLowercase : List Char → List Char) (receiveChar : A)
    (deserialize : V → Option (KeyBinding A)) (values : List V) (default : List (KeyBinding A))
    (hints : List (Option (KeyBinding A))) (mode : TermMode) (search : Bool) (mods : ModifiersState)
    (physicalKey : Nat) (key : KeyEvent) :
    let user := values.filterMap deserialize
    let press : KeyPress := .ofEvent os toLowercase mods physicalKey key
    let triggered := fun b : KeyBinding A => b.isTriggeredByKey (.new mode search) mods press
    ∃ kept : List (KeyBinding A), kept.Sublist default ∧
      processKeyBindings os toLowercase receiveChar (deserializeBindings deserialize values default) hints
        mode search mods physicalKey key =
          outcome receiveChar ((user ++ kept ++ hints.reduceOption).filter triggered) ∧
      (∀ b ∈ kept, triggered b → ∀ u ∈ user, triggered u → Beside press b u) ∧
      ∀ b ∈ default, triggered b → b ∉ kept → ∃ u ∈ user, b.triggersMatch u ∧
        (Disjoint u.mode u.notmode → Conflict mods press b u) := by
  intro user press triggered
  refine ⟨keptDefaults user default, List.filter_sublist, ?_, ?_, ?_⟩
  · rw [deserializeBindings_eq, processKeyBindings_eq]
  · intro b hb hbt u hu hut
    obtain ⟨hbinput, hbmods, hbmode⟩ := Binding.isTriggeredBy_iff.mp hbt
    obtain ⟨huinput, humods, humode⟩ := Binding.isTriggeredBy_iff.mp hut
    by_cases hkinds : b.trigger.isScancode = u.trigger.isScancode
    · by_cases htrigger : b.trigger == u.trigger
      · obtain ⟨hb', hu', hdisjoint⟩ := Binding.modes_of_triggered hbmode humode htrigger
          (hbmods.trans humods.symm) (not_match_of_kept hb hu)
        exact .modes hb' hu' hdisjoint
      · exact .places htrigger ((BindingKey.beq_of_input hbinput huinput hkinds).resolve_left htrigger)
    · exact .kinds hkinds
  · intro b hb hbt hkept
    obtain ⟨u, hu, hmatch⟩ := match_of_not_kept hb hkept
    obtain ⟨hbinput, hbmods, hbmode⟩ := Binding.isTriggeredBy_iff.mp hbt
    obtain ⟨htrigger, hmods, -⟩ := Binding.triggersMatch_iff.mp hmatch
    refine ⟨u, hu, hmatch, fun humode => ?_⟩
    obtain ⟨location, hbinput', huinput'⟩ := BindingKey.input_of_beq htrigger hbinput
    obtain ⟨mode', hbmode', humode'⟩ :=
      Binding.exists_mode_of_match (hbmode.2.mono_left hbmode.1) humode hmatch
    exact ⟨mode', location, Binding.isTriggeredBy_iff.mpr ⟨hbinput', hbmods, hbmode'⟩,
      Binding.isTriggeredBy_iff.mpr ⟨huinput', hmods.symm.trans hbmods, humode'⟩⟩

/-! ### Mouse presses -/

variable [DecidableEq T]

omit [DecidableEq A] in
theorem processMouseBindings_eq (bindings : List (Binding T A)) (mode : TermMode) (search mouseMode : Bool)
    (mods : ModifiersState) (button : T) (hrun : ¬ (mouseMode ∧ ¬ mods.shift)) :
    ∃ mods', (mods' = mods ∨ mouseMode ∧ mods' = { mods with shift := false } ∧
        ∀ b ∈ bindings, ¬ b.isTriggeredBy (.new mode search) mods button) ∧
      processMouseBindings bindings mode search mouseMode mods button =
        (bindings.filter fun b => b.isTriggeredBy (.new mode search) mods' button).map Binding.action := by
  have hallowed : (mouseMode && mods.shift || !mouseMode) = true := by
    revert hrun
    cases mouseMode <;> cases mods.shift <;> decide
  simp only [processMouseBindings, hallowed, Bool.and_true]
  by_cases hfallback : mouseMode && mods.shift
  · cases hexact : bindings.filter fun b => b.isTriggeredBy (.new mode search) mods button with
    | nil =>
        refine ⟨{ mods with shift := false },
          .inr ⟨(Bool.and_eq_true_iff.mp hfallback).1, rfl, List.filter_eq_nil_iff.mp hexact⟩, ?_⟩
        simp [hfallback]
    | cons b run =>
        refine ⟨mods, .inl rfl, ?_⟩
        simp [hexact]
  · refine ⟨mods, .inl rfl, ?_⟩
    simp [hfallback]

omit [DecidableEq A] in
/-- A mouse press runs the bindings of the config, then the defaults that they leave, in order: in
mouse mode none without Shift, and those without Shift if none has it. A default that runs beside a
binding of the config requires other modes, and one that was removed matches a binding of the config,
together with which it is triggered in some mode, if that can be triggered at all. -/
theorem processMouseBindings_loaded (deserialize : V → Option (Binding T A)) (values : List V)
    (default : List (Binding T A)) (mode : TermMode) (search mouseMode : Bool) (mods : ModifiersState)
    (button : T) :
    let user := values.filterMap deserialize
    let run := processMouseBindings (deserializeBindings deserialize values default) mode search mouseMode
      mods button
    ∃ kept : List (Binding T A), kept.Sublist default ∧ (mouseMode ∧ ¬ mods.shift → run = []) ∧
      (¬ (mouseMode ∧ ¬ mods.shift) → ∃ mods',
        let triggered := fun b : Binding T A => b.isTriggeredBy (.new mode search) mods' button
        (mods' = mods ∨ mouseMode ∧ mods' = { mods with shift := false } ∧
          ∀ b ∈ user ++ kept, ¬ b.isTriggeredBy (.new mode search) mods button) ∧
        run = ((user ++ kept).filter triggered).map Binding.action ∧
        (∀ b ∈ kept, triggered b → ∀ u ∈ user, triggered u →
          b.mode.Nonempty ∧ u.mode.Nonempty ∧ Disjoint b.mode u.mode) ∧
        ∀ b ∈ default, triggered b → b ∉ kept → ∃ u ∈ user, b.triggersMatch u ∧
          (Disjoint u.mode u.notmode →
            ∃ mode', b.isTriggeredBy mode' mods' button ∧ u.isTriggeredBy mode' mods' button)) := by
  intro user run
  have hload := deserializeBindings_eq deserialize values default
  refine ⟨keptDefaults user default, List.filter_sublist, fun hmouse => ?_, fun hrun => ?_⟩
  · simp [run, processMouseBindings, hmouse.1, hmouse.2]
  · obtain ⟨mods', hmods', heq⟩ := processMouseBindings_eq (user ++ keptDefaults user default) mode search
      mouseMode mods button hrun
    refine ⟨mods', hmods', by rw [← heq, ← hload], ?_, ?_⟩
    · intro b hb hbt u hu hut
      obtain ⟨hbinput, hbmods, hbmode⟩ := Binding.isTriggeredBy_iff.mp hbt
      obtain ⟨huinput, humods, humode⟩ := Binding.isTriggeredBy_iff.mp hut
      have htrigger : b.trigger == u.trigger := by
        rw [eq_of_beq hbinput, eq_of_beq huinput]
        exact beq_self_eq_true button
      exact Binding.modes_of_triggered hbmode humode htrigger (hbmods.trans humods.symm)
        (not_match_of_kept hb hu)
    · intro b hb hbt hkept
      obtain ⟨u, hu, hmatch⟩ := match_of_not_kept hb hkept
      obtain ⟨hbinput, hbmods, hbmode⟩ := Binding.isTriggeredBy_iff.mp hbt
      obtain ⟨htrigger, hmods, -⟩ := Binding.triggersMatch_iff.mp hmatch
      refine ⟨u, hu, hmatch, fun humode => ?_⟩
      obtain ⟨mode', hbmode', humode'⟩ :=
        Binding.exists_mode_of_match (hbmode.2.mono_left hbmode.1) humode hmatch
      refine ⟨mode', Binding.isTriggeredBy_iff.mpr ⟨hbinput, hbmods, hbmode'⟩,
        Binding.isTriggeredBy_iff.mpr ⟨?_, hmods.symm.trans hbmods, humode'⟩⟩
      rwa [← eq_of_beq htrigger]

end
end Velacritty
