import Velacritty.Fallible
import Mathlib.Algebra.Ring.Int.Defs
import Mathlib.Algebra.Ring.Rat
import Mathlib.Data.Finset.Basic
import Mathlib.Data.Nat.Sqrt
import Mathlib.Data.Rat.Defs

/-! Touch input: the gestures of the fingers on the screen. -/
namespace Velacritty
open Fallible

/-- The operations on `f64` that touch input uses. -/
class TouchCoordinate (F : Type) extends Zero F, One F, Sub F where
  abs : F → F
  hypot : F → F → F
  gt : F → F → Bool
  /-- Distance before a touch input is considered a drag. -/
  maxTapDistance : F

/-- The operations on `f32` that touch zoom uses. -/
class FontSize (G : Type) extends Zero G, Add G, Sub G, Mul G, Div G where
  abs : G → G
  floor : G → G
  signum : G → G
  touchZoomFactor : G
  fontSizeStep : G

/-- The conversion of an `f64` to an `f32`. -/
class Narrow (F G : Type) where
  narrow : F → G

inductive TouchPhase where
  | started
  | moved
  | ended
  | cancelled
  deriving DecidableEq, Repr

structure PhysicalPosition (F : Type) where
  x : F
  y : F

structure TouchEvent (F : Type) where
  phase : TouchPhase
  location : PhysicalPosition F
  id : UInt64

structure TouchZoom (F G : Type) where
  slots : TouchEvent F × TouchEvent F
  fractions : G

inductive TouchPurpose (F G : Type) where
  | none
  | select (event : TouchEvent F)
  | scroll (event : TouchEvent F)
  | zoom (zoom : TouchZoom F G)
  | zoomPendingSlot (slot : TouchEvent F)
  | tap (start : TouchEvent F)
  | invalid (slots : Finset UInt64)

inductive ElementState where
  | pressed
  | released
  deriving DecidableEq, Repr

/-- What touch input makes the rest of the program do; the button is the left one. -/
inductive InputEvent (F G : Type) where
  | mouseMoved (position : PhysicalPosition F)
  | mouseInput (state : ElementState)
  | changeFontSize (delta : G)
  | scrollTerminal (deltaX deltaY multiplier : F)

def InputEvent.isMouseInput {F G : Type} (state : ElementState) : InputEvent F G → Bool
  | mouseInput s => s == state
  | _ => false

namespace TouchZoom
variable {F G : Type} [TouchCoordinate F] [FontSize G] [Narrow F G]

def new (slots : TouchEvent F × TouchEvent F) : TouchZoom F G := { slots, fractions := 0 }

def distance (zoom : TouchZoom F G) : G :=
  let deltaX := zoom.slots.1.location.x - zoom.slots.2.location.x
  let deltaY := zoom.slots.1.location.y - zoom.slots.2.location.y
  Narrow.narrow (TouchCoordinate.hypot deltaX deltaY)

/-- Get slot distance change since last update. -/
def fontDelta (zoom : TouchZoom F G) (slot : TouchEvent F) : G × TouchZoom F G :=
  let oldDistance := zoom.distance
  let updated : TouchZoom F G :=
    if slot.id = zoom.slots.1.id then { zoom with slots := (slot, zoom.slots.2) }
    else { zoom with slots := (zoom.slots.1, slot) }
  let delta := (updated.distance - oldDistance) * FontSize.touchZoomFactor + updated.fractions
  let fontDelta := FontSize.floor (FontSize.abs delta / FontSize.fontSizeStep) *
    FontSize.fontSizeStep * FontSize.signum delta
  (fontDelta, { updated with fractions := delta - fontDelta })

end TouchZoom

/-- The touch state of a window, and what it made the rest of the program do. -/
structure TouchProcessor (F G : Type) where
  touchPurpose : TouchPurpose F G
  events : List (InputEvent F G)

namespace TouchProcessor
variable {F G : Type} [TouchCoordinate F] [FontSize G] [Narrow F G]

def mouseMoved (p : TouchProcessor F G) (position : PhysicalPosition F) : TouchProcessor F G :=
  { p with events := p.events ++ [.mouseMoved position] }

def mouseInput (p : TouchProcessor F G) (state : ElementState) : TouchProcessor F G :=
  { p with events := p.events ++ [.mouseInput state] }

def changeFontSize (p : TouchProcessor F G) (delta : G) : TouchProcessor F G :=
  { p with events := p.events ++ [.changeFontSize delta] }

def scrollTerminal (p : TouchProcessor F G) (deltaX deltaY multiplier : F) : TouchProcessor F G :=
  { p with events := p.events ++ [.scrollTerminal deltaX deltaY multiplier] }

/-- Handle beginning of touch input. -/
def onTouchStart (p : TouchProcessor F G) (touch : TouchEvent F) : TouchProcessor F G :=
  { p with touchPurpose :=
      match p.touchPurpose with
      | .none => .tap touch
      | .tap start => .zoom (.new (start, touch))
      | .zoomPendingSlot slot => .zoom (.new (slot, touch))
      | .zoom zoom => .invalid (insert zoom.slots.2.id (insert zoom.slots.1.id ∅))
      | .scroll event => .invalid (insert event.id ∅)
      | .select event => .invalid (insert event.id ∅)
      | .invalid slots => .invalid (insert touch.id slots) }

/-- Touch input movement after the tap has become something else. -/
def onTouchDrag (p : TouchProcessor F G) (touch : TouchEvent F) : TouchProcessor F G :=
  match p.touchPurpose with
  | .zoom zoom =>
      let updated := zoom.fontDelta touch
      changeFontSize { p with touchPurpose := .zoom updated.2 } updated.1
  | .scroll lastTouch =>
      let deltaY := touch.location.y - lastTouch.location.y
      scrollTerminal { p with touchPurpose := .scroll touch } 0 deltaY 1
  | .select _ => p.mouseMoved touch.location
  | _ => p

def onTouchMotion (p : TouchProcessor F G) (touch : TouchEvent F) : TouchProcessor F G :=
  match p.touchPurpose with
  | .tap start =>
      let deltaX := touch.location.x - start.location.x
      let deltaY := touch.location.y - start.location.y
      if TouchCoordinate.gt (TouchCoordinate.abs deltaX) TouchCoordinate.maxTapDistance then
        -- The recursive call of the source meets a selection or a scroll, never a tap.
        onTouchDrag ((mouseMoved { p with touchPurpose := .select start } start.location).mouseInput
          .pressed) touch
      else if TouchCoordinate.gt (TouchCoordinate.abs deltaY) TouchCoordinate.maxTapDistance then
        onTouchDrag { p with touchPurpose := .scroll start } touch
      else p
  | _ => p.onTouchDrag touch

def onTouchEnd (p : TouchProcessor F G) (touch : TouchEvent F) : TouchProcessor F G :=
  let p := p.onTouchMotion touch
  match p.touchPurpose with
  | .tap start =>
      ((mouseMoved { p with touchPurpose := .none } start.location).mouseInput .pressed).mouseInput
        .released
  | .zoom zoom =>
      let remaining := if zoom.slots.1.id = touch.id then zoom.slots.2 else zoom.slots.1
      { p with touchPurpose := .zoomPendingSlot remaining }
  | .zoomPendingSlot _ => { p with touchPurpose := .none }
  | .invalid slots =>
      let slots := slots.erase touch.id
      { p with touchPurpose := if slots = ∅ then .none else .invalid slots }
  | .select _ => mouseInput { p with touchPurpose := .none } .released
  | .scroll _ => { p with touchPurpose := .none }
  | .none => p

def touch (p : TouchProcessor F G) (touch : TouchEvent F) : TouchProcessor F G :=
  match touch.phase with
  | .started => p.onTouchStart touch
  | .moved => p.onTouchMotion touch
  | .ended => p.onTouchEnd touch
  | .cancelled => p.onTouchEnd touch

/-- How often the simulated button came into this state. -/
def mouseInputs (p : TouchProcessor F G) (state : ElementState) : Nat :=
  p.events.countP (InputEvent.isMouseInput state)

end TouchProcessor

/-! ### The fingers -/

namespace TouchPurpose
variable {F G : Type}

/-- The fingers a purpose knows of. -/
def slots : TouchPurpose F G → Finset UInt64
  | .none => ∅
  | .select event => {event.id}
  | .scroll event => {event.id}
  | .zoom z => {z.slots.2.id, z.slots.1.id}
  | .zoomPendingSlot slot => {slot.id}
  | .tap start => {start.id}
  | .invalid slots => slots

/-- Two fingers zoom, and an invalid gesture has one. -/
def Proper : TouchPurpose F G → Prop
  | .zoom z => z.slots.1.id ≠ z.slots.2.id
  | .invalid slots => slots ≠ ∅
  | _ => True

/-- How many presses of the simulated button are not released yet. -/
def held : TouchPurpose F G → Nat
  | .select _ => 1
  | _ => 0

/-- A gesture that another finger may join. -/
def Extends : TouchPurpose F G → Prop
  | .select _ => False
  | .scroll _ => False
  | .zoom _ => False
  | _ => True

theorem eq_none_of_slots {purpose : TouchPurpose F G} (h : purpose.Proper) (hs : purpose.slots = ∅) :
    purpose = .none := by
  cases purpose with
  | none => rfl
  | select event => exact (Finset.singleton_ne_empty _ hs).elim
  | scroll event => exact (Finset.singleton_ne_empty _ hs).elim
  | zoom z => exact (Finset.insert_ne_empty _ _ hs).elim
  | zoomPendingSlot slot => exact (Finset.singleton_ne_empty _ hs).elim
  | tap start => exact (Finset.singleton_ne_empty _ hs).elim
  | invalid slots => exact (h hs).elim

end TouchPurpose

namespace TouchProcessor
variable {F G : Type} {p q : TouchProcessor F G} {down : Finset UInt64}

/-- The purpose knows exactly the fingers that are down, and the button is pressed for as
long as they select. -/
structure Tracks (p : TouchProcessor F G) (down : Finset UInt64) : Prop where
  slots : p.touchPurpose.slots = down
  proper : p.touchPurpose.Proper
  button : p.mouseInputs .pressed = p.mouseInputs .released + p.touchPurpose.held

/-- An update that neither presses nor releases the button. -/
structure Moved (p q : TouchProcessor F G) : Prop where
  pressed : q.mouseInputs .pressed = p.mouseInputs .pressed
  released : q.mouseInputs .released = p.mouseInputs .released

theorem mouseMoved_moved (p : TouchProcessor F G) (purpose : TouchPurpose F G)
    (position : PhysicalPosition F) : Moved p (mouseMoved { p with touchPurpose := purpose } position) := by
  constructor <;> exact List.countP_append.trans (Nat.add_zero _)

theorem changeFontSize_moved (p : TouchProcessor F G) (purpose : TouchPurpose F G) (delta : G) :
    Moved p (changeFontSize { p with touchPurpose := purpose } delta) := by
  constructor <;> exact List.countP_append.trans (Nat.add_zero _)

theorem scrollTerminal_moved (p : TouchProcessor F G) (purpose : TouchPurpose F G) (x y m : F) :
    Moved p (scrollTerminal { p with touchPurpose := purpose } x y m) := by
  constructor <;> exact List.countP_append.trans (Nat.add_zero _)

theorem mouseInputs_pressed (p : TouchProcessor F G) :
    (p.mouseInput .pressed).mouseInputs .pressed = p.mouseInputs .pressed + 1 ∧
      (p.mouseInput .pressed).mouseInputs .released = p.mouseInputs .released :=
  ⟨List.countP_append, List.countP_append.trans (Nat.add_zero _)⟩

theorem mouseInputs_released (p : TouchProcessor F G) :
    (p.mouseInput .released).mouseInputs .pressed = p.mouseInputs .pressed ∧
      (p.mouseInput .released).mouseInputs .released = p.mouseInputs .released + 1 :=
  ⟨List.countP_append.trans (Nat.add_zero _), List.countP_append⟩

/-- A gesture goes on, or becomes another one, with the button as it was. -/
theorem Tracks.moved {down' : Finset UInt64} (h : p.Tracks down) (hm : Moved p q)
    (hslots : q.touchPurpose.slots = down') (hproper : q.touchPurpose.Proper)
    (hheld : q.touchPurpose.held = p.touchPurpose.held) : q.Tracks down' := by
  refine ⟨hslots, hproper, ?_⟩
  rw [hm.pressed, hm.released, hheld]
  exact h.button

variable [TouchCoordinate F] [FontSize G] [Narrow F G]

omit [TouchCoordinate F] [FontSize G] [Narrow F G] in
theorem pair_erase_left {a b : UInt64} (h : a ≠ b) : ({b, a} : Finset UInt64).erase a = {b} := by
  rw [Finset.pair_comm, Finset.erase_insert (Finset.notMem_singleton.mpr h)]

theorem fontDelta_slots (zoom : TouchZoom F G) {touch : TouchEvent F}
    (ht : touch.id = zoom.slots.2.id ∨ touch.id = zoom.slots.1.id) :
    (zoom.fontDelta touch).2.slots.1.id = zoom.slots.1.id ∧
      (zoom.fontDelta touch).2.slots.2.id = zoom.slots.2.id := by
  simp only [TouchZoom.fontDelta]
  split
  · next hfirst => exact ⟨hfirst, rfl⟩
  · next hno => exact ⟨rfl, ht.resolve_right hno⟩

theorem onTouchDrag_tracks (h : p.Tracks down) {touch : TouchEvent F} (ht : touch.id ∈ down) :
    (p.onTouchDrag touch).Tracks down := by
  have hslots := h.slots
  have hproper := h.proper
  unfold onTouchDrag
  split
  · next zoom hp =>
      rw [hp] at hslots hproper
      have hmem : touch.id = zoom.slots.2.id ∨ touch.id = zoom.slots.1.id := by
        rw [← hslots] at ht
        simpa only [TouchPurpose.slots, Finset.mem_insert, Finset.mem_singleton] using ht
      obtain ⟨hfirst, hsecond⟩ := fontDelta_slots zoom hmem
      refine h.moved (changeFontSize_moved p _ _) ?_ ?_ ?_
      · exact (congrArg₂ (fun a b => ({a, b} : Finset UInt64)) hsecond hfirst).trans hslots
      · intro heq
        exact hproper (hfirst.symm.trans (heq.trans hsecond))
      · rw [hp]
        rfl
  · next lastTouch hp =>
      rw [hp] at hslots
      refine h.moved (scrollTerminal_moved p _ _ _ _) ?_ trivial ?_
      · rw [← hslots] at ht ⊢
        exact congrArg (fun id => ({id} : Finset UInt64)) (Finset.mem_singleton.mp ht)
      · rw [hp]
        rfl
  · exact h.moved (mouseMoved_moved p p.touchPurpose _) h.slots h.proper rfl
  · exact h

theorem onTouchMotion_tracks (h : p.Tracks down) {touch : TouchEvent F} (ht : touch.id ∈ down) :
    (p.onTouchMotion touch).Tracks down := by
  have hslots := h.slots
  have hbutton := h.button
  unfold onTouchMotion
  split
  · next start hp =>
      rw [hp] at hslots hbutton
      simp only
      split
      · refine onTouchDrag_tracks (.mk (by exact hslots) (by trivial) ?_) ht
        have hmoved := mouseMoved_moved p (.select start) start.location
        obtain ⟨hpressed, hreleased⟩ :=
          mouseInputs_pressed (mouseMoved { p with touchPurpose := .select start } start.location)
        rw [hpressed, hreleased, hmoved.pressed, hmoved.released, hbutton]
        rfl
      · split
        · have hscroll : Moved p { p with touchPurpose := .scroll start } := ⟨rfl, rfl⟩
          refine onTouchDrag_tracks (h.moved hscroll hslots trivial ?_) ht
          rw [hp]
          rfl
        · exact h
  · exact onTouchDrag_tracks h ht

omit [TouchCoordinate F] [Narrow F G] in
theorem onTouchStart_tracks (h : p.Tracks down) {touch : TouchEvent F} (ht : touch.id ∉ down)
    (hext : p.touchPurpose.Extends) : (p.onTouchStart touch).Tracks (insert touch.id down) := by
  obtain ⟨purpose, events⟩ := p
  obtain ⟨rfl, hproper, hbutton⟩ := h
  cases purpose with
  | none => exact ⟨rfl, trivial, hbutton⟩
  | select event => exact hext.elim
  | scroll event => exact hext.elim
  | zoom zoom => exact hext.elim
  | zoomPendingSlot slot => exact ⟨rfl, fun heq => ht (Finset.mem_singleton.mpr heq.symm), hbutton⟩
  | tap start => exact ⟨rfl, fun heq => ht (Finset.mem_singleton.mpr heq.symm), hbutton⟩
  | invalid slots => exact ⟨rfl, Finset.insert_ne_empty _ _, hbutton⟩

omit [TouchCoordinate F] [Narrow F G] in
/-- Otherwise the new finger gets lost. -/
theorem onTouchStart_invalid (h : p.Tracks down) {touch : TouchEvent F}
    (hext : ¬ p.touchPurpose.Extends) : (p.onTouchStart touch).touchPurpose = .invalid down := by
  obtain ⟨purpose, events⟩ := p
  obtain ⟨rfl, -, -⟩ := h
  cases purpose with
  | none => exact (hext trivial).elim
  | select event => rfl
  | scroll event => rfl
  | zoom zoom => rfl
  | zoomPendingSlot slot => exact (hext trivial).elim
  | tap start => exact (hext trivial).elim
  | invalid slots => exact (hext trivial).elim

theorem onTouchEnd_tracks (h : p.Tracks down) {touch : TouchEvent F} (ht : touch.id ∈ down) :
    (p.onTouchEnd touch).Tracks (down.erase touch.id) := by
  have hmoved := onTouchMotion_tracks h ht
  unfold onTouchEnd
  simp only
  generalize p.onTouchMotion touch = q at hmoved
  have hsingle : ∀ event : TouchEvent F, {event.id} = down → (∅ : Finset UInt64) = down.erase touch.id := by
    intro event hdown
    rw [← hdown] at ht ⊢
    rw [Finset.mem_singleton.mp ht]
    exact (Finset.erase_singleton _).symm
  obtain ⟨purpose, events⟩ := q
  obtain ⟨hslots, hproper, hbutton⟩ := hmoved
  cases purpose with
  | none => exact absurd (hslots ▸ ht) (Finset.notMem_empty _)
  | select event =>
      refine ⟨hsingle event hslots, trivial, ?_⟩
      obtain ⟨hpressed, hreleased⟩ := mouseInputs_released (⟨.none, events⟩ : TouchProcessor F G)
      simp only
      rw [hpressed, hreleased]
      exact hbutton
  | scroll event => exact ⟨hsingle event hslots, trivial, hbutton⟩
  | zoom zoom =>
      refine ⟨?_, trivial, hbutton⟩
      rw [← hslots] at ht ⊢
      simp only [TouchPurpose.slots]
      split
      · next hfirst =>
          rw [← hfirst]
          exact (pair_erase_left hproper).symm
      · next hno =>
          rcases Finset.mem_insert.mp ht with heq | heq
          · rw [heq]
            exact (Finset.erase_insert (Finset.notMem_singleton.mpr hproper.symm)).symm
          · exact absurd (Finset.mem_singleton.mp heq).symm hno
  | zoomPendingSlot slot => exact ⟨hsingle slot hslots, trivial, hbutton⟩
  | tap start =>
      refine ⟨hsingle start hslots, trivial, ?_⟩
      have hmouse := mouseMoved_moved (⟨.tap start, events⟩ : TouchProcessor F G) .none start.location
      obtain ⟨hpressed, hreleased⟩ :=
        mouseInputs_pressed (mouseMoved (⟨.none, events⟩ : TouchProcessor F G) start.location)
      obtain ⟨hpressed', hreleased'⟩ := mouseInputs_released
        ((mouseMoved (⟨.none, events⟩ : TouchProcessor F G) start.location).mouseInput .pressed)
      simp only
      rw [hpressed', hreleased', hpressed, hreleased, hmouse.pressed, hmouse.released]
      exact congrArg Nat.succ hbutton
  | invalid slots =>
      have herase : slots.erase touch.id = down.erase touch.id := hslots ▸ rfl
      simp only
      split
      · next hnil => exact ⟨hnil.symm.trans herase, trivial, hbutton⟩
      · next hne => exact ⟨herase, hne, hbutton⟩

end TouchProcessor

/-- The fingers on the screen, and what their gestures did. -/
structure Touchscreen (F G : Type) where
  processor : TouchProcessor F G
  down : Finset UInt64

namespace Touchscreen
variable {F G : Type} {s s' : Touchscreen F G}

def initial : Touchscreen F G := ⟨⟨.none, []⟩, ∅⟩

/-- Fingers start before they move or end, and differ. -/
def Admissible (s : Touchscreen F G) (touch : TouchEvent F) : Prop :=
  if touch.phase = .started then touch.id ∉ s.down else touch.id ∈ s.down

instance (s : Touchscreen F G) (touch : TouchEvent F) : Decidable (s.Admissible touch) :=
  inferInstanceAs
    (Decidable (if touch.phase = .started then touch.id ∉ s.down else touch.id ∈ s.down))

/-- No finger starts while another one selects or scrolls, or two of them zoom. -/
def Orderly (s : Touchscreen F G) (touch : TouchEvent F) : Prop :=
  touch.phase = .started → s.processor.touchPurpose.Extends

/-- Without fingers there is no gesture, and the button is released; an invalid gesture
knows the fingers that are down. -/
structure Settled (s : Touchscreen F G) : Prop where
  none : s.down = ∅ → s.processor.touchPurpose = .none
  button : s.down = ∅ → s.processor.mouseInputs .released = s.processor.mouseInputs .pressed
  invalid : ∀ slots, s.processor.touchPurpose = .invalid slots → slots = s.down

theorem settled_of_tracks (h : s.processor.Tracks s.down) : s.Settled := by
  have hnone : s.down = ∅ → s.processor.touchPurpose = .none :=
    fun hdown => TouchPurpose.eq_none_of_slots h.proper (h.slots.trans hdown)
  refine ⟨hnone, fun hdown => ?_, fun slots hp => ?_⟩
  · have hbutton := h.button
    rw [hnone hdown] at hbutton
    exact hbutton.symm
  · have hslots := h.slots
    rw [hp] at hslots
    exact hslots

variable [TouchCoordinate F] [FontSize G] [Narrow F G]

def step (s : Touchscreen F G) (touch : TouchEvent F) : Option (Touchscreen F G) :=
  some {
    processor := s.processor.touch touch
    down := match touch.phase with
      | .started => insert touch.id s.down
      | .moved => s.down
      | .ended => s.down.erase touch.id
      | .cancelled => s.down.erase touch.id }

theorem step_tracks (h : s.processor.Tracks s.down) {touch : TouchEvent F} (ht : s.Admissible touch)
    (ho : s.Orderly touch) : Returns (s.step touch) fun s' => s'.processor.Tracks s'.down := by
  refine .pure ?_
  unfold Admissible at ht
  simp only [TouchProcessor.touch]
  cases hphase : touch.phase with
  | started =>
      rw [if_pos hphase] at ht
      exact TouchProcessor.onTouchStart_tracks h ht (ho hphase)
  | moved =>
      rw [if_neg (hphase ▸ nofun)] at ht
      exact TouchProcessor.onTouchMotion_tracks h ht
  | ended =>
      rw [if_neg (hphase ▸ nofun)] at ht
      exact TouchProcessor.onTouchEnd_tracks h ht
  | cancelled =>
      rw [if_neg (hphase ▸ nofun)] at ht
      exact TouchProcessor.onTouchEnd_tracks h ht

theorem step_settled_iff (h : s.processor.Tracks s.down) {touch : TouchEvent F} (ht : s.Admissible touch) :
    Returns (s.step touch) fun s' => s'.Settled ↔ s.Orderly touch := by
  by_cases ho : s.Orderly touch
  · refine (step_tracks h ht ho).mono fun s' hs' => ?_
    exact ⟨fun _ => ho, fun _ => settled_of_tracks hs'⟩
  · refine .pure ⟨fun hs => ?_, fun hno => absurd hno ho⟩
    obtain ⟨hphase, hext⟩ := Classical.not_imp.mp ho
    rw [Admissible, if_pos hphase] at ht
    have hstart : s.processor.touch touch = s.processor.onTouchStart touch := by
      rw [TouchProcessor.touch, hphase]
    have hinvalid := hs.invalid s.down (hstart ▸ TouchProcessor.onTouchStart_invalid h hext)
    simp only [hphase] at hinvalid
    exact absurd (hinvalid ▸ Finset.mem_insert_self touch.id s.down) ht

/-- In every run where fingers join taps and pending zooms only, the touch state is settled.
The next step keeps it so if and only if its finger does so, too. -/
theorem run_settled
    (h : Reaches step (fun s touch => Admissible s touch ∧ Orderly s touch) (initial : Touchscreen F G) s) :
    s.Settled ∧ ∀ touch : TouchEvent F, s.Admissible touch →
      Returns (s.step touch) fun s' => s'.Settled ↔ s.Orderly touch := by
  have hinv : s.processor.Tracks s.down := by
    refine h.invariant (P := fun s => s.processor.Tracks s.down) ⟨rfl, trivial, rfl⟩ ?_
    exact fun s touch s' hs hok hstep => (step_tracks hs hok.1 hok.2).of_eq hstep
  exact ⟨settled_of_tracks hinv, fun touch ht => step_settled_iff hinv ht⟩

/-! ### Whole pixels -/

instance : TouchCoordinate Int where
  abs x := x.natAbs
  hypot x y := (x * x + y * y).toNat.sqrt
  gt x y := decide (y < x)
  maxTapDistance := 20

instance : FontSize ℚ where
  abs x := if 0 ≤ x then x else -x
  floor x := x.floor
  signum x := if 0 ≤ x then 1 else -1
  touchZoomFactor := 1 / 100
  fontSizeStep := 1

instance : Narrow Int ℚ where
  narrow x := x

/-- A tap. -/
theorem run_settled_tapped : ∃ s : Touchscreen Int ℚ,
    Reaches step (fun s touch => Admissible s touch ∧ Orderly s touch) initial s ∧ s.down = ∅ ∧
      s.processor.mouseInputs .pressed = 1 ∧ s.Settled := by
  have hrun : Reaches step (fun s touch => Admissible s touch ∧ Orderly s touch)
      (initial : Touchscreen Int ℚ) _ :=
    .step (.step .refl (a := ⟨.started, ⟨0, 0⟩, 1⟩) (And.intro (by decide) fun _ => trivial) rfl)
      (a := ⟨.ended, ⟨0, 0⟩, 1⟩) (And.intro (by decide) nofun) rfl
  exact ⟨_, hrun, by decide, by decide, (run_settled hrun).1⟩

/-- A second finger during a selection is not part of the invalid gesture, and the button
stays pressed after both have left. -/
theorem select_joined : ∃ s s' : Touchscreen Int ℚ,
    Reaches step Admissible initial s ∧ s.processor.touchPurpose = .invalid {1} ∧ s.down = {1, 2} ∧
      Reaches step Admissible initial s' ∧ s'.down = ∅ ∧ s'.processor.mouseInputs .pressed = 1 ∧
      s'.processor.mouseInputs .released = 0 := by
  have hrun : Reaches step Admissible (initial : Touchscreen Int ℚ) _ :=
    .step (.step (.step .refl (a := ⟨.started, ⟨0, 0⟩, 1⟩) (by decide) rfl)
      (a := ⟨.moved, ⟨30, 0⟩, 1⟩) (by decide) rfl)
      (a := ⟨.started, ⟨0, 0⟩, 2⟩) (by decide) rfl
  have hleft : Reaches step Admissible (initial : Touchscreen Int ℚ) _ :=
    .step (.step hrun (a := ⟨.ended, ⟨30, 0⟩, 1⟩) (by decide) rfl)
      (a := ⟨.ended, ⟨0, 0⟩, 2⟩) (by decide) rfl
  exact ⟨_, _, hrun, rfl, by decide, hleft, by decide, by decide, by decide⟩

end Touchscreen
end Velacritty
