import Mathlib.Algebra.Group.Nat.Defs
import Velacritty.Timers

/-! When a window is redrawn: its flags, the events it was sent, the redraws that were
requested, and the timer for its next frame. Times are in nanoseconds. -/
namespace Velacritty
open Fallible

/-- The frame timer state: the base timestamp of the sync points, the last timestamp synced to,
and the refresh interval they are computed for. -/
structure FrameTimer where
  base : Nat
  lastSyncedTimestamp : Nat
  refreshInterval : Nat
  deriving DecidableEq, Repr

def FrameTimer.new (now : Nat) : FrameTimer := ⟨now, now, 0⟩

/-- Compute the delay that we should use to achieve the target frame rate. -/
def FrameTimer.computeTimeout (t : FrameTimer) (now refreshInterval : Nat) : Option (Nat × FrameTimer) :=
  if t.refreshInterval ≠ refreshInterval then some (refreshInterval, ⟨now, now, refreshInterval⟩)
  else
    let nextFrame := t.lastSyncedTimestamp + t.refreshInterval
    if nextFrame < now then
      let elapsedMicros := (now - t.base) / 1000 % 2 ^ 64
      let refreshMicros := t.refreshInterval / 1000 % 2 ^ 64
      -- The remainder by zero panics.
      if refreshMicros = 0 then none
      else some (0, { t with lastSyncedTimestamp := now - elapsedMicros % refreshMicros * 1000 })
    else some (nextFrame - now, { t with lastSyncedTimestamp := nextFrame })

/-- What handling a queued event does to the flags of its window. -/
structure QueuedEvent where
  marksDirty : Bool
  occludes : Option Bool
  updatesDisplay : Bool
  touchesHints : Bool
  deriving DecidableEq, Repr

/-- The parts of a window and its context that decide when it is redrawn. -/
structure Window where
  eventQueue : List QueuedEvent
  dirty : Bool
  occluded : Bool
  hasFrame : Bool
  requestedRedraw : Bool
  pendingUpdate : Bool
  hintHighlightDirty : Bool
  frameTimer : FrameTimer
  deriving DecidableEq, Repr

def Window.new (now : Nat) : Window := ⟨[], false, false, true, false, false, false, .new now⟩

def Window.process (w : Window) (e : QueuedEvent) : Window := { w with
  dirty := w.dirty || e.marksDirty
  occluded := e.occludes.getD w.occluded
  pendingUpdate := w.pendingUpdate || e.updatesDisplay
  hintHighlightDirty := w.hintHighlightDirty || e.touchesHints }

/-- The queued events, the update of the display, and the hints. `hintsChanged` is what
`update_highlighted_hints` answers. -/
def Window.processQueue (w : Window) (hintsChanged : Bool) : Window :=
  let w := { w.eventQueue.foldl Window.process w with eventQueue := [] }
  let w := if w.pendingUpdate then { w with pendingUpdate := false, dirty := true } else w
  if w.dirty || w.hintHighlightDirty then
    { w with dirty := w.dirty || hintsChanged, hintHighlightDirty := false }
  else w

/-- The window, the scheduler that it shares with others, the events on their way to the
program, oldest first, and whether the windowing system owes the window a redraw. -/
structure Screen (W : Type) where
  window : Window
  scheduler : Scheduler W (Scheduler.Event W)
  inFlight : List (Scheduler.Event W)
  redrawPending : Bool
  deriving DecidableEq, Repr

namespace Screen
variable {W : Type}

def new (now : Nat) : Screen W := ⟨.new now, .new, [], false⟩

def requestRedraw (s : Screen W) : Screen W :=
  if s.window.requestedRedraw then s
  else { s with window := { s.window with requestedRedraw := true }, redrawPending := true }

def push (s : Screen W) (e : QueuedEvent) : Screen W :=
  { s with window := { s.window with eventQueue := s.window.eventQueue ++ [e] } }

/-- Process the queued events, for a redraw or before the program waits. -/
def handleEvent (s : Screen W) (redraw hintsChanged : Bool) : Screen W :=
  if s.window.eventQueue = [] then s
  else
    let s := { s with window := s.window.processQueue hintsChanged }
    if s.window.dirty && s.window.hasFrame && !s.window.occluded && !redraw then s.requestRedraw else s

def requestFrame (s : Screen W) (id : W) (now vblankInterval : Nat) : Option (Screen W) :=
  (s.window.frameTimer.computeTimeout now vblankInterval).map fun (swapTimeout, frameTimer) =>
    { s with
      window := { s.window with hasFrame := false, frameTimer }
      scheduler := s.scheduler.requestFrame now id swapTimeout }

/-- What drawing depends on: whether the bell has completed, the time, the interval of the
monitor, and whether frames are those of Wayland. -/
structure DrawInput where
  bellCompleted : Bool
  now : Nat
  vblankInterval : Nat
  wayland : Bool
  deriving DecidableEq, Repr

/-- Request immediate re-draw if visual bell animation is not finished yet. -/
def ringBell (s : Screen W) (completed : Bool) : Screen W :=
  if completed then s
  else if s.window.hasFrame then s.requestRedraw
  else { s with window := { s.window with dirty := true } }

def draw (s : Screen W) (id : W) (i : DrawInput) : Option (Screen W) :=
  let s := { s with window := { s.window with requestedRedraw := false } }
  if s.window.occluded then some s
  else
    let s := { s with window := { s.window with dirty := false } }.ringBell i.bellCompleted
    if i.wayland then some s else s.requestFrame id i.now i.vblankInterval

def wakeup (s : Screen W) : Screen W :=
  let s := { s with window := { s.window with dirty := true } }
  if s.window.hasFrame then s.requestRedraw else s

/-- The next frame has come. -/
def frame (s : Screen W) : Screen W :=
  let s := { s with window := { s.window with hasFrame := true } }
  if s.window.dirty then s.requestRedraw else s

inductive Op (W : Type) where
  | windowEvent (e : QueuedEvent)
  | wakeup
  /-- The oldest event in flight arrives; `e` is what handling it does, if it is queued. -/
  | userEvent (e : QueuedEvent)
  | clearMessages
  /-- The new config may change the display; its event updates the cursor's blinking. -/
  | updateConfig (updatesDisplay : Bool) (e : QueuedEvent)
  | redrawRequested (hintsChanged : Bool) (i : DrawInput)
  | aboutToWait (hintsChanged : Bool) (clock : Nat → Nat) (fuel : Nat)
  | timers (now : Nat) (w : W) (call : TimerCall)

variable [DecidableEq W]

def step (id : W) (s : Screen W) : Op W → Option (Screen W)
  | .windowEvent e => some (s.push e)
  | .wakeup => some s.wakeup
  | .userEvent e =>
      match s.inFlight with
      | [] => none
      | event :: rest =>
          let s := { s with inFlight := rest }
          if event.windowId = none then some (s.push e)
          else if event.windowId ≠ some id then some s
          else if event.payload = .frame then some s.frame
          else some (s.push e)
  | .clearMessages => some { s with window := { s.window with pendingUpdate := true } }
  | .updateConfig updatesDisplay e =>
      let s := s.push e
      some { s with window := { s.window with
        pendingUpdate := s.window.pendingUpdate || updatesDisplay, dirty := true } }
  | .redrawRequested hintsChanged i =>
      ({ s with redrawPending := false }.handleEvent true hintsChanged).draw id i
  | .aboutToWait hintsChanged clock fuel =>
      let s := s.handleEvent false hintsChanged
      (s.scheduler.update clock fuel).map fun (scheduler, _, sent) =>
        { s with scheduler, inFlight := s.inFlight ++ sent }
  | .timers now w call => some { s with scheduler := s.scheduler.perform now w call }

/-- The clock does not go back during an update, and the window is not closed. -/
def Admits (id : W) (_ : Screen W) : Op W → Prop
  | .aboutToWait _ clock _ => Monotone clock
  | .timers _ w call => w = id → call ≠ .exit
  | _ => True

end Screen
end Velacritty
