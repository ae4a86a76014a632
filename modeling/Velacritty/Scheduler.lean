import Velacritty.Fallible
import Velacritty.SortedQueue

/-! Scheduler for emitting events at a specific time in the future. Every reading of the
clock is explicit. -/
namespace Velacritty
open Fallible

inductive Topic where
  | selectionScrolling
  | delayedSearch
  | blinkCursor
  | blinkTimeout
  | frame
  | resizeDebounce
  deriving DecidableEq, Repr

structure TimerId (W : Type) where
  topic : Topic
  windowId : W
  deriving DecidableEq, Repr

/-- Event scheduled to be emitted at a specific time. -/
structure Timer (W E : Type) where
  deadline : Nat
  event : E
  id : TimerId W
  interval : Option Nat
  deriving DecidableEq, Repr

structure Scheduler (W E : Type) where
  timers : List (Timer W E)
  deriving DecidableEq, Repr

namespace Scheduler
variable {W E : Type} {s s' : Scheduler W E}

def new : Scheduler W E := ⟨[]⟩

/-- Schedule a new event; `now` is the time of the call. -/
def schedule (s : Scheduler W E) (now : Nat) (event : E) (interval : Nat) (repeats : Bool)
    (timerId : TimerId W) : Scheduler W E :=
  let deadline := now + interval
  let index := s.timers.findIdx fun timer => decide (deadline < timer.deadline)
  let interval := if repeats then some interval else none
  ⟨s.timers.insertIdx index { deadline, event, id := timerId, interval }⟩

/-- The loop of `update`. `clock i` is the time at which the `i`-th timer of this call is
scheduled again. Also returns the events sent. -/
def updateLoop (now : Nat) (clock : Nat → Nat) : Nat → Nat → Scheduler W E →
    Option (Scheduler W E × List E)
  | 0, _, _ => none
  | fuel + 1, i, s =>
      match s.timers with
      | [] => some (s, [])
      | timer :: rest =>
          if timer.deadline ≤ now then
            let s := match timer.interval with
              | some interval => schedule ⟨rest⟩ (clock i) timer.event interval true timer.id
              | none => ⟨rest⟩
            (updateLoop now clock fuel (i + 1) s).map fun (s, sent) => (s, timer.event :: sent)
          else some (s, [])

/-- Process all pending timers. The clock is read once, and again for every timer that
repeats; returns the closest pending deadline and the events sent. -/
def update (s : Scheduler W E) (clock : Nat → Nat) (fuel : Nat) :
    Option (Scheduler W E × Option Nat × List E) :=
  (updateLoop (clock 0) (fun i => clock (i + 1)) fuel 0 s).map fun (s, sent) =>
    (s, s.timers.head?.map Timer.deadline, sent)

variable [DecidableEq W]

def unschedule (s : Scheduler W E) (id : TimerId W) : Option (Timer W E) × Scheduler W E :=
  match s.timers.findIdx? fun timer => decide (timer.id = id) with
  | some index => (s.timers[index]?, ⟨s.timers.eraseIdx index⟩)
  | none => (none, s)

def scheduled (s : Scheduler W E) (id : TimerId W) : Bool :=
  s.timers.any fun timer => decide (timer.id = id)

def unscheduleWindow (s : Scheduler W E) (windowId : W) : Scheduler W E :=
  ⟨s.timers.filter fun timer => decide (timer.id.windowId ≠ windowId)⟩

end Scheduler
end Velacritty
