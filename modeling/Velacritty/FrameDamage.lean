import Velacritty.MachineInts
import Velacritty.Rects
import Velacritty.SelectionRange

/-! The damage that the display tracks for the frames it draws. -/
namespace Velacritty

structure SizeInfo where
  width : Nat
  height : Nat
  cellWidth : Nat
  cellHeight : Nat
  paddingX : Nat
  paddingY : Nat
  screenLines : Nat
  columns : Nat
  deriving DecidableEq, Repr

structure FrameDamage where
  /-- The entire frame needs to be redrawn. -/
  full : Bool
  /-- Terminal lines damaged in the given frame. -/
  lines : List LineDamageBounds
  /-- Rectangular regions damage in the given frame. -/
  rects : List Rect
  deriving DecidableEq, Repr

namespace FrameDamage

def expandLine (f : FrameDamage) (line left right : Nat) : Option FrameDamage :=
  if line < f.lines.length then some { f with lines := f.lines.modify line (·.expand left right) }
  else none

def damageLine (f : FrameDamage) (damage : LineDamageBounds) : Option FrameDamage :=
  f.expandLine damage.line damage.left damage.right

def damagePoint (f : FrameDamage) (line column : Nat) : Option FrameDamage :=
  f.expandLine line column column

def markFullyDamaged (f : FrameDamage) : FrameDamage := { f with full := true }

def reset (numLines numCols : Nat) : FrameDamage :=
  ⟨false, TermDamageState.undamagedLines numCols numLines, []⟩

def intersects (f : FrameDamage) (start stop : Nat × Nat) : Option Bool := do
  let startLine ← f.lines[start.1]?
  let stopLine ← f.lines[stop.1]?
  some (f.full ||
    decide (startLine.left ≤ start.2 ∧ start.2 ≤ startLine.right) ||
    decide (stopLine.left ≤ stop.2 ∧ stop.2 ≤ stopLine.right) ||
    (List.range' (start.1 + 1) (stop.1 - (start.1 + 1))).any fun line =>
      f.lines[line]?.any LineDamageBounds.isDamaged)

end FrameDamage

structure DamageTracker where
  /-- Position of the previously drawn Vi cursor. -/
  oldViCursor : Option (Nat × Nat)
  /-- The location of the old selection. -/
  oldSelection : Option SelectionRange
  frame : FrameDamage
  nextFrame : FrameDamage
  screenLines : Nat
  columns : Nat
  deriving DecidableEq, Repr

namespace DamageTracker

def resize (t : DamageTracker) (screenLines columns : Nat) : DamageTracker :=
  { t with
    screenLines := screenLines
    columns := columns
    frame := (FrameDamage.reset screenLines columns).markFullyDamaged
    nextFrame := .reset screenLines columns }

def new (screenLines columns : Nat) : DamageTracker :=
  resize ⟨none, none, ⟨false, [], []⟩, ⟨false, [], []⟩, screenLines, columns⟩ screenLines columns

/-- Advance to the next frame resetting the state for the active frame. -/
def swapDamage (t : DamageTracker) : DamageTracker :=
  { t with frame := t.nextFrame, nextFrame := .reset t.screenLines t.columns }

def damageCursor (t : DamageTracker) (viCursor : Option (Nat × Nat)) : Option DamageTracker :=
  match viCursor with
  | none => some t
  | some (line, column) => do
      let frame ← t.frame.damagePoint line column
      some { t with frame := frame }

def damageViCursor (t : DamageTracker) (viCursor : Option (Nat × Nat)) : Option DamageTracker :=
  let old := t.oldViCursor
  let t := { t with oldViCursor := viCursor }
  if t.frame.full then some t
  else do
    let t ← t.damageCursor viCursor
    t.damageCursor old

def damageRange (displayOffset : Nat) (t : DamageTracker) (selection : SelectionRange) :
    Option DamageTracker :=
  let lastVisibleLine : Int := t.screenLines - 1
  if selection.stop.line + displayOffset < 0 ∨
      (selection.start.line.natAbs : Int) < displayOffset - lastVisibleLine then some t
  -- `clamp` panics if its bounds are out of order.
  else if lastVisibleLine < 0 then none
  else
    let start := (max (selection.start.line + displayOffset) 0).toNat
    let stop := (max 0 (min (selection.stop.line + displayOffset) lastVisibleLine)).toNat
    (List.range' start (stop + 1 - start)).foldlM (fun t line => do
      let right ← usub t.columns 1
      let frame ← t.frame.expandLine line 0 right
      some { t with frame := frame }) t

/-- Add the current frame's selection damage. -/
def damageSelection (t : DamageTracker) (selection : Option SelectionRange) (displayOffset : Nat) :
    Option DamageTracker :=
  let old := t.oldSelection
  let t := { t with oldSelection := selection }
  if t.frame.full ∨ old = selection then some t
  else (selection.toList ++ old.toList).foldlM (damageRange displayOffset) t

end DamageTracker
end Velacritty
