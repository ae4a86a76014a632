import Velacritty.Row
import Mathlib.Data.List.Rotate

/-! The ring buffer behind the grid. -/
namespace Velacritty

/-- Maximum number of buffered lines outside of the grid for performance optimization. -/
def maxCacheSize : Nat := 1000

/-- A ring buffer of rows. `zero` is where the bottommost line is stored, `len`
the number of active rows; the others are cached. -/
structure Storage (T : Type) where
  inner : List (Row T)
  zero : Nat
  visibleLines : Nat
  len : Nat
  deriving DecidableEq, Repr

namespace Storage
variable {T : Type} [GridCell T]

def withCapacity (visibleLines columns : Nat) : Storage T :=
  ⟨List.replicate visibleLines (Row.new columns), 0, visibleLines, visibleLines⟩

/-- Compute actual index in underlying storage given the requested index. -/
def computeIndex (s : Storage T) (requested : Int) : Option Nat :=
  if requested < s.visibleLines then
    let positive := (s.visibleLines - requested).toNat - 1
    if positive < s.len then
      let zeroed := s.zero + positive
      some (if s.inner.length ≤ zeroed then zeroed - s.inner.length else zeroed)
    else none
  else none

def get (s : Storage T) (line : Int) : Option (Row T) := do
  let i ← s.computeIndex line
  s.inner[i]?

/-- An update through `&mut self[line]`. -/
def modify (s : Storage T) (line : Int) (f : Row T → Option (Row T)) : Option (Storage T) := do
  let i ← s.computeIndex line
  let r ← s.inner[i]?
  let r' ← f r
  some { s with inner := s.inner.set i r' }

def swap (s : Storage T) (a b : Int) : Option (Storage T) := do
  let i ← s.computeIndex a
  let j ← s.computeIndex b
  let x ← s.inner[i]?
  let y ← s.inner[j]?
  some { s with inner := (s.inner.set i y).set j x }

/-- Rotate the ringbuffer to reset `zero` back to index `0`. -/
def rezero (s : Storage T) : Option (Storage T) :=
  if s.zero ≤ s.inner.length then some { s with inner := s.inner.rotate s.zero, zero := 0 } else none

/-- Truncate the invisible elements from the raw buffer. -/
def truncate (s : Storage T) : Option (Storage T) := do
  let s ← s.rezero
  some { s with inner := s.inner.take s.len }

def shrinkLines (s : Storage T) (shrinkage : Nat) : Option (Storage T) := do
  let len ← usub s.len shrinkage
  let s := { s with len }
  if s.len + maxCacheSize < s.inner.length then s.truncate else some s

/-- Dynamically grow the storage buffer at runtime. -/
def initializeRows (s : Storage T) (additionalRows columns : Nat) : Option (Storage T) := do
  let s ← (if s.inner.length < s.len + additionalRows then do
      let s ← s.rezero
      some { s with
        inner := s.inner ++ List.replicate (max additionalRows maxCacheSize) (Row.new columns) }
    else some s)
  some { s with len := s.len + additionalRows }

/-- Increase the number of lines in the buffer. -/
def growVisibleLines (s : Storage T) (next : Nat) : Option (Storage T) := do
  let additionalLines ← usub next s.visibleLines
  let row ← s.get 0
  let s ← s.initializeRows additionalLines row.len
  some { s with visibleLines := next }

/-- Decrease the number of lines in the buffer. -/
def shrinkVisibleLines (s : Storage T) (next : Nat) : Option (Storage T) := do
  let shrinkage ← usub s.visibleLines next
  let s ← s.shrinkLines shrinkage
  some { s with visibleLines := next }

/-- Rotate the grid, moving all lines up/down in history. -/
def rotate (s : Storage T) (count : Int) : Option (Storage T) :=
  if count.natAbs ≤ s.inner.length ∧ s.inner ≠ [] then
    some { s with zero := (s.zero + count + s.inner.length).toNat % s.inner.length }
  else none

/-- Rotate all existing lines down in history. -/
def rotateDown (s : Storage T) (count : Nat) : Option (Storage T) :=
  if s.inner ≠ [] then some { s with zero := (s.zero + count) % s.inner.length } else none

/-- Update the raw storage buffer. -/
def replaceInner (s : Storage T) (vec : List (Row T)) : Storage T :=
  { s with len := vec.length, inner := vec, zero := 0 }

def takeAll (s : Storage T) : Option (List (Row T) × Storage T) := do
  let s ← s.truncate
  some (s.inner, { s with inner := [], len := 0 })

def resetLines (s : Storage T) (template : T) (lines : List Int) : Option (Storage T) :=
  lines.foldlM (fun s line => s.modify line (Row.reset · template)) s

/-- Swap each of the lines with the one `delta` lines below, in the order given. -/
def swapLines (s : Storage T) (delta : Int) (lines : List Int) : Option (Storage T) :=
  lines.foldlM (fun s line => s.swap line (line + delta)) s

end Storage
end Velacritty
