import Velacritty.Cell
import Velacritty.Fallible
import Mathlib.Data.List.DropRight

/-! Rows of the grid. -/
namespace Velacritty
open Fallible

def updateLast {α : Type} (f : α → α) (l : List α) : List α := l.modify (l.length - 1) f

@[simp] theorem length_updateLast {α : Type} (f : α → α) (l : List α) :
    (updateLast f l).length = l.length := List.length_modify ..

@[simp] theorem updateLast_nil {α : Type} (f : α → α) : updateLast f [] = [] := rfl

@[simp] theorem updateLast_concat {α : Type} (f : α → α) (l : List α) (x : α) :
    updateLast f (l ++ [x]) = l ++ [f x] := by
  simp [updateLast, List.modify_eq_take_drop]

/-- A row in the grid. `occ` bounds the cells modified since the last reset. -/
structure Row (T : Type) where
  inner : List T
  occ : Nat
  deriving DecidableEq, Repr

namespace Row
variable {T : Type} [GridCell T]

def new (columns : Nat) : Row T := ⟨List.replicate columns default, 0⟩

def fromVec (vec : List T) (occ : Nat) : Row T := ⟨vec, occ⟩

def len (r : Row T) : Nat := r.inner.length

def last (r : Row T) : Option T := r.inner.getLast?

def grow (r : Row T) (columns : Nat) : Row T :=
  if columns ≤ r.len then r
  else { r with inner := r.inner ++ List.replicate (columns - r.len) default }

/-- Reduce the number of columns in the row; also returns all non-empty cells
that were removed. -/
def shrink (r : Row T) (columns : Nat) : Row T × Option (List T) :=
  if r.len ≤ columns then (r, none)
  else
    let newRow := (r.inner.drop columns).rdropWhile GridCell.isEmpty
    (⟨r.inner.take columns, min r.occ columns⟩, if newRow.isEmpty then none else some newRow)

/-- Reset all cells in the row to the `template` cell. Cells from `occ` on are
taken to be clean unless the last cell's discriminant says otherwise. -/
def reset (r : Row T) (template : T) : Option (Row T) := do
  let cell ← r.last
  let occ := if GridCell.sameDiscriminant cell template then r.occ else r.len
  if occ ≤ r.len then
    some ⟨(r.inner.take occ).map (GridCell.reset · template) ++ r.inner.drop occ, 0⟩
  else none

/-- `last_mut`, followed by an update of that cell. -/
def modifyLast (r : Row T) (f : T → T) : Row T := ⟨updateLast f r.inner, r.len⟩

def append (r : Row T) (vec : List T) : Row T := ⟨r.inner ++ vec, r.occ + vec.length⟩

def appendFront (r : Row T) (vec : List T) : Row T := ⟨vec ++ r.inner, r.occ + vec.length⟩

def isClear (r : Row T) : Bool := r.inner.all GridCell.isEmpty

def frontSplitOff (r : Row T) (n : Nat) : Option (List T × Row T) :=
  if n ≤ r.len then some (r.inner.take n, ⟨r.inner.drop n, r.occ - n⟩) else none

def get (r : Row T) (column : Nat) : Option T := r.inner[column]?

/-- An update through `&mut row[column]`. -/
def modify (r : Row T) (column : Nat) (f : T → T) : Option (Row T) :=
  if column < r.len then some ⟨r.inner.modify column f, max r.occ (column + 1)⟩ else none

/-- An update of every cell of `&mut row[start..stop]`. -/
def modifyRange (r : Row T) (start stop : Nat) (f : T → T) : Option (Row T) :=
  if start ≤ stop ∧ stop ≤ r.len then
    some ⟨r.inner.take start ++ ((r.inner.drop start).take (stop - start)).map f ++ r.inner.drop stop,
      max r.occ stop⟩
  else none

/-- Swapping two cells of `&mut row[..]`. -/
def swap (r : Row T) (a b : Nat) : Option (Row T) := do
  let x ← r.inner[a]?
  let y ← r.inner[b]?
  some ⟨(r.inner.set a y).set b x, r.len⟩

end Row

/-! ### Lengths -/

namespace Row
section
variable {T : Type}

/-- The row has `columns` cells and `occ` does not point past them. -/
structure WF (columns : Nat) (r : Row T) : Prop where
  len_eq : r.len = columns
  occ_le : r.occ ≤ r.len

@[simp] theorem len_mk (inner : List T) (occ : Nat) : (Row.mk inner occ).len = inner.length := rfl

@[simp] theorem len_modifyLast (r : Row T) (f : T → T) : (r.modifyLast f).len = r.len := by
  simp only [modifyLast, len, length_updateLast]

@[simp] theorem occ_modifyLast (r : Row T) (f : T → T) : (r.modifyLast f).occ = r.len := rfl

@[simp] theorem len_append (r : Row T) (vec : List T) : (r.append vec).len = r.len + vec.length := by
  simp only [append, len, List.length_append]

@[simp] theorem len_appendFront (r : Row T) (vec : List T) :
    (r.appendFront vec).len = r.len + vec.length := by
  simp only [appendFront, len, List.length_append, Nat.add_comm]

theorem append_occ {r : Row T} (h : r.occ ≤ r.len) (vec : List T) :
    (r.append vec).occ ≤ (r.append vec).len := by
  rw [len_append]
  exact Nat.add_le_add_right h _

theorem appendFront_occ {r : Row T} (h : r.occ ≤ r.len) (vec : List T) :
    (r.appendFront vec).occ ≤ (r.appendFront vec).len := by
  rw [len_appendFront]
  exact Nat.add_le_add_right h _

theorem frontSplitOff_returns {r : Row T} {n : Nat} (h : n ≤ r.len) (hocc : r.occ ≤ r.len) :
    Returns (r.frontSplitOff n) fun p =>
      p.1.length = n ∧ p.2.len = r.len - n ∧ p.2.occ ≤ p.2.len := by
  unfold frontSplitOff
  rw [if_pos h]
  refine .pure ⟨?_, ?_, ?_⟩
  · exact List.length_take_of_le h
  · simp only [len, List.length_drop]
  · simp only [len, List.length_drop] at *
    omega

theorem get_returns {r : Row T} {column : Nat} (h : column < r.len) :
    Returns (r.get column) fun _ => True :=
  ⟨r.inner.get ⟨column, h⟩, List.getElem?_eq_getElem h, trivial⟩

theorem modify_returns {r : Row T} {columns column : Nat} (h : r.WF columns)
    (hc : column < columns) (f : T → T) : Returns (r.modify column f) (WF columns) := by
  obtain ⟨hlen, hocc⟩ := h
  unfold modify
  rw [if_pos (by omega)]
  refine .pure ⟨?_, ?_⟩
  · simpa only [len, List.length_modify] using hlen
  · simp only [len, List.length_modify] at *
    omega

end

variable {T : Type} [GridCell T]

@[simp] theorem len_shrink (r : Row T) (columns : Nat) :
    (r.shrink columns).1.len = min r.len columns := by
  unfold shrink
  split
  · next h => exact (Nat.min_eq_left h).symm
  · simp only [len, List.length_take, Nat.min_comm]

@[simp] theorem len_grow (r : Row T) (columns : Nat) : (r.grow columns).len = max r.len columns := by
  unfold grow
  split
  · omega
  · simp only [len, List.length_append, List.length_replicate] at *
    omega

theorem new_wf (columns : Nat) : (new columns : Row T).WF columns :=
  ⟨List.length_replicate, Nat.zero_le _⟩

theorem occ_shrink_le {r : Row T} (h : r.occ ≤ r.len) (columns : Nat) :
    (r.shrink columns).1.occ ≤ (r.shrink columns).1.len := by
  rw [len_shrink]
  unfold shrink
  split
  · next hc => exact (Nat.min_eq_left hc).symm ▸ h
  · exact Nat.le_min.mpr ⟨Nat.le_trans (Nat.min_le_left _ _) h, Nat.min_le_right _ _⟩

theorem grow_wf {r : Row T} {columns : Nat} (h : r.occ ≤ r.len) (hle : r.len ≤ columns) :
    (r.grow columns).WF columns := by
  have hlen : (r.grow columns).len = columns := by rw [len_grow, Nat.max_eq_right hle]
  refine ⟨hlen, ?_⟩
  have hocc : (r.grow columns).occ = r.occ := by
    unfold grow
    split <;> rfl
  omega

theorem length_removed {r : Row T} {columns : Nat} {cells : List T}
    (h : (r.shrink columns).2 = some cells) : columns + cells.length ≤ r.len ∧ cells ≠ [] := by
  unfold shrink at h
  split at h
  · cases h
  · next hc =>
      simp only [ite_eq_iff, reduceCtorEq, and_false, false_or, Option.some.injEq] at h
      obtain ⟨hne, rfl⟩ := h
      have hle := (List.rdropWhile_prefix (p := GridCell.isEmpty) (r.inner.drop columns)).length_le
      rw [List.length_drop] at hle
      exact ⟨by unfold len at *; omega, by simpa using hne⟩

theorem reset_returns {r : Row T} {columns : Nat} (h : r.WF columns) (hc : 1 ≤ columns)
    (template : T) : Returns (r.reset template) (WF columns) := by
  obtain ⟨hlen, hocc⟩ := h
  have hne : r.inner ≠ [] := List.ne_nil_of_length_pos (by unfold len at hlen; omega)
  obtain ⟨cell, hcell⟩ : ∃ cell, r.last = some cell := ⟨_, List.getLast?_eq_some_getLast hne⟩
  unfold reset
  rw [hcell, Option.bind_eq_bind, Option.bind_some]
  have hle : (if GridCell.sameDiscriminant cell template then r.occ else r.len) ≤ r.len := by
    split <;> omega
  rw [if_pos hle]
  refine .pure ⟨?_, Nat.zero_le _⟩
  simp only [len, List.length_append, List.length_map, List.length_take, List.length_drop] at *
  omega

end Row
end Velacritty
