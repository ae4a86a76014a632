import Velacritty.MessageTypeset
import Velacritty.StrShortener

/-! The lines of a message fit the screen where its text is laid out. -/
namespace Velacritty
open Fallible Text

namespace Message
variable {width : Char → Option Nat} {numCols maxLines count n i : Nat} {whole : Prop}
  {message line kept part start l : List Char} {lines full closed kepts : List (List Char)} {c : Char}

/-- The lines are the whole ones, but the close button covers the end of the first one. -/
def Covers (width : Char → Option Nat) (numCols : Nat) (full lines : List (List Char)) : Prop :=
  if closeButtonText.length ≤ numCols then ∃ start covered rest, full = (start ++ covered) :: rest ∧
    Covered width covered ∧ lines = (start ++ closeButtonText) :: rest
  else lines = full

/-- The line of this number takes the columns of the screen, or has room for the close button. -/
def Fits (width : Char → Option Nat) (numCols n : Nat) (whole : Prop) (l : List Char) : Prop :=
  if Closed numCols n then Parts width numCols whole l
  else columns (charColumns width) ' ' l = numCols

theorem length_padText (text : List Char) (numCols : Nat) : numCols ≤ (padText text numCols).length := by
  rw [padText, List.length_append, List.length_replicate]
  omega

theorem Stands.long (h : Stands width numCols kept l) : numCols ≤ Utf8.byteLen l := by
  obtain ⟨start, m, rfl, -⟩ := h.start_eq
  exact (length_padText start numCols).trans Utf8.length_le_byteLen

/-- A line that is long enough is cut before the close button. -/
theorem Parts.exact (h : Parts width numCols whole l) (hbutton : closeButtonText.length ≤ numCols)
    (hlong : numCols ≤ Utf8.byteLen l) : ∃ start rest, l = start ++ rest ∧
      Utf8.byteLen start = numCols - closeButtonText.length ∧
      columns (charColumns width) ' ' start = numCols - closeButtonText.length ∧
      (whole → Covered width rest) := by
  obtain ⟨start, rest, rfl, hle, hend, hcolumns, hcovered⟩ := h
  have hwide : 0 < closeButtonText.length := by decide
  have hfull : Utf8.byteLen start = numCols - closeButtonText.length := by
    apply hend.resolve_left
    rintro rfl
    rw [List.append_nil] at hlong
    omega
  exact ⟨start, rest, rfl, hfull, hcolumns.trans hfull, hcovered⟩

/-- A text that is laid out is wrapped into the lines of its layout. -/
theorem LaysOut.wrapped (hspace : charColumns width ' ' = 1)
    (h : LaysOut width numCols ⟨0, 0, []⟩ (trim message) kepts) :
    Returns (wrapped width numCols message) fun full =>
      List.Forall₂ (Stands width numCols) kepts full ∧ visible full.flatten = visible (trim message) := by
  refine (h.run hspace (typeset_start width)).bind fun s ⟨hshown, added, hadded, hstands⟩ => .pure ?_
  constructor
  · rw [hadded]
    exact hstands
  · rw [List.flatten_append, List.flatten_singleton, visible_append, padText_visible, ← visible_append]
    exact hshown

end Message
end Velacritty
