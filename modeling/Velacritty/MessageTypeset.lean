import Velacritty.MessageLayout

/-! The lines that the code splits a text into follow its layout. -/
namespace Velacritty
open Fallible Text

namespace Message
variable {width : Char → Option Nat} {numCols maxLines : Nat} {line kept text start l : List Char}
  {lines : List (List Char)} {c : Char} {s : Lines} {d d' : Draft} {ended : Option (List Char)}

/-- The line of the code is that of the layout, with its spacers. -/
structure Typeset (width : Char → Option Nat) (d : Draft) (s : Lines) : Prop where
  count_eq : s.lines.length = d.n
  line_eq : s.line = spaced (charColumns width) ' ' d.line
  len_eq : s.lineLen = d.used

theorem typeset_start (width : Char → Option Nat) : Typeset width ⟨0, 0, []⟩ ⟨[], [], 0⟩ := ⟨rfl, rfl, rfl⟩

theorem Typeset.append (hs : Typeset width d s) (c : Char) :
    Typeset width ⟨d.n, d.used + charColumns width c, d.line ++ [c]⟩ (s.append width c) := by
  constructor
  case count_eq => exact hs.count_eq
  case line_eq =>
    rw [spaced_append, spaced_cons, spaced_nil, List.append_nil, ← hs.line_eq]
    rfl
  case len_eq =>
    rw [← hs.len_eq]
    rfl

/-- The next line starts with the word that is carried over. -/
theorem Typeset.newLine (hs : Typeset width d s) (l carried : List Char)
    (hcarried : ∀ c ∈ carried, charColumns width c ≠ 2) :
    Typeset width ⟨d.n + 1, carried.length, carried⟩ ⟨s.lines ++ [l], carried, carried.length⟩ := by
  constructor
  case count_eq => rw [List.length_append, List.length_singleton, hs.count_eq]
  case line_eq => exact (spaced_eq_self hcarried).symm
  case len_eq => rfl

/-- The test of the code for the place where a line is broken. -/
theorem Typeset.full_iff (hs : Typeset width d s) :
    (s.lineLen = numCols ∨ (s.lines = [] ∧ closeButtonText.length ≤ numCols ∧
      s.lineLen = numCols - (closeButtonText.length + closeButtonPadding))) ↔
      Full numCols d.n d.used := by
  rw [hs.len_eq, ← List.length_eq_zero_iff, hs.count_eq]
  rfl

theorem Typeset.push_fits (hs : Typeset width d s) (hnewline : c ≠ '\n')
    (hfull : ¬ Full numCols d.n d.used) : push width numCols s c = some (s.append width c) :=
  if_neg (not_or.mpr ⟨hnewline, mt hs.full_iff.mp hfull⟩)

theorem Typeset.push_breaks (hs : Typeset width d s)
    (hbreak : c = '\n' ∨ Full numCols d.n d.used) {carried : List Char}
    (hsplit : splitWord s.line (isWhitespace c) = some (start, carried)) :
    push width numCols s c = some (if isWhitespace c then
      ⟨s.lines ++ [padText start numCols], carried, carried.length⟩
      else Lines.append width ⟨s.lines ++ [padText start numCols], carried, carried.length⟩ c) := by
  refine (if_pos (hbreak.imp_right hs.full_iff.mpr)).trans ?_
  rw [hsplit]
  rfl

def Lines.shown (s : Lines) : List Char := visible (s.lines.flatten ++ s.line)

theorem shown_append (width : Char → Option Nat) (s : Lines) (c : Char) :
    (s.append width c).shown = s.shown ++ visible [c] := by
  unfold Lines.shown Lines.append
  rw [← List.append_assoc, visible_append]
  split
  · exact congrArg _ ((visible_append [c] [' ']).trans (List.append_nil _))
  · rfl

theorem shown_newLine {carried : List Char}
    (hsame : visible start ++ visible carried = visible s.line) :
    Lines.shown ⟨s.lines ++ [padText start numCols], carried, carried.length⟩ = s.shown := by
  unfold Lines.shown
  rw [List.flatten_append, List.flatten_singleton, visible_append, visible_append, padText_visible,
    visible_append, List.append_assoc, hsame]

/-- The word that is carried over has no fullwidth characters. -/
theorem Breaks.carried_narrow {carried : List Char} (h : Breaks width line kept carried) :
    ∀ c ∈ carried, charColumns width c ≠ 2 := by
  cases h with
  | word hword => exact nofun
  | space hspace hnarrow hbyte hword => exact fun d hd => (hword d hd).2
  | wide hwide hword => exact fun d hd => (hword d hd).2

/-- The code's step follows that of the layout. -/
theorem Typeset.push (hspace : charColumns width ' ' = 1) (hs : Typeset width d s)
    (h : Lays width numCols d c d' ended) :
    Returns (push width numCols s c) fun s' => Typeset width d' s' ∧
      s'.shown = s.shown ++ visible [c] ∧ ∃ added, s'.lines = s.lines ++ added ∧
        List.Forall₂ (Stands width numCols) ended.toList added := by
  cases h with
  | char hnewline hfull =>
      refine ⟨_, hs.push_fits hnewline hfull, hs.append c, shown_append width s c, [], ?_, .nil⟩
      exact (List.append_nil s.lines).symm
  | space hbreak hc =>
      have hsplit : splitWord s.line (isWhitespace c) = some (s.line, []) := by
        rw [hc]
        exact splitWord_whitespace s.line
      have hstands : Stands width numCols d.line (padText s.line numCols) := by
        rw [hs.line_eq]
        exact stands_spaced hspace d.line
      refine ⟨_, (hs.push_breaks hbreak hsplit).trans (congrArg some (if_pos hc)),
        hs.newLine _ [] nofun, ?_, _, rfl, .cons hstands .nil⟩
      rw [shown_newLine (List.append_nil _), visible_cons_space hc]
      exact (List.append_nil _).symm
  | @wrap kept carried hfull hc hbreak =>
      obtain ⟨start, hsplit, hstands, hsame⟩ := hbreak.splitWord hspace numCols
      rw [← hc, ← hs.line_eq] at hsplit
      rw [← hs.line_eq] at hsame
      have hno : ¬ isWhitespace c = true := by
        rw [hc]
        exact Bool.false_ne_true
      refine ⟨_, (hs.push_breaks (.inr hfull) hsplit).trans (congrArg some (if_neg hno)),
        (hs.newLine _ _ hbreak.carried_narrow).append c, ?_, _, rfl, .cons hstands .nil⟩
      rw [shown_append, shown_newLine hsame]

/-- A text that is laid out is split into the lines of its layout. -/
theorem LaysOut.run (hspace : charColumns width ' ' = 1) (h : LaysOut width numCols d text lines)
    (hs : Typeset width d s) :
    Returns (text.foldlM (Message.push width numCols) s) fun s' =>
      s'.shown = s.shown ++ visible text ∧
        ∃ added, s'.lines ++ [padText s'.line numCols] = s.lines ++ added ∧
          List.Forall₂ (Stands width numCols) lines added := by
  induction h generalizing s with
  | done d =>
      refine .pure ⟨(List.append_nil _).symm, _, rfl, .cons ?_ .nil⟩
      rw [hs.line_eq]
      exact stands_spaced hspace d.line
  | @step d d' c text ended lines hlays hrest ih =>
      rw [List.foldlM_cons]
      refine (hs.push hspace hlays).bind fun s' ⟨hs', hshown, first, hfirst, hstands⟩ => ?_
      refine (ih hs').mono fun t ⟨hshown', added, hadded, hstands'⟩ => ⟨?_, first ++ added, ?_, ?_⟩
      · rw [hshown', hshown, List.append_assoc, ← visible_append, List.singleton_append]
      · rw [hadded, hfirst, List.append_assoc]
      · exact List.rel_append hstands hstands'

end Message
end Velacritty
