import Velacritty.MessageBar

/-! How the text of a message is laid out in lines that fit the screen. -/
namespace Velacritty
open Fallible Text

namespace Message
variable {width : Char → Option Nat} {numCols maxLines n used : Nat}
  {line kept carried text start l : List Char} {c : Char}

def InWord (width : Char → Option Nat) (c : Char) : Prop :=
  isWhitespace c = false ∧ charColumns width c ≠ 2

/-- The line of this number gets the close button. -/
def Closed (numCols n : Nat) : Prop := n = 0 ∧ closeButtonText.length ≤ numCols

instance : Decidable (Closed numCols n) :=
  inferInstanceAs (Decidable (n = 0 ∧ closeButtonText.length ≤ numCols))

/-- The columns that are used are those of the screen, or in the first line those up to the close
button. -/
def Full (numCols n used : Nat) : Prop :=
  used = numCols ∨ (n = 0 ∧ closeButtonText.length ≤ numCols ∧
    used = numCols - (closeButtonText.length + closeButtonPadding))

instance : Decidable (Full numCols n used) :=
  inferInstanceAs (Decidable (used = numCols ∨ (n = 0 ∧ closeButtonText.length ≤ numCols ∧
    used = numCols - (closeButtonText.length + closeButtonPadding))))

/-- What is kept of a line that is full, and the word that is carried over to the next one: a line is
broken at a whitespace of one byte, or after a fullwidth character. -/
inductive Breaks (width : Char → Option Nat) : List Char → List Char → List Char → Prop
  | word {line : List Char} (hword : ∀ c ∈ line, InWord width c) : Breaks width line line []
  | space {before word : List Char} {c : Char} (hspace : isWhitespace c = true)
      (hnarrow : charColumns width c ≠ 2) (hbyte : c.utf8Size = 1)
      (hword : ∀ d ∈ word, InWord width d) : Breaks width (before ++ c :: word) before word
  | wide {before word : List Char} {c : Char} (hwide : charColumns width c = 2)
      (hword : ∀ d ∈ word, InWord width d) : Breaks width (before ++ c :: word) (before ++ [c]) word

/-- Of so many lines, the one of this number is neither cut off nor replaced by the notice. -/
def Shown (numCols maxLines count n : Nat) : Prop :=
  if count ≤ maxLines then n < count
  else n + 1 < maxLines ∨ (n + 1 = maxLines ∧ numCols < truncatedMessage.length)

/-- The text is below the close button, apart from spaces at its end. -/
def Covered (width : Char → Option Nat) (text : List Char) : Prop :=
  ∃ start m, text = start ++ List.replicate m ' ' ∧
    columns (charColumns width) ' ' start ≤ closeButtonText.length

/-- The text has as many columns as bytes up to the close button, or ends before it; if all of it is
wanted, what is left is below the button. -/
def Parts (width : Char → Option Nat) (numCols : Nat) (whole : Prop) (text : List Char) : Prop :=
  ∃ start rest, text = start ++ rest ∧ Utf8.byteLen start ≤ numCols - closeButtonText.length ∧
    (rest = [] ∨ Utf8.byteLen start = numCols - closeButtonText.length) ∧
    columns (charColumns width) ' ' start = Utf8.byteLen start ∧ (whole → Covered width rest)

/-- A line of the layout that is filled: its number, the columns that it uses and its characters. -/
structure Draft where
  n : Nat
  used : Nat
  line : List Char
  deriving DecidableEq, Repr

/-- A character is laid out: it is added to the line, or this ends with what is kept of it, and the
word that is carried over starts the next one. -/
inductive Lays (width : Char → Option Nat) (numCols : Nat) (d : Draft) (c : Char) :
    Draft → Option (List Char) → Prop
  | char (hnewline : c ≠ '\n') (hfull : ¬ Full numCols d.n d.used) :
      Lays width numCols d c ⟨d.n, d.used + charColumns width c, d.line ++ [c]⟩ none
  | space (hbreak : c = '\n' ∨ Full numCols d.n d.used) (hspace : isWhitespace c = true) :
      Lays width numCols d c ⟨d.n + 1, 0, []⟩ (some d.line)
  | wrap {kept carried : List Char} (hfull : Full numCols d.n d.used)
      (hspace : isWhitespace c = false) (hbreak : Breaks width d.line kept carried) :
      Lays width numCols d c ⟨d.n + 1, carried.length + charColumns width c, carried ++ [c]⟩
        (some kept)

/-- The rest of a text is laid out in lines, of which the first one is being filled. -/
inductive LaysOut (width : Char → Option Nat) (numCols : Nat) :
    Draft → List Char → List (List Char) → Prop
  | done (d : Draft) : LaysOut width numCols d [] [d.line]
  | step {d d' : Draft} {c : Char} {text : List Char} {ended : Option (List Char)}
      {lines : List (List Char)} (hlays : Lays width numCols d c d' ended)
      (hrest : LaysOut width numCols d' text lines) :
      LaysOut width numCols d (c :: text) (ended.toList ++ lines)

/-- The widths of the characters of one byte: the control characters have none. -/
def AsciiWidths (width : Char → Option Nat) : Prop :=
  ∀ c : Char, c.toNat < 128 → width c = if 32 ≤ c.toNat ∧ c.toNat ≠ 127 then some 1 else none

theorem AsciiWidths.one (h : AsciiWidths width) (hlow : 32 ≤ c.toNat) (hhigh : c.toNat < 127) :
    charColumns width c = 1 := by
  unfold charColumns
  rw [h c (by omega), if_pos ⟨hlow, by omega⟩, Option.getD_some]

theorem AsciiWidths.space (h : AsciiWidths width) : charColumns width ' ' = 1 :=
  h.one (by decide) (by decide)

def visible (text : List Char) : List Char := text.filter fun c => !isWhitespace c

@[simp] theorem visible_append (text rest : List Char) :
    visible (text ++ rest) = visible text ++ visible rest := List.filter_append _ _

theorem visible_of_space (h : ∀ c ∈ text, isWhitespace c = true) : visible text = [] := by
  apply List.filter_eq_nil_iff.mpr
  intro c hc
  rw [h c hc]
  exact Bool.false_ne_true

theorem visible_cons_space (h : isWhitespace c = true) (text : List Char) :
    visible (c :: text) = visible text := by
  unfold visible
  rw [List.filter_cons_of_neg]
  rw [h]
  exact Bool.false_ne_true

theorem padText_visible (text : List Char) (numCols : Nat) :
    visible (padText text numCols) = visible text := by
  have hspaces : visible (List.replicate (numCols - text.length) ' ') = [] := by
    apply visible_of_space
    intro c hc
    rw [List.eq_of_mem_replicate hc]
    rfl
  rw [padText, visible_append, hspaces, List.append_nil]

theorem columns_spaces (hspace : charColumns width ' ' = 1) (n : Nat) :
    columns (charColumns width) ' ' (List.replicate n ' ') = n := by
  have hones : columns (charColumns width) ' ' (List.replicate n ' ') = _ :=
    columns_of_ones fun c hc => List.eq_of_mem_replicate hc ▸ hspace
  rw [hones, List.length_replicate]

/-- The line of the screen for one of the layout: that with its spacers, filled up with spaces, where
a spacer at its end may be left to these. -/
structure Stands (width : Char → Option Nat) (numCols : Nat) (kept l : List Char) : Prop where
  columns_eq : columns (charColumns width) ' ' l = total (charColumns width) kept +
    (numCols - (spaced (charColumns width) ' ' kept).length)
  start_eq : ∃ start m, l = padText start numCols ∧
    spaced (charColumns width) ' ' kept = start ++ List.replicate m ' '

theorem stands_spaced (hspace : charColumns width ' ' = 1) (kept : List Char) :
    Stands width numCols kept (padText (spaced (charColumns width) ' ' kept) numCols) := by
  constructor
  · rw [padText, columns_spaced_append, columns_spaces hspace]
  · exact ⟨_, 0, rfl, (List.append_nil _).symm⟩

theorem stands_wide (hspace : charColumns width ' ' = 1) (hwide : charColumns width c = 2)
    (before : List Char) : Stands width numCols (before ++ [c])
      (padText (spaced (charColumns width) ' ' before ++ [c]) numCols) := by
  have hspaced : spaced (charColumns width) ' ' (before ++ [c]) =
      spaced (charColumns width) ' ' before ++ [c, ' '] := by
    rw [spaced_append, spaced_cons_two hwide, spaced_nil]
  constructor
  · rw [hspaced, padText, List.append_assoc, columns_spaced_append, total_append, total_cons,
      total_nil, hwide, List.length_append, List.length_append, List.length_singleton,
      List.singleton_append]
    cases hcount : numCols - ((spaced (charColumns width) ' ' before).length + 1) with
    | zero =>
        rw [List.replicate_zero, columns, hwide, List.length_cons, List.length_singleton]
        omega
    | succ count =>
        rw [List.replicate_succ, columns, if_pos ⟨hwide, rfl⟩, columns_spaces hspace,
          List.length_cons, List.length_singleton]
        omega
  · refine ⟨_, 1, rfl, ?_⟩
    rw [hspaced, List.append_assoc]
    rfl

/-- A line is split at its last whitespace, which is left out. -/
theorem splitWord_space {before word : List Char} (hspace : isWhitespace c = true)
    (hbyte : c.utf8Size = 1) (hword : ∀ d ∈ word, isWhitespace d = false) :
    splitWord (before ++ c :: word) false = some (before, word) := by
  have hfind : Utf8.rfind isWhitespace (before ++ c :: word) = some (Utf8.byteLen before) :=
    Utf8.rfind_append hspace hword
  have hbytes : Utf8.byteLen (before ++ [c]) = Utf8.byteLen before + 1 := by
    rw [Utf8.byteLen_append, Utf8.byteLen_cons, hbyte]
    rfl
  have hsplit := Utf8.splitAt_append (before ++ [c]) word
  rw [hbytes, List.append_assoc, List.singleton_append] at hsplit
  unfold splitWord
  rw [hfind]
  simp only [Bool.not_false, Option.filter_some, if_true, hsplit, Option.bind_eq_bind,
    Option.bind_some, List.dropLast_concat]

theorem splitWord_whitespace (line : List Char) : splitWord line true = some (line, []) := by
  unfold splitWord
  cases Utf8.rfind isWhitespace line with
  | none => rfl
  | some index => rfl

theorem Breaks.splitWord (hspace : charColumns width ' ' = 1) (h : Breaks width line kept carried)
    (numCols : Nat) :
    ∃ start, splitWord (spaced (charColumns width) ' ' line) false = some (start, carried) ∧
      Stands width numCols kept (padText start numCols) ∧
      visible start ++ visible carried = visible (spaced (charColumns width) ' ' line) := by
  cases h with
  | word hword =>
      have hself : spaced (charColumns width) ' ' line = line :=
        spaced_eq_self fun c hc => (hword c hc).2
      have hfind : Utf8.rfind isWhitespace line = none :=
        Utf8.rfind_none fun c hc => (hword c hc).1
      refine ⟨_, ?_, stands_spaced hspace line, List.append_nil _⟩
      rw [hself, Message.splitWord, hfind]
      rfl
  | @space _ _ c hc hnarrow hbyte hword =>
      have hspaced : spaced (charColumns width) ' ' (kept ++ c :: carried) =
          spaced (charColumns width) ' ' kept ++ c :: carried := by
        rw [spaced_append, spaced_cons_one hnarrow, spaced_eq_self fun d hd => (hword d hd).2]
      refine ⟨_, ?_, stands_spaced hspace kept, ?_⟩
      · rw [hspaced]
        exact splitWord_space hc hbyte fun d hd => (hword d hd).1
      · rw [hspaced, visible_append, visible_cons_space hc]
  | @wide before _ c hwide hword =>
      have hspaced : spaced (charColumns width) ' ' (before ++ c :: carried) =
          spaced (charColumns width) ' ' before ++ [c] ++ ' ' :: carried := by
        rw [spaced_append, spaced_cons_two hwide, spaced_eq_self fun d hd => (hword d hd).2,
          List.append_assoc, List.singleton_append]
      refine ⟨_, ?_, stands_wide hspace hwide before, ?_⟩
      · rw [hspaced]
        exact splitWord_space rfl rfl fun d hd => (hword d hd).1
      · rw [hspaced, visible_append _ (' ' :: carried), visible_cons_space rfl]

end Message
end Velacritty
