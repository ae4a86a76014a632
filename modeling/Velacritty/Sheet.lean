import Velacritty.TextRead
import Mathlib.Algebra.Ring.Nat

/-! A text as it is typed: the rows that are complete, and the one that is being written. -/
namespace Velacritty

namespace Cell
variable {cell : Cell}

/-- The cell of a character, and the two halves of a fullwidth one. -/
def narrow (c : Char) : Cell := { c }
def wide (c : Char) : Cell := { c, flags := { wideChar := true } }
def spacer : Cell := { flags := { wideCharSpacer := true } }

/-- Cells that do not count toward the length of a line show spaces only. -/
theorem text_of_not_isOccupied (h : cell.isOccupied = false) :
    cell.text = [] ∨ cell.text = [' '] := by
  simp only [isOccupied, Bool.or_eq_false_iff, bne_eq_false_iff_eq, beq_eq_false_iff_ne] at h
  obtain ⟨hc, hextra⟩ := h
  have hzero : cell.zerowidth.getD [] = [] := by
    unfold zerowidth
    cases hx : cell.extra with
    | none => rfl
    | some extra =>
        rw [hx] at hextra
        cases hz : extra.zerowidth with
        | nil =>
            simp only [Option.map_some, hz]
            rfl
        | cons c rest => exact absurd (by simp only [Option.map_some, hz]; rfl) hextra
  unfold text
  rw [hzero, hc]
  split
  · exact .inl rfl
  · exact .inr rfl

theorem flatMap_text_of_not_isOccupied {cells : List Cell}
    (h : ∀ cell ∈ cells, cell.isOccupied = false) :
    ∃ count, cells.flatMap text = List.replicate count ' ' := by
  induction cells with
  | nil => exact ⟨0, rfl⟩
  | cons cell cells ih =>
      obtain ⟨count, hcount⟩ := ih fun x hx => h x (List.mem_cons_of_mem _ hx)
      rw [List.flatMap_cons, hcount]
      rcases text_of_not_isOccupied (h cell List.mem_cons_self) with htext | htext
      · exact ⟨count, by rw [htext, List.nil_append]⟩
      · exact ⟨count + 1, by rw [htext]; rfl⟩

end Cell

/-- The rows that are complete, from the first one on, and the row that is being written. -/
structure Sheet where
  above : List (List Cell)
  row : List Cell

namespace Sheet
variable {columns width : Nat} {s : Sheet}

def empty : Sheet := ⟨[], []⟩

def put (s : Sheet) (cells : List Cell) : Sheet := { s with row := s.row ++ cells }

/-- Go on in a new row; the last cell of the old one is flagged. -/
def wrap (s : Sheet) : Sheet := ⟨s.above ++ [updateLast (setWrapline true) s.row], []⟩

/-- Begin a new line. -/
def feed (s : Sheet) : Sheet := ⟨s.above ++ [s.row], []⟩

def wrapFull (columns : Nat) (s : Sheet) : Sheet := if s.row.length = columns then s.wrap else s

/-- Leave the last cell of a row to a leading spacer. -/
def skipLast (columns : Nat) (s : Sheet) : Sheet :=
  if s.row.length + 1 = columns then (s.put [leadingSpacer]).wrap else s

/-- Print a character of one or two cells. -/
def print (columns width : Nat) (s : Sheet) (c : Char) : Sheet :=
  if width = 1 then (s.wrapFull columns).put [.narrow c]
  else ((s.wrapFull columns).skipLast columns).put [.wide c, .spacer]

/-! ### Its text -/

/-- The text of a row; one that goes on in the next row counts in full. -/
def rowText (cells : List Cell) : List Char :=
  if cells.getLast?.any fun cell => cell.flags.wrapline then cells.flatMap Cell.text
  else (cells.rdropWhile fun cell => !cell.isOccupied).flatMap Cell.text ++ ['\n']

/-- Everything that was typed so far. -/
def typed (s : Sheet) : List Char := s.above.flatMap rowText ++ s.row.flatMap Cell.text

/-- The text that is read, with the row being written as a line of its own. -/
def text (s : Sheet) : List Char := s.feed.typed

/-- The row being written fits, and does not go on yet. -/
structure Open (columns : Nat) (s : Sheet) : Prop where
  row_le : s.row.length ≤ columns
  going : ∀ cell ∈ s.row, cell.flags.wrapline = false ∧ cell.flags.leadingWideCharSpacer = false

theorem open_of_row_eq_nil (h : s.row = []) (columns : Nat) : s.Open columns := by
  refine ⟨?_, fun cell hcell => ?_⟩
  · rw [h]
    exact Nat.zero_le _
  · rw [h] at hcell
    cases hcell

theorem Open.put (h : s.Open columns) {cells : List Cell} (hle : s.row.length + cells.length ≤ columns)
    (hcells : ∀ cell ∈ cells, cell.flags.wrapline = false ∧ cell.flags.leadingWideCharSpacer = false) :
    (s.put cells).Open columns := by
  refine ⟨by simp only [Sheet.put, List.length_append]; exact hle, fun cell hcell => ?_⟩
  rcases List.mem_append.mp hcell with hcell | hcell
  · exact h.going cell hcell
  · exact hcells cell hcell

theorem typed_put (s : Sheet) (cells : List Cell) :
    (s.put cells).typed = s.typed ++ cells.flatMap Cell.text := by
  simp only [typed, put, List.flatMap_append, List.append_assoc]

theorem typed_wrap (h : s.row ≠ []) : s.wrap.typed = s.typed := by
  obtain ⟨cells, last, hrow⟩ := (List.eq_nil_or_concat s.row).resolve_left h
  have hwrapped : updateLast (setWrapline true) s.row = cells ++ [setWrapline true last] := by
    rw [hrow, List.concat_eq_append, updateLast_concat]
  have htext : rowText (updateLast (setWrapline true) s.row) = s.row.flatMap Cell.text := by
    rw [hwrapped, rowText, List.getLast?_concat]
    refine (if_pos rfl).trans ?_
    rw [hrow, List.concat_eq_append, List.flatMap_append, List.flatMap_append]
    rfl
  simp only [typed, wrap, List.flatMap_append, List.flatMap_cons, List.flatMap_nil, List.append_nil,
    htext]

theorem wrapFull_spec (h : s.Open columns) (hc : 0 < columns) :
    (s.wrapFull columns).typed = s.typed ∧ (s.wrapFull columns).Open columns ∧
      (s.wrapFull columns).row.length < columns := by
  unfold wrapFull
  split
  · next hfull =>
      refine ⟨typed_wrap fun hnil => ?_, open_of_row_eq_nil rfl columns, hc⟩
      rw [hnil] at hfull
      exact absurd hfull (Nat.ne_of_lt hc)
  · next hroom => exact ⟨rfl, h, Nat.lt_of_le_of_ne h.row_le hroom⟩

theorem skipLast_room (hlt : s.row.length < columns) (hc : 2 ≤ columns) :
    (s.skipLast columns).row.length + 1 < columns := by
  unfold skipLast
  split
  · exact hc
  · omega

theorem skipLast_spec (h : s.Open columns) :
    (s.skipLast columns).typed = s.typed ∧ (s.skipLast columns).Open columns := by
  unfold skipLast
  split
  · refine ⟨?_, open_of_row_eq_nil rfl columns⟩
    rw [typed_wrap (List.append_ne_nil_of_right_ne_nil _ (List.cons_ne_nil _ _)), typed_put]
    exact List.append_nil _
  · exact ⟨rfl, h⟩

theorem print_spec (h : s.Open columns) (hc : 2 ≤ columns) (width : Nat) (c : Char) :
    (s.print columns width c).typed = s.typed ++ [c] ∧ (s.print columns width c).Open columns := by
  obtain ⟨htyped, hopen, hlt⟩ := wrapFull_spec h (Nat.lt_of_lt_of_le Nat.zero_lt_two hc)
  unfold print
  split
  · refine ⟨?_, hopen.put hlt fun cell hcell => ?_⟩
    · rw [typed_put, htyped]
      rfl
    · cases List.mem_singleton.mp hcell
      exact ⟨rfl, rfl⟩
  · obtain ⟨htyped', hopen'⟩ := skipLast_spec hopen
    refine ⟨?_, hopen'.put (skipLast_room hlt hc) fun cell hcell => ?_⟩
    · rw [typed_put, htyped', htyped]
      rfl
    · rcases List.mem_cons.mp hcell with rfl | hcell
      · exact ⟨rfl, rfl⟩
      · cases List.mem_singleton.mp hcell
        exact ⟨rfl, rfl⟩

/-- A line drops its trailing blanks when it ends. -/
theorem typed_feed (h : s.Open columns) :
    ∃ kept count, s.typed = kept ++ List.replicate count ' ' ∧ s.feed.typed = kept ++ ['\n'] := by
  have hlast : (s.row.getLast?.any fun cell => cell.flags.wrapline) = false := by
    cases hlast : s.row.getLast? with
    | none => rfl
    | some cell => exact (h.going cell (List.mem_of_getLast? hlast)).1
  let occupied := s.row.rdropWhile fun cell => !cell.isOccupied
  have hblank : ∀ cell ∈ s.row.rtakeWhile fun cell => !cell.isOccupied, cell.isOccupied = false :=
    fun cell hcell => by simpa using List.mem_rtakeWhile_imp hcell
  obtain ⟨count, hcount⟩ := Cell.flatMap_text_of_not_isOccupied hblank
  refine ⟨s.above.flatMap rowText ++ occupied.flatMap Cell.text, count, ?_, ?_⟩
  · have hsplit : s.row = occupied ++ s.row.rtakeWhile fun cell => !cell.isOccupied :=
      (List.rdropWhile_append_rtakeWhile ..).symm
    rw [typed, List.append_assoc, ← hcount, ← List.flatMap_append, ← hsplit]
  · simp only [typed, feed, List.flatMap_append, List.flatMap_cons, List.flatMap_nil, List.append_nil,
      rowText, hlast, Bool.false_eq_true, if_false, List.append_assoc]
    rfl

/-- A character takes a new row if it does not fit into the old one. -/
theorem print_length (h : s.Open columns) (hw : width = 1 ∨ width = 2) (hc : 2 ≤ columns) (c : Char) :
    if s.row.length + width ≤ columns then
      (s.print columns width c).above.length = s.above.length ∧
        (s.print columns width c).row.length = s.row.length + width
    else (s.print columns width c).above.length = s.above.length + 1 ∧
        (s.print columns width c).row.length = width := by
  have hle := h.row_le
  unfold print wrapFull
  by_cases hfull : s.row.length = columns
  · rw [if_pos hfull, if_neg (by omega)]
    have hroom : (s.wrap.skipLast columns) = s.wrap := if_neg (Nat.ne_of_lt hc)
    rw [hroom]
    rcases hw with rfl | rfl
    · exact ⟨List.length_append, rfl⟩
    · exact ⟨List.length_append, rfl⟩
  · rw [if_neg hfull]
    rcases hw with rfl | rfl
    · rw [if_pos rfl, if_pos (by omega)]
      exact ⟨rfl, List.length_append⟩
    · rw [if_neg (show ¬ 2 = 1 by decide)]
      unfold skipLast
      by_cases hlast : s.row.length + 1 = columns
      · rw [if_pos hlast, if_neg (by omega)]
        exact ⟨List.length_append, rfl⟩
      · rw [if_neg hlast, if_pos (by omega)]
        exact ⟨rfl, List.length_append⟩

theorem above_length_skipLast (s : Sheet) : s.above.length ≤ (s.skipLast columns).above.length := by
  unfold skipLast
  split
  · exact List.length_append ▸ Nat.le_add_right _ _
  · exact Nat.le_refl _

/-! ### Rows that can be read -/

/-- No cell begins a tab or starts with the second half of a character, and only a full row goes
on in the next one. -/
structure Legible (columns : Nat) (cells : List Cell) : Prop where
  length_le : cells.length ≤ columns
  tab : ∀ cell ∈ cells, cell.c ≠ '\t'
  first : ∀ cell, cells.head? = some cell → cell.flags.wideCharSpacer = false
  going : cells.length = columns ∧ (cells.getLast?.any fun cell => cell.flags.wrapline) = true ∨
    ∀ cell ∈ cells, cell.flags.wrapline = false

theorem legible_nil (columns : Nat) : Legible columns [] :=
  ⟨Nat.zero_le _, fun _ h => (nomatch h), fun _ h => (nomatch h), .inr fun _ h => nomatch h⟩

/-- A character that is not a tab, alone or with its spacer. -/
theorem legible_narrow (hc : 1 ≤ columns) {c : Char} (htab : c ≠ '\t') :
    Legible columns [Cell.narrow c] := by
  refine ⟨hc, fun cell hcell => ?_, fun cell hcell => ?_, .inr fun cell hcell => ?_⟩
  · exact List.mem_singleton.mp hcell ▸ htab
  · cases hcell
    rfl
  · exact List.mem_singleton.mp hcell ▸ rfl

theorem legible_wide (hc : 2 ≤ columns) {c : Char} (htab : c ≠ '\t') :
    Legible columns [Cell.wide c, Cell.spacer] := by
  refine ⟨hc, fun cell hcell => ?_, fun cell hcell => ?_, .inr fun cell hcell => ?_⟩
  · rcases List.mem_cons.mp hcell with rfl | hcell
    · exact htab
    · exact List.mem_singleton.mp hcell ▸ (by decide)
  · cases hcell
    rfl
  · rcases List.mem_cons.mp hcell with rfl | hcell
    · rfl
    · exact List.mem_singleton.mp hcell ▸ rfl

theorem legible_leadingSpacer (hc : 1 ≤ columns) : Legible columns [leadingSpacer] := by
  refine ⟨hc, fun cell hcell => ?_, fun cell hcell => ?_, .inr fun cell hcell => ?_⟩
  · exact List.mem_singleton.mp hcell ▸ (by decide)
  · cases hcell
    rfl
  · exact List.mem_singleton.mp hcell ▸ rfl

theorem Legible.wrapped {cells : List Cell} (h : Legible columns cells) (hne : cells ≠ [])
    (hfull : cells.length = columns) : Legible columns (updateLast (setWrapline true) cells) := by
  obtain ⟨front, last, rfl⟩ := (List.eq_nil_or_concat cells).resolve_left hne
  rw [List.concat_eq_append] at h hfull ⊢
  have hlength : (front ++ [setWrapline true last]).length = (front ++ [last]).length := by
    simp only [List.length_append, List.length_singleton]
  rw [updateLast_concat]
  refine ⟨hlength ▸ h.length_le, fun cell hcell => ?_, fun cell hcell => ?_,
    .inl ⟨hlength.trans hfull, ?_⟩⟩
  · rcases List.mem_append.mp hcell with hcell | hcell
    · exact h.tab cell (List.mem_append_left _ hcell)
    · rw [List.mem_singleton.mp hcell]
      exact h.tab last List.mem_concat_self
  · cases front with
    | nil =>
        cases hcell
        exact h.first last rfl
    | cons x front => exact h.first cell hcell
  · rw [List.getLast?_concat]
    rfl

/-- Cells that follow the first ones of a row. -/
theorem Legible.append {cells more : List Cell} (h : Legible columns cells)
    (hgoing : ∀ cell ∈ cells, cell.flags.wrapline = false) (hmore : Legible columns more)
    (hgoing' : ∀ cell ∈ more, cell.flags.wrapline = false)
    (hle : cells.length + more.length ≤ columns) : Legible columns (cells ++ more) := by
  refine ⟨List.length_append ▸ hle, fun cell hcell => ?_, fun cell hcell => ?_, .inr fun cell hcell => ?_⟩
  · exact (List.mem_append.mp hcell).elim (h.tab cell) (hmore.tab cell)
  · cases cells with
    | nil => exact hmore.first cell hcell
    | cons x cells => exact h.first cell hcell
  · exact (List.mem_append.mp hcell).elim (hgoing cell) (hgoing' cell)

def AllLegible (columns : Nat) (s : Sheet) : Prop := ∀ cells ∈ s.above ++ [s.row], Legible columns cells

theorem AllLegible.next (h : s.AllLegible columns) {cells : List Cell} (hcells : Legible columns cells) :
    AllLegible columns ⟨s.above ++ [cells], []⟩ := by
  intro row hrow
  rcases List.mem_append.mp hrow with hrow | hrow
  · rcases List.mem_append.mp hrow with hrow | hrow
    · exact h row (List.mem_append_left _ hrow)
    · exact List.mem_singleton.mp hrow ▸ hcells
  · exact List.mem_singleton.mp hrow ▸ legible_nil columns

theorem AllLegible.row (h : s.AllLegible columns) : Legible columns s.row := h _ List.mem_concat_self

theorem AllLegible.put (h : s.AllLegible columns) (hopen : s.Open columns) {cells : List Cell}
    (hcells : Legible columns cells) (hgoing : ∀ cell ∈ cells, cell.flags.wrapline = false)
    (hle : s.row.length + cells.length ≤ columns) : (s.put cells).AllLegible columns := by
  intro row hrow
  rcases List.mem_append.mp hrow with hrow | hrow
  · exact h row (List.mem_append_left _ hrow)
  · rw [List.mem_singleton.mp hrow]
    exact h.row.append (fun cell hcell => (hopen.going cell hcell).1) hcells hgoing hle

theorem AllLegible.wrapFull (h : s.AllLegible columns) (hc : 0 < columns) :
    (s.wrapFull columns).AllLegible columns := by
  unfold Sheet.wrapFull
  split
  · next hfull =>
      refine h.next (h.row.wrapped (fun hnil => ?_) hfull)
      rw [hnil] at hfull
      exact absurd hfull (Nat.ne_of_lt hc)
  · exact h

theorem AllLegible.skipLast (h : s.AllLegible columns) (hopen : s.Open columns) (hc : 0 < columns) :
    (s.skipLast columns).AllLegible columns := by
  unfold Sheet.skipLast
  split
  · next hlast =>
      have hput : (s.put [leadingSpacer]).AllLegible columns := by
        refine h.put hopen (legible_leadingSpacer hc) (fun cell hcell => ?_) (Nat.le_of_eq hlast)
        exact List.mem_singleton.mp hcell ▸ rfl
      refine hput.next (hput.row.wrapped ?_ ?_)
      · exact List.append_ne_nil_of_right_ne_nil _ (List.cons_ne_nil _ _)
      · exact List.length_append.trans hlast
  · exact h

theorem AllLegible.print (h : s.AllLegible columns) (hopen : s.Open columns) (hc : 2 ≤ columns)
    (width : Nat) {c : Char} (htab : c ≠ '\t') : (s.print columns width c).AllLegible columns := by
  have hpos : 0 < columns := Nat.lt_of_lt_of_le Nat.zero_lt_two hc
  have hfull := h.wrapFull hpos
  obtain ⟨-, hopen', hlt⟩ := wrapFull_spec hopen hpos
  unfold Sheet.print
  split
  · refine hfull.put hopen' (legible_narrow hpos htab) (fun cell hcell => ?_) hlt
    exact List.mem_singleton.mp hcell ▸ rfl
  · refine (hfull.skipLast hopen' hpos).put (skipLast_spec hopen').2 (legible_wide hc htab)
      (fun cell hcell => ?_) (skipLast_room hlt hc)
    rcases List.mem_cons.mp hcell with rfl | hcell
    · rfl
    · exact List.mem_singleton.mp hcell ▸ rfl

/-! ### Typing lines -/

def type (columns : Nat) (width : Char → Nat) (s : Sheet) (line : List Char) : Sheet :=
  line.foldl (fun s c => s.print columns (width c) c) s

/-- Type lines, each in rows of its own. -/
def typeLines (columns : Nat) (width : Char → Nat) : Sheet → List (List Char) → Sheet
  | s, [] => s
  | s, [line] => s.type columns width line
  | s, line :: rest => typeLines columns width (s.type columns width line).feed rest

/-- How often a line wraps that is written from `column` on. -/
def wraps (columns : Nat) (width : Char → Nat) : Nat → List Char → Nat
  | _, [] => 0
  | column, c :: rest =>
      if column + width c ≤ columns then wraps columns width (column + width c) rest
      else wraps columns width (width c) rest + 1

/-- The number of rows that lines take. -/
def rows (columns : Nat) (width : Char → Nat) (text : List (List Char)) : Nat :=
  (text.map fun line => wraps columns width 0 line + 1).sum

section
variable {width : Char → Nat} {line : List Char}

theorem type_spec (h : s.Open columns) (hc : 2 ≤ columns) (width : Char → Nat) (line : List Char) :
    (s.type columns width line).typed = s.typed ++ line ∧
      (s.type columns width line).Open columns := by
  induction line generalizing s with
  | nil => exact ⟨(List.append_nil _).symm, h⟩
  | cons c rest ih =>
      obtain ⟨htyped, hopen⟩ := print_spec h hc (width c) c
      obtain ⟨htyped', hopen'⟩ := ih hopen
      refine ⟨?_, hopen'⟩
      rw [type, List.foldl_cons, ← type, htyped', htyped, List.append_assoc]
      rfl

theorem type_length (h : s.Open columns) (hw : ∀ c ∈ line, width c = 1 ∨ width c = 2)
    (hc : 2 ≤ columns) :
    (s.type columns width line).above.length =
      s.above.length + wraps columns width s.row.length line := by
  induction line generalizing s with
  | nil => rfl
  | cons c rest ih =>
      have hlength := print_length h (hw c List.mem_cons_self) hc c
      rw [type, List.foldl_cons, ← type,
        ih (print_spec h hc (width c) c).2 fun x hx => hw x (List.mem_cons_of_mem _ hx), wraps]
      split at hlength
      · next hle =>
          rw [if_pos hle, hlength.1, hlength.2]
      · next hlt =>
          rw [if_neg hlt, hlength.1, hlength.2]
          omega

theorem type_legible (h : s.AllLegible columns) (hopen : s.Open columns) (hc : 2 ≤ columns)
    (width : Char → Nat) (htab : ∀ c ∈ line, c ≠ '\t') : (s.type columns width line).AllLegible columns := by
  induction line generalizing s with
  | nil => exact h
  | cons c rest ih =>
      have hprint := h.print hopen hc (width c) (htab c List.mem_cons_self)
      exact ih hprint (print_spec hopen hc (width c) c).2 fun x hx => htab x (List.mem_cons_of_mem _ hx)

theorem typeLines_legible {text : List (List Char)} (h : s.AllLegible columns) (hs : s.row = [])
    (hc : 2 ≤ columns) (width : Char → Nat) (htab : ∀ line ∈ text, ∀ c ∈ line, c ≠ '\t') :
    (s.typeLines columns width text).AllLegible columns ∧
      (s.typeLines columns width text).Open columns := by
  induction text generalizing s with
  | nil => exact ⟨h, open_of_row_eq_nil hs columns⟩
  | cons line rest ih =>
      have hopen := open_of_row_eq_nil hs columns
      have htyped := type_legible h hopen hc width (htab line List.mem_cons_self)
      cases rest with
      | nil => exact ⟨htyped, (type_spec hopen hc width line).2⟩
      | cons next rest =>
          have hfeed : (s.type columns width line).feed.AllLegible columns := htyped.next htyped.row
          exact ih hfeed rfl fun x hx => htab x (List.mem_cons_of_mem _ hx)

/-- The kept part of the lines, up to trailing blanks of each one. -/
def Kept (out text : List (List Char)) : Prop :=
  List.Forall₂ (fun kept line => ∃ count, line = kept ++ List.replicate count ' ') out text

/-- Blanks at the end of what follows a complete line are blanks of the line that follows. -/
theorem kept_of_append {before line kept : List Char} {count : Nat}
    (hbefore : before = [] ∨ before.getLast? = some '\n')
    (h : before ++ line = kept ++ List.replicate count ' ') :
    ∃ rest, kept = before ++ rest ∧ ∃ count, line = rest ++ List.replicate count ' ' := by
  rcases List.append_eq_append_iff.mp h with ⟨rest, hkept, hline⟩ | ⟨rest, hbefore', hblank⟩
  · exact ⟨rest, hkept, count, hline⟩
  · have hrest : ∀ c ∈ rest, c = ' ' := fun c hc =>
      List.eq_of_mem_replicate (hblank ▸ List.mem_append_left _ hc : c ∈ List.replicate count ' ')
    have hline : ∀ c ∈ line, c = ' ' := fun c hc =>
      List.eq_of_mem_replicate (hblank ▸ List.mem_append_right _ hc : c ∈ List.replicate count ' ')
    have hnil : rest = [] := by
      rcases hbefore with hnil | hlast
      · rw [hnil] at hbefore'
        exact (List.append_eq_nil_iff.mp hbefore'.symm).2
      · by_contra hne
        rw [hbefore', List.getLast?_append_of_ne_nil _ hne] at hlast
        exact absurd (hrest _ (List.mem_of_getLast? hlast)) (by decide)
    refine ⟨[], ?_, line.length, ?_⟩
    · rw [hbefore', hnil, List.append_nil, List.append_nil]
    · exact List.eq_replicate_iff.mpr ⟨rfl, hline⟩

/-- A line of its own is read back up to trailing blanks. -/
theorem type_feed (hs : s.row = []) (hbefore : s.typed = [] ∨ s.typed.getLast? = some '\n')
    (hc : 2 ≤ columns) (width : Char → Nat) (line : List Char) :
    ∃ kept, (∃ count, line = kept ++ List.replicate count ' ') ∧
      (s.type columns width line).feed.typed = s.typed ++ kept ++ ['\n'] := by
  obtain ⟨htyped, hopen⟩ := type_spec (open_of_row_eq_nil hs columns) hc width line
  obtain ⟨kept, count, heq, hfeed⟩ := typed_feed hopen
  obtain ⟨rest, rfl, hline⟩ := kept_of_append hbefore (htyped ▸ heq)
  exact ⟨rest, hline, hfeed⟩

/-- The lines that were typed are read back, up to trailing blanks of each one. -/
theorem typeLines_text {text : List (List Char)} (hs : s.row = [])
    (hbefore : s.typed = [] ∨ s.typed.getLast? = some '\n') (hc : 2 ≤ columns)
    (width : Char → Nat) (hne : text ≠ []) :
    ∃ out, Kept out text ∧ (s.typeLines columns width text).text =
      s.typed ++ ['\n'].intercalate out ++ ['\n'] := by
  induction text generalizing s with
  | nil => exact absurd rfl hne
  | cons line rest ih =>
      obtain ⟨kept, hline, hfeed⟩ := type_feed hs hbefore hc width line
      cases rest with
      | nil =>
          refine ⟨[kept], .cons hline .nil, ?_⟩
          rw [typeLines, text, hfeed, List.intercalate_singleton]
      | cons next rest =>
          have hlast : (s.type columns width line).feed.typed.getLast? = some '\n' := by
            rw [hfeed, List.getLast?_concat]
          obtain ⟨out, hout, htext⟩ := ih (s := (s.type columns width line).feed) rfl (.inr hlast)
            (List.cons_ne_nil _ _)
          refine ⟨kept :: out, .cons hline hout, ?_⟩
          rw [typeLines, htext, hfeed]
          cases hout with
          | cons _ _ =>
              rw [List.intercalate_cons_cons]
              simp only [List.append_assoc]
          exact List.cons_ne_nil _ _

end

end Sheet
end Velacritty
