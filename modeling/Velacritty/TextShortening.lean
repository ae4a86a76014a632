import Velacritty.StrShortener

/-! Which part of a text is left when it is shortened. -/
namespace Velacritty
open Fallible Text

namespace StrShortener
variable {width : Char → Option Nat} {text chars part rest : List Char} {ch : Char}
  {shortener : Option Char} {direction : ShortenDirection} {maxWidth accumulatedLen offset len : Nat}
  {items : List Char}

/-- The iterator that goes on with a character. -/
def atChar (maxWidth : Nat) (direction : ShortenDirection) (shortener : Option Char)
    (accumulatedLen : Nat) (chars : List Char) : StrShortener :=
  ⟨chars, accumulatedLen, maxWidth, direction, shortener, .char⟩

/-- The columns that the shortener takes. -/
def room (shortener : Option Char) : Nat := shortener.toList.length

theorem room_le_one (shortener : Option Char) : room shortener ≤ 1 := by
  cases shortener with
  | none => exact Nat.zero_le 1
  | some c => exact Nat.le_refl 1

theorem isSome_iff_room : shortener.isSome ↔ room shortener = 1 := by
  cases shortener with
  | none => exact iff_of_false nofun nofun
  | some c => exact iff_of_true rfl rfl

/-- A character that fits beside the shortener is yielded, with its spacer. -/
theorem yields_char (hfits : accumulatedLen + charWidth width ch + room shortener ≤ maxWidth)
    (h : Yields (next width)
      (atChar maxWidth direction shortener (accumulatedLen + charWidth width ch) chars) items) :
    Yields (next width) (atChar maxWidth direction shortener accumulatedLen (ch :: chars))
      ((if charWidth width ch = 2 then [ch, ' '] else [ch]) ++ items) := by
  have hover : ¬ maxWidth < accumulatedLen + charWidth width ch := by omega
  have hexact : ¬ (accumulatedLen + charWidth width ch = maxWidth ∧ shortener.isSome) := by
    rw [isSome_iff_room]
    omega
  have hnext : next width (atChar maxWidth direction shortener accumulatedLen (ch :: chars)) =
      (some ch, if charWidth width ch = 2 then
        { atChar maxWidth direction shortener (accumulatedLen + charWidth width ch) chars with
          textAction := .spacer }
        else atChar maxWidth direction shortener (accumulatedLen + charWidth width ch) chars) :=
    (if_neg hover).trans (if_neg hexact)
  by_cases hwide : charWidth width ch = 2
  · rw [if_pos hwide] at hnext ⊢
    apply Yields.yield hnext
    exact Yields.yield rfl h
  · rw [if_neg hwide] at hnext ⊢
    exact Yields.yield hnext h

theorem yields_pass
    (hfits : accumulatedLen + total (charWidth width) text + room shortener ≤ maxWidth)
    (h : Yields (next width) (atChar maxWidth direction shortener
      (accumulatedLen + total (charWidth width) text) rest) items) :
    Yields (next width) (atChar maxWidth direction shortener accumulatedLen (text ++ rest))
      (spaced (charWidth width) ' ' text ++ items) := by
  induction text generalizing accumulatedLen with
  | nil => exact h
  | cons ch text ih =>
      rw [total_cons, ← Nat.add_assoc] at hfits h
      rw [spaced_cons, List.append_assoc]
      apply yields_char (by omega)
      exact ih hfits h

theorem yields_nil : Yields (next width) (atChar maxWidth direction shortener accumulatedLen []) [] :=
  Yields.stop rfl

/-- The first character that does not fit is replaced by the shortener. -/
theorem yields_over (h : maxWidth < accumulatedLen + charWidth width ch) :
    Yields (next width) (atChar maxWidth direction shortener accumulatedLen (ch :: chars))
      shortener.toList := by
  have hnext : next width (atChar maxWidth direction shortener accumulatedLen (ch :: chars)) =
      (shortener, ⟨chars, accumulatedLen + charWidth width ch, maxWidth, direction, shortener,
        .terminate⟩) := if_pos h
  cases shortener with
  | none => exact Yields.stop (congrArg Prod.fst hnext)
  | some c => exact Yields.yield hnext (Yields.stop rfl)

/-- So is a character that fits exactly, unless it is the last one. -/
theorem yields_exact {c : Char} (h : accumulatedLen + charWidth width ch = maxWidth) :
    Yields (next width) (atChar maxWidth direction (some c) accumulatedLen (ch :: chars))
      [if chars = [] then ch else c] := by
  have hnext : next width (atChar maxWidth direction (some c) accumulatedLen (ch :: chars)) =
      (some (if chars = [] then ch else c), ⟨chars, accumulatedLen + charWidth width ch, maxWidth,
        direction, some c, .terminate⟩) := by
    refine (if_neg (Nat.not_lt.mpr h.le)).trans ((if_pos ⟨h, rfl⟩).trans ?_)
    show (if chars ≠ [] then some c else some ch, _) = _
    by_cases hlast : chars = []
    · rw [if_neg (not_not.mpr hlast), if_pos hlast]
      rfl
    · rw [if_pos hlast, if_neg hlast]
      rfl
  exact Yields.yield hnext (Yields.stop rfl)

theorem yields_whole (hfits : total (charWidth width) text + room shortener ≤ maxWidth) :
    Yields (next width) (atChar maxWidth direction shortener 0 text)
      (spaced (charWidth width) ' ' text) := by
  have hpass : Yields (next width) (atChar maxWidth direction shortener 0 (text ++ []))
      (spaced (charWidth width) ' ' text ++ []) := yields_pass (by omega) yields_nil
  rwa [List.append_nil, List.append_nil] at hpass

/-- Without a shortener, the longest start that fits is yielded. -/
theorem yields_start (h : LongestStart (charWidth width) maxWidth text part) :
    Yields (next width) (atChar maxWidth direction none 0 text)
      (spaced (charWidth width) ' ' part) := by
  by_cases hfits : total (charWidth width) text ≤ maxWidth
  · rw [h.unique (longestStart_self hfits)]
    exact yields_whole hfits
  · obtain ⟨start, ch, rest, rfl, hstart, hch⟩ := exists_crossing (Nat.not_le.mp hfits)
    rw [h.unique (longestStart_crossing hstart hch)]
    have hpass : Yields (next width) (atChar maxWidth direction none 0 (start ++ ch :: rest))
        (spaced (charWidth width) ' ' start ++ []) := by
      apply yields_pass
      · rwa [Nat.zero_add]
      · apply yields_over
        rwa [Nat.zero_add]
    rwa [List.append_nil] at hpass

/-- What is yielded when the end of a text is cut off. -/
theorem new_right_yields (width : Char → Option Nat) (text : List Char) (shortener : Option Char)
    (hmax : 1 ≤ maxWidth) :
    (total (charWidth width) text + room shortener ≤ maxWidth ∧
      Yields (next width) (new width text maxWidth .right shortener)
        (spaced (charWidth width) ' ' text)) ∨
    ∃ part ch rest, text = part ++ ch :: rest ∧
      total (charWidth width) part + room shortener ≤ maxWidth ∧
      maxWidth < total (charWidth width) part + charWidth width ch + room shortener ∧
      Yields (next width) (new width text maxWidth .right shortener)
        (spaced (charWidth width) ' ' part ++
          if shortener.isSome ∧ total (charWidth width) part + charWidth width ch = maxWidth ∧
            rest = [] then [ch] else shortener.toList) := by
  have hroom := room_le_one shortener
  by_cases hempty : text = []
  · subst hempty
    refine .inl ⟨?_, yields_nil⟩
    rw [total_nil]
    omega
  · have hnew : new width text maxWidth .right shortener = atChar maxWidth .right shortener 0 text := by
      simp only [new, if_neg hempty, atChar]
    rw [hnew]
    by_cases hfits : total (charWidth width) text + room shortener ≤ maxWidth
    · exact .inl ⟨hfits, yields_whole hfits⟩
    · have hcut : maxWidth - room shortener < total (charWidth width) text := by omega
      obtain ⟨part, ch, rest, rfl, hpart, hch⟩ := exists_crossing hcut
      refine .inr ⟨part, ch, rest, rfl, by omega, by omega, ?_⟩
      apply yields_pass (by omega)
      rw [Nat.zero_add]
      by_cases hover : maxWidth < total (charWidth width) part + charWidth width ch
      · rw [if_neg (by omega)]
        exact yields_over hover
      · cases shortener with
        | none => exact absurd hch (by simp only [room, Option.toList_none, List.length_nil]; omega)
        | some c =>
            have hone : room (some c) = 1 := rfl
            have hexact : total (charWidth width) part + charWidth width ch = maxWidth := by omega
            have hyields : Yields (next width) (atChar maxWidth .right (some c)
                (total (charWidth width) part) (ch :: rest)) [if rest = [] then ch else c] :=
              yields_exact hexact
            by_cases hlast : rest = []
            · rw [if_pos ⟨rfl, hexact, hlast⟩]
              rwa [if_pos hlast] at hyields
            · rw [if_neg fun h => hlast h.2.2]
              rwa [if_neg hlast] at hyields

/-- Characters that fit beside the shortener are walked over. -/
theorem leftScan_pass {iter : List (Char × Nat)}
    (hfits : len + total (charWidth width) chars + room shortener ≤ maxWidth) :
    leftScan width maxWidth offset len shortener (chars.zipIdx offset ++ iter) =
      leftScan width maxWidth (offset + chars.length) (len + total (charWidth width) chars)
        shortener iter := by
  induction chars generalizing offset len with
  | nil => rfl
  | cons ch chars ih =>
      rw [total_cons, ← Nat.add_assoc] at hfits
      rw [List.zipIdx_cons, List.cons_append, leftScan, List.length_cons, total_cons,
        ← Nat.add_assoc len, Nat.add_comm chars.length 1, ← Nat.add_assoc offset, ← ih hfits]
      rw [if_neg (by omega)]
      split
      · cases shortener with
        | none => rw [if_neg fun h => nomatch h.1]
        | some c =>
            have hone : room (some c) = 1 := rfl
            omega
      · rfl

/-- The walk stops at a character that does not fit beside the shortener, unless it is the first of
the text and fits without one. -/
theorem leftScan_cut (hpart : total (charWidth width) part + room shortener ≤ maxWidth)
    (hch : maxWidth < total (charWidth width) part + charWidth width ch + room shortener)
    (hstop : maxWidth < total (charWidth width) part + charWidth width ch ∨ rest ≠ []) :
    leftScan width maxWidth 0 0 shortener (part ++ ch :: rest).zipIdx =
      ⟨part.length, total (charWidth width) part + charWidth width ch, shortener,
        rest.zipIdx (part.length + 1)⟩ := by
  rw [List.zipIdx_append, List.zipIdx_cons, leftScan_pass (by omega), Nat.zero_add, Nat.zero_add,
    leftScan]
  by_cases hover : maxWidth < total (charWidth width) part + charWidth width ch
  · rw [if_pos hover]
  · have hrest := hstop.resolve_left hover
    cases shortener with
    | none => exact absurd hch hover
    | some c =>
        have hone : room (some c) = 1 := rfl
        rw [if_neg hover, if_pos (by omega), if_pos]
        refine ⟨rfl, fun hnil => hrest ?_⟩
        exact List.zipIdx_eq_nil_iff.mp hnil

theorem yields_shortener {c : Char} (h : Yields (next width) (atChar maxWidth .left none 0 chars) items) :
    Yields (next width) ⟨chars, 0, maxWidth, .left, some c, .shortener⟩ (c :: items) :=
  Yields.yield rfl h

theorem new_left_of_scan {shortener' : Option Char} {iter : List (Char × Nat)} (hne : text ≠ [])
    (hscan : leftScan width maxWidth 0 0 shortener text.reverse.zipIdx =
      ⟨offset, len, shortener', iter⟩) : new width text maxWidth .left shortener =
      ⟨text.drop ((iter.getLast?.map fun (_, idx) => idx + 1).getD offset - offset), 0, maxWidth,
        .left, shortener', if len < maxWidth ∨ shortener'.isNone then .char else .shortener⟩ := by
  simp only [new, if_neg hne, hscan]

theorem new_left_whole (hfits : total (charWidth width) text + room shortener ≤ maxWidth) :
    Yields (next width) (new width text maxWidth .left shortener)
      (spaced (charWidth width) ' ' text) := by
  by_cases hempty : text = []
  · subst hempty
    cases maxWidth with
    | zero => exact yields_nil
    | succ maxWidth => exact yields_nil
  · have hreverse : total (charWidth width) text.reverse = total (charWidth width) text :=
      total_reverse
    have hscan : leftScan width maxWidth 0 0 shortener (text.reverse.zipIdx ++ []) = _ :=
      leftScan_pass (by omega)
    rw [List.append_nil] at hscan
    have haction : 0 + total (charWidth width) text.reverse < maxWidth ∨ shortener.isNone := by
      cases shortener with
      | none => exact .inr rfl
      | some c =>
          have hone : room (some c) = 1 := rfl
          exact .inl (by omega)
    rw [new_left_of_scan hempty hscan, if_pos haction, List.getLast?_nil, Option.map_none,
      Option.getD_none, Nat.sub_self, List.drop_zero]
    exact yields_whole hfits

/-- A text that fits without the shortener only is not cut either, if its first character takes a
column. -/
theorem new_left_exact {c : Char} (hmax : total (charWidth width) (ch :: part) = maxWidth)
    (hch : 1 ≤ charWidth width ch) :
    Yields (next width) (new width (ch :: part) maxWidth .left (some c))
      (spaced (charWidth width) ' ' (ch :: part)) := by
  have hone : room (some c) = 1 := rfl
  have hreverse : total (charWidth width) part.reverse = total (charWidth width) part := total_reverse
  rw [total_cons] at hmax
  have hscan : leftScan width maxWidth 0 0 (some c) (ch :: part).reverse.zipIdx =
      ⟨part.reverse.length + 1, maxWidth, none, []⟩ := by
    rw [List.reverse_cons, List.zipIdx_append, leftScan_pass (by omega), List.zipIdx_singleton,
      leftScan, if_neg (by omega), if_pos (by omega), if_neg fun h => h.2 rfl, leftScan]
    rw [Nat.zero_add, Nat.zero_add, hreverse, Nat.add_comm (total _ _), hmax]
  rw [new_left_of_scan (List.cons_ne_nil ch part) hscan, if_pos (.inr rfl), List.getLast?_nil,
    Option.map_none, Option.getD_none, Nat.sub_self, List.drop_zero]
  exact yields_whole hmax.le

/-- A text that does not fit is cut after the character that does not fit, unless that is the first
one of the text. -/
theorem new_left_cut (hpart : total (charWidth width) part + room shortener ≤ maxWidth)
    (hch : maxWidth < total (charWidth width) part + charWidth width ch + room shortener)
    (hstop : maxWidth < total (charWidth width) part + charWidth width ch ∨ rest ≠ [])
    {left : List Char} (hleft : left = if rest = [] then ch :: part else part)
    (hkept : LongestStart (charWidth width) maxWidth left chars) :
    Yields (next width) (new width (rest ++ ch :: part) maxWidth .left shortener)
      (shortener.toList ++ spaced (charWidth width) ' ' chars) := by
  have hreverse : total (charWidth width) part.reverse = total (charWidth width) part := total_reverse
  have hne : rest ++ ch :: part ≠ [] := by simp
  have hscan : leftScan width maxWidth 0 0 shortener (rest ++ ch :: part).reverse.zipIdx =
      ⟨part.reverse.length, total (charWidth width) part.reverse + charWidth width ch, shortener,
        rest.reverse.zipIdx (part.reverse.length + 1)⟩ := by
    rw [List.reverse_append, List.reverse_cons, List.append_assoc, List.singleton_append]
    apply leftScan_cut
    · omega
    · omega
    · rw [hreverse, ne_eq, List.reverse_eq_nil_iff]
      exact hstop
  have hchars : (rest ++ ch :: part).drop (((rest.reverse.zipIdx (part.reverse.length + 1)).getLast?.map
      fun (_, idx) => idx + 1).getD part.reverse.length - part.reverse.length) = left := by
    rw [hleft, List.getLast?_zipIdx, Option.map_map]
    by_cases hrest : rest = []
    · subst hrest
      rw [if_pos rfl, List.reverse_nil, List.getLast?_nil, Option.map_none, Option.getD_none,
        Nat.sub_self, List.drop_zero, List.nil_append]
    · obtain ⟨a, rest, rfl⟩ := List.exists_cons_of_ne_nil hrest
      have hlength : (a :: rest).length = rest.length + 1 := rfl
      rw [if_neg hrest, List.getLast?_reverse, List.head?_cons, Option.map_some, Option.getD_some]
      simp only [Function.comp_apply, List.length_reverse, hlength]
      have hskip : part.length + 1 + (rest.length + 1) - 1 + 1 - part.length =
          (a :: rest).length + 1 := by
        omega
      rw [hskip, List.drop_length_add_append]
      rfl
  rw [new_left_of_scan hne hscan, hchars]
  cases shortener with
  | none =>
      rw [if_pos (.inr rfl)]
      exact yields_start hkept
  | some c =>
      have hone : room (some c) = 1 := rfl
      rw [if_neg (by simp only [Option.isNone_some, Bool.false_eq_true, or_false]; omega)]
      exact yields_shortener (yields_start hkept)

theorem new_left_yields (width : Char → Option Nat) (text : List Char) (shortener : Option Char)
    (hmax : 1 ≤ maxWidth) :
    (total (charWidth width) text + room shortener ≤ maxWidth ∧
      Yields (next width) (new width text maxWidth .left shortener)
        (spaced (charWidth width) ' ' text)) ∨
    (∃ ch part, text = ch :: part ∧ shortener.isSome ∧ 1 ≤ charWidth width ch ∧
      total (charWidth width) text = maxWidth ∧
      Yields (next width) (new width text maxWidth .left shortener)
        (spaced (charWidth width) ' ' text)) ∨
    (∃ ch part kept, text = ch :: part ∧
      total (charWidth width) part + room shortener ≤ maxWidth ∧
      maxWidth < total (charWidth width) text ∧
      LongestStart (charWidth width) maxWidth text kept ∧
      Yields (next width) (new width text maxWidth .left shortener)
        (shortener.toList ++ spaced (charWidth width) ' ' kept)) ∨
    ∃ rest ch part, text = rest ++ ch :: part ∧ rest ≠ [] ∧
      total (charWidth width) part + room shortener ≤ maxWidth ∧
      maxWidth < total (charWidth width) part + charWidth width ch + room shortener ∧
      Yields (next width) (new width text maxWidth .left shortener)
        (shortener.toList ++ spaced (charWidth width) ' ' part) := by
  have hroom := room_le_one shortener
  by_cases hfits : total (charWidth width) text + room shortener ≤ maxWidth
  · exact .inl ⟨hfits, new_left_whole hfits⟩
  · have hcut : maxWidth - room shortener < total (charWidth width) text := by omega
    obtain ⟨rest, ch, part, rfl, hend, hch⟩ := exists_crossing_end hcut
    by_cases hrest : rest = []
    · subst hrest
      rw [List.nil_append] at hfits ⊢
      rw [total_cons] at hfits
      by_cases hover : maxWidth < total (charWidth width) part + charWidth width ch
      · obtain ⟨kept, hkept⟩ := exists_longestStart (charWidth width) maxWidth (ch :: part)
        refine .inr (.inr (.inl ⟨ch, part, kept, rfl, by omega, ?_, hkept, ?_⟩))
        · rw [total_cons]
          omega
        · have hcutEnd : Yields (next width) (new width ([] ++ ch :: part) maxWidth .left shortener)
              (shortener.toList ++ spaced (charWidth width) ' ' kept) :=
            new_left_cut (by omega) (by omega) (.inl hover) rfl hkept
          exact hcutEnd
      · cases shortener with
        | none => exact absurd hch (by simp only [room, Option.toList_none, List.length_nil]; omega)
        | some c =>
            have hone : room (some c) = 1 := rfl
            have htotal : total (charWidth width) (ch :: part) = maxWidth := by
              rw [total_cons]
              omega
            refine .inr (.inl ⟨ch, part, rfl, rfl, by omega, htotal, ?_⟩)
            exact new_left_exact htotal (by omega)
    · refine .inr (.inr (.inr ⟨rest, ch, part, rfl, hrest, by omega, by omega, ?_⟩))
      apply new_left_cut (by omega) (by omega) (.inr hrest) (if_neg hrest).symm
      exact longestStart_self (by omega)

end StrShortener
end Velacritty
