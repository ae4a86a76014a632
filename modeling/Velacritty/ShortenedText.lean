import Velacritty.Fallible
import Velacritty.TextShortening

/-! When a shortened text is the longest one that fits. -/
namespace Velacritty
open Fallible Text

namespace StrShortener
variable {width : Char → Option Nat} {text part rest yielded items : List Char} {ch : Char}
  {shortener : Option Char} {direction : ShortenDirection} {maxWidth : Nat}

/-- A text fits, or is cut as little as possible, with the shortener where it is cut. -/
structure Shortens (width : Char → Option Nat) (text : List Char) (maxWidth : Nat)
    (direction : ShortenDirection) (shortener : Option Char) (yielded : List Char) : Prop where
  fits : columns (charWidth width) ' ' yielded ≤ maxWidth
  whole : yielded = spaced (charWidth width) ' ' text ↔ total (charWidth width) text ≤ maxWidth
  cut : maxWidth < total (charWidth width) text → match direction with
    | .right => ∃ part, LongestStart (charWidth width) (maxWidth - room shortener) text part ∧
        yielded = spaced (charWidth width) ' ' part ++ shortener.toList
    | .left => ∃ part, LongestEnd (charWidth width) (maxWidth - room shortener) text part ∧
        yielded = shortener.toList ++ spaced (charWidth width) ' ' part

/-- A text that fits exactly is cut, or loses its last spacer; or its first character does not fit
and is not cut off, although the characters differ. -/
def Slips (width : Char → Option Nat) (text : List Char) (maxWidth : Nat)
    (shortener : Option Char) : ShortenDirection → Prop
  | .right => shortener.isSome ∧ total (charWidth width) text = maxWidth ∧
      ∃ ch, text.getLast? = some ch ∧ (charWidth width ch = 0 ∨ charWidth width ch = 2)
  | .left => (shortener.isSome ∧ total (charWidth width) text = maxWidth ∧
      ∃ ch, text.head? = some ch ∧ charWidth width ch = 0) ∨
      maxWidth < total (charWidth width) text ∧
        total (charWidth width) text.tail + room shortener ≤ maxWidth ∧
        ∃ c ∈ text, ∃ d ∈ text, c ≠ d

theorem shortened_eq (h : Yields (next width) (new width text maxWidth direction shortener) items)
    (hlength : items.length ≤ 2 * text.length + 1) :
    shortened width text maxWidth direction shortener = some items :=
  h.collect_eq (Nat.lt_succ_of_le hlength)

theorem columns_shortener (h : ∀ c ∈ shortener, width c = some 1) :
    columns (charWidth width) ' ' shortener.toList = room shortener := by
  cases shortener with
  | none => rfl
  | some c =>
      have hc : charWidth width c = 1 := by
        unfold charWidth
        rw [h c rfl, Option.getD_some]
      exact hc

theorem columns_shortener_append (h : ∀ c ∈ shortener, width c = some 1) (text : List Char) :
    columns (charWidth width) ' ' (shortener.toList ++ text) =
      room shortener + columns (charWidth width) ' ' text := by
  cases shortener with
  | none => exact (Nat.zero_add _).symm
  | some c =>
      have hc : charWidth width c = 1 := by
        unfold charWidth
        rw [h c rfl, Option.getD_some]
      have hcons : columns (charWidth width) ' ' (c :: text) = _ := columns_cons_one (by omega)
      rw [hc] at hcons
      exact hcons

theorem shortens_whole (hfits : total (charWidth width) text ≤ maxWidth) :
    Shortens width text maxWidth direction shortener (spaced (charWidth width) ' ' text) := by
  refine ⟨?_, iff_of_true rfl hfits, fun hover => absurd hfits (Nat.not_le.mpr hover)⟩
  rwa [columns_spaced]

theorem ne_spaced (hfits : columns (charWidth width) ' ' yielded ≤ maxWidth)
    (hover : maxWidth < total (charWidth width) text) :
    ¬ (yielded = spaced (charWidth width) ' ' text) := by
  rintro rfl
  rw [columns_spaced] at hfits
  omega

/-- The text is not left as it is, although it fits. -/
theorem not_shortens_of_ne (hfits : total (charWidth width) text ≤ maxWidth)
    (hne : ¬ yielded = spaced (charWidth width) ' ' text) :
    ¬ Shortens width text maxWidth direction shortener yielded := fun h => hne (h.whole.mpr hfits)

/-- The shortener and part of a text are too short to be that text. -/
theorem ne_spaced_of_length (h : yielded.length < (spaced (charWidth width) ' ' text).length) :
    ¬ yielded = spaced (charWidth width) ' ' text := fun heq => absurd (congrArg List.length heq) h.ne

theorem shortened_iff_of_yields {slips : Prop}
    (h : Yields (next width) (new width text maxWidth direction shortener) items)
    (hlength : items.length ≤ 2 * text.length + 1)
    (hiff : Shortens width text maxWidth direction shortener items ↔ ¬ slips) :
    Returns (shortened width text maxWidth direction shortener)
      (Shortens width text maxWidth direction shortener) ↔ ¬ slips := by
  rw [← hiff]
  have heq := shortened_eq h hlength
  exact ⟨fun hreturns => hreturns.of_eq heq, fun hshortens => ⟨items, heq, hshortens⟩⟩

/-- The last character fits exactly, and gets no spacer. -/
theorem shortens_iff_of_exact (hsome : shortener.isSome)
    (hexact : total (charWidth width) (part ++ [ch]) = maxWidth) (hpos : 1 ≤ charWidth width ch) :
    Shortens width (part ++ [ch]) maxWidth .right shortener
      (spaced (charWidth width) ' ' part ++ [ch]) ↔
      ¬ Slips width (part ++ [ch]) maxWidth shortener .right := by
  have hlast : (part ++ [ch]).getLast? = some ch := by
    rw [List.getLast?_append, List.getLast?_singleton, Option.some_or]
  by_cases hwide : charWidth width ch = 2
  · apply iff_of_false
    · apply not_shortens_of_ne hexact.le
      apply ne_spaced_of_length
      rw [spaced_append, spaced_cons_two hwide, List.length_append, List.length_append]
      exact Nat.add_lt_add_left (Nat.lt_succ_self 1) _
    · exact not_not.mpr ⟨hsome, hexact, ch, hlast, .inr hwide⟩
  · apply iff_of_true
    · have hwhole : Shortens width (part ++ [ch]) maxWidth .right shortener _ :=
        shortens_whole hexact.le
      rwa [spaced_append, spaced_cons_one hwide] at hwhole
    · rintro ⟨-, -, c, hc, hnarrow⟩
      obtain rfl := Option.some.inj (hlast.symm.trans hc)
      rcases hnarrow with hzero | htwo
      · omega
      · exact hwide htwo

/-- The end of the text is cut off. -/
theorem shortens_iff_of_cut_right (hshortener : ∀ c ∈ shortener, width c = some 1)
    (hpart : total (charWidth width) part + room shortener ≤ maxWidth)
    (hch : maxWidth < total (charWidth width) part + charWidth width ch + room shortener)
    (hcut : maxWidth < total (charWidth width) (part ++ ch :: rest) ∨ rest ≠ []) :
    Shortens width (part ++ ch :: rest) maxWidth .right shortener
      (spaced (charWidth width) ' ' part ++ shortener.toList) ↔
      ¬ Slips width (part ++ ch :: rest) maxWidth shortener .right := by
  have hroom := room_le_one shortener
  by_cases hover : maxWidth < total (charWidth width) (part ++ ch :: rest)
  · apply iff_of_true
    · have hcolumns : columns (charWidth width) ' '
          (spaced (charWidth width) ' ' part ++ shortener.toList) ≤ maxWidth := by
        rwa [columns_spaced_append, columns_shortener hshortener]
      refine ⟨hcolumns, iff_of_false (ne_spaced hcolumns hover) (Nat.not_le.mpr hover), fun _ => ?_⟩
      exact ⟨part, longestStart_crossing (by omega) (by omega), rfl⟩
    · exact fun hslips => absurd hslips.2.1 hover.ne'
  · have hrest := hcut.resolve_left hover
    rw [total_append, total_cons] at hover
    -- the characters after the one that fits exactly take no columns
    have hsome : shortener.isSome := isSome_iff_room.mpr (by omega)
    have hexact : total (charWidth width) (part ++ ch :: rest) = maxWidth := by
      rw [total_append, total_cons]
      omega
    have hlast : charWidth width (rest.getLast hrest) ≤ total (charWidth width) rest :=
      width_le_total (List.getLast_mem hrest)
    apply iff_of_false
    · apply not_shortens_of_ne hexact.le
      apply ne_spaced_of_length
      have hlong : (ch :: rest).length ≤ (spaced (charWidth width) ' ' (ch :: rest)).length :=
        length_le_spaced
      have hpos := List.length_pos_of_ne_nil hrest
      have hcount : shortener.toList.length ≤ 1 := hroom
      rw [List.length_cons] at hlong
      rw [spaced_append, List.length_append, List.length_append]
      omega
    · refine not_not.mpr ⟨hsome, hexact, rest.getLast hrest, ?_, .inl (by omega)⟩
      rw [List.getLast?_append, List.getLast?_cons_of_ne_nil hrest,
        List.getLast?_eq_some_getLast hrest, Option.some_or]

theorem shortened_right_iff (hmax : 1 ≤ maxWidth) (hshortener : ∀ c ∈ shortener, width c = some 1) :
    Returns (shortened width text maxWidth .right shortener)
      (Shortens width text maxWidth .right shortener) ↔
      ¬ Slips width text maxWidth shortener .right := by
  have hroom := room_le_one shortener
  rcases new_right_yields width text shortener hmax with ⟨hfits, hyields⟩ |
      ⟨part, ch, rest, rfl, hpart, hch, hyields⟩
  · have hlength : (spaced (charWidth width) ' ' text).length ≤ 2 * text.length := spaced_length_le
    apply shortened_iff_of_yields hyields (Nat.le_succ_of_le hlength)
    apply iff_of_true (shortens_whole (by omega))
    rintro ⟨hsome, hexact, -⟩
    have hone := isSome_iff_room.mp hsome
    omega
  · have hlength : (spaced (charWidth width) ' ' part).length ≤ 2 * part.length := spaced_length_le
    have hcount : shortener.toList.length ≤ 1 := hroom
    split at hyields
    · next hexact =>
        obtain ⟨hsome, hexact, rfl⟩ := hexact
        have hone := isSome_iff_room.mp hsome
        apply shortened_iff_of_yields hyields
        · rw [List.length_append, List.length_append, List.length_singleton]
          omega
        · apply shortens_iff_of_exact hsome
          · rw [total_append, total_cons, total_nil]
            omega
          · omega
    · next hexact =>
        apply shortened_iff_of_yields hyields
        · rw [List.length_append, List.length_append, List.length_cons]
          omega
        · apply shortens_iff_of_cut_right hshortener hpart hch
          rw [total_append, total_cons]
          by_contra hno
          rw [not_or, not_not] at hno
          obtain ⟨hover, rfl⟩ := hno
          exact hexact ⟨isSome_iff_room.mpr (by omega), by omega, rfl⟩

/-- The first character of the text does not fit and is not cut off. -/
theorem shortens_iff_of_uncut {kept : List Char} (hmax : 1 ≤ maxWidth)
    (hshortener : ∀ c ∈ shortener, width c = some 1)
    (hpart : total (charWidth width) part + room shortener ≤ maxWidth)
    (hover : maxWidth < total (charWidth width) (ch :: part))
    (hkept : LongestStart (charWidth width) maxWidth (ch :: part) kept) :
    Shortens width (ch :: part) maxWidth .left shortener
      (shortener.toList ++ spaced (charWidth width) ' ' kept) ↔
      ¬ Slips width (ch :: part) maxWidth shortener .left := by
  have hroom := room_le_one shortener
  have hend : LongestEnd (charWidth width) (maxWidth - room shortener) ([] ++ ch :: part) part := by
    apply longestEnd_crossing
    · omega
    · rw [total_cons] at hover
      omega
  have hsame : LongestStart (charWidth width) maxWidth (ch :: part) part ↔ ∀ c ∈ part, c = ch :=
    longestStart_tail_iff (by omega) hover
  constructor
  · intro hshortens
    obtain ⟨part', hend', hyielded⟩ := hshortens.cut hover
    obtain rfl := hend.unique hend'
    obtain rfl := spaced_injective (List.append_cancel_left hyielded)
    have hall : ∀ c ∈ ch :: kept, c = ch :=
      List.forall_mem_cons.mpr ⟨rfl, hsame.mp hkept⟩
    rintro (⟨-, hexact, -⟩ | ⟨-, -, c, hc, d, hd, hne⟩)
    · omega
    · exact hne ((hall c hc).trans (hall d hd).symm)
  · intro hslips
    have hall : ∀ c ∈ part, c = ch := by
      intro c hc
      by_contra hne
      exact hslips (.inr ⟨hover, hpart, c, List.mem_cons_of_mem ch hc, ch, List.mem_cons_self, hne⟩)
    obtain rfl := hkept.unique (hsame.mpr hall)
    have hcolumns : columns (charWidth width) ' '
        (shortener.toList ++ spaced (charWidth width) ' ' kept) ≤ maxWidth := by
      rw [columns_shortener_append hshortener, columns_spaced]
      omega
    refine ⟨hcolumns, iff_of_false (ne_spaced hcolumns hover) (Nat.not_le.mpr hover), fun _ => ?_⟩
    exact ⟨kept, hend, rfl⟩

/-- The start of the text is cut off. -/
theorem shortens_iff_of_cut_left (hshortener : ∀ c ∈ shortener, width c = some 1) (hrest : rest ≠ [])
    (hpart : total (charWidth width) part + room shortener ≤ maxWidth)
    (hch : maxWidth < total (charWidth width) part + charWidth width ch + room shortener) :
    Shortens width (rest ++ ch :: part) maxWidth .left shortener
      (shortener.toList ++ spaced (charWidth width) ' ' part) ↔
      ¬ Slips width (rest ++ ch :: part) maxWidth shortener .left := by
  have hroom := room_le_one shortener
  obtain ⟨first, rest, rfl⟩ := List.exists_cons_of_ne_nil hrest
  have htotal : total (charWidth width) (first :: rest ++ ch :: part) =
      charWidth width first + total (charWidth width) rest +
        (charWidth width ch + total (charWidth width) part) := by
    rw [total_append, total_cons, total_cons]
  by_cases hover : maxWidth < total (charWidth width) (first :: rest ++ ch :: part)
  · apply iff_of_true
    · have hcolumns : columns (charWidth width) ' '
          (shortener.toList ++ spaced (charWidth width) ' ' part) ≤ maxWidth := by
        rw [columns_shortener_append hshortener, columns_spaced]
        omega
      refine ⟨hcolumns, iff_of_false (ne_spaced hcolumns hover) (Nat.not_le.mpr hover), fun _ => ?_⟩
      exact ⟨part, longestEnd_crossing (by omega) (by omega), rfl⟩
    · rintro (⟨-, hexact, -⟩ | ⟨-, htail, -⟩)
      · exact hover.ne' hexact
      · rw [List.cons_append, List.tail_cons, total_append, total_cons] at htail
        omega
  · have hsome : shortener.isSome := isSome_iff_room.mpr (by omega)
    have hexact : total (charWidth width) (first :: rest ++ ch :: part) = maxWidth := by
      omega
    apply iff_of_false
    · apply not_shortens_of_ne hexact.le
      apply ne_spaced_of_length
      have hlong : (first :: rest).length ≤ (spaced (charWidth width) ' ' (first :: rest)).length :=
        length_le_spaced
      have hlong' : [ch].length ≤ (spaced (charWidth width) ' ' [ch]).length := length_le_spaced
      have hcount : shortener.toList.length ≤ 1 := hroom
      have hsplit : spaced (charWidth width) ' ' (ch :: part) =
          spaced (charWidth width) ' ' [ch] ++ spaced (charWidth width) ' ' part := by
        rw [← spaced_append, List.singleton_append]
      rw [List.length_cons] at hlong hlong'
      rw [spaced_append, hsplit, List.length_append, List.length_append, List.length_append]
      omega
    · exact not_not.mpr (.inl ⟨hsome, hexact, first, rfl, by omega⟩)

theorem shortened_left_iff (hmax : 1 ≤ maxWidth) (hshortener : ∀ c ∈ shortener, width c = some 1) :
    Returns (shortened width text maxWidth .left shortener)
      (Shortens width text maxWidth .left shortener) ↔
      ¬ Slips width text maxWidth shortener .left := by
  have hroom := room_le_one shortener
  have hcount : shortener.toList.length ≤ 1 := hroom
  rcases new_left_yields width text shortener hmax with ⟨hfits, hyields⟩ |
      ⟨ch, part, rfl, hsome, hch, hexact, hyields⟩ |
      ⟨ch, part, kept, rfl, hpart, hover, hkept, hyields⟩ |
      ⟨rest, ch, part, rfl, hrest, hpart, hch, hyields⟩
  · have hlength : (spaced (charWidth width) ' ' text).length ≤ 2 * text.length := spaced_length_le
    apply shortened_iff_of_yields hyields (Nat.le_succ_of_le hlength)
    apply iff_of_true (shortens_whole (by omega))
    rintro (⟨hsome, hexact, -⟩ | ⟨hover, -⟩)
    · have hone := isSome_iff_room.mp hsome
      omega
    · omega
  · have hlength : (spaced (charWidth width) ' ' (ch :: part)).length ≤ 2 * (ch :: part).length :=
      spaced_length_le
    apply shortened_iff_of_yields hyields (Nat.le_succ_of_le hlength)
    apply iff_of_true (shortens_whole hexact.le)
    rintro (⟨-, -, c, hc, hzero⟩ | ⟨hover, -⟩)
    · obtain rfl := Option.some.inj hc
      omega
    · exact hover.ne' hexact
  · have hlength : (spaced (charWidth width) ' ' kept).length ≤ 2 * kept.length := spaced_length_le
    have hkeptLength := hkept.isPrefix.length_le
    apply shortened_iff_of_yields hyields
    · rw [List.length_append]
      omega
    · exact shortens_iff_of_uncut hmax hshortener hpart hover hkept
  · have hlength : (spaced (charWidth width) ' ' part).length ≤ 2 * part.length := spaced_length_le
    apply shortened_iff_of_yields hyields
    · rw [List.length_append, List.length_append, List.length_cons]
      omega
    · exact shortens_iff_of_cut_left hshortener hrest hpart hch

/-- A text is shortened to the longest one that fits, unless the code slips. -/
theorem shortened_exact_iff (width : Char → Option Nat) (text : List Char) (maxWidth : Nat)
    (hmax : 1 ≤ maxWidth) (direction : ShortenDirection) (shortener : Option Char)
    (hshortener : ∀ c ∈ shortener, width c = some 1) :
    Returns (shortened width text maxWidth direction shortener)
      (Shortens width text maxWidth direction shortener) ↔
      ¬ Slips width text maxWidth shortener direction := by
  cases direction with
  | left => exact shortened_left_iff hmax hshortener
  | right => exact shortened_right_iff hmax hshortener

/-- A text that is cut. -/
theorem shortened_exact_cut :
    shortened sampleWidth ['a', 'b', 'c'] 2 .right (some '.') = some ['a', '.'] ∧
      Returns (shortened sampleWidth ['a', 'b', 'c'] 2 .right (some '.'))
        (Shortens sampleWidth ['a', 'b', 'c'] 2 .right (some '.')) := by
  refine ⟨rfl, (shortened_exact_iff _ _ 2 (by decide) .right (some '.') ?_).mpr ?_⟩
  · rintro c ⟨⟩
    rfl
  · exact fun h => absurd h.2.1 (by decide)

/-- The first character is not cut off; the last one gets no spacer; a text that fits is cut. -/
theorem shortened_not_exact :
    (shortened sampleWidth ['漢', 'b'] 2 .left (some '.') = some ['.', '漢', ' '] ∧
      ¬ Returns (shortened sampleWidth ['漢', 'b'] 2 .left (some '.'))
        (Shortens sampleWidth ['漢', 'b'] 2 .left (some '.'))) ∧
    (shortened sampleWidth ['漢'] 2 .right (some '.') = some ['漢'] ∧
      ¬ Returns (shortened sampleWidth ['漢'] 2 .right (some '.'))
        (Shortens sampleWidth ['漢'] 2 .right (some '.'))) ∧
    shortened sampleWidth ['e', '\u0301'] 1 .right (some '.') = some ['.'] ∧
      ¬ Returns (shortened sampleWidth ['e', '\u0301'] 1 .right (some '.'))
        (Shortens sampleWidth ['e', '\u0301'] 1 .right (some '.')) := by
  refine ⟨⟨rfl, fun h => ?_⟩, ⟨rfl, fun h => ?_⟩, rfl, fun h => ?_⟩
  · exact absurd (h.of_eq rfl).fits (by decide)
  · exact absurd ((h.of_eq rfl).whole.mpr (by decide)) (by decide)
  · exact absurd ((h.of_eq rfl).whole.mpr (by decide)) (by decide)

end StrShortener
end Velacritty
