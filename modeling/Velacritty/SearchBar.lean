import Velacritty.MachineInts
import Velacritty.ShortenedText
import Velacritty.Utf8Strings

/-! The text of the search bar. -/
namespace Velacritty
open Fallible Text StrShortener

namespace Display

/-- The character used to shorten the visible text like uri preview or search regex. -/
def shortenerChar : Char := '…'

/-- Format search regex to account for the cursor and fullwidth characters. -/
def formatSearch (width : Char → Option Nat) (searchRegex searchLabel : List Char)
    (maxWidth : Nat) : Option (List Char) :=
  let labelLen := Utf8.byteLen searchLabel
  if maxWidth < labelLen then (Utf8.splitAt maxWidth searchLabel).map Prod.fst
  else do
    let shortened ← shortened width searchRegex (wrappingSub maxWidth (labelLen + 1)) .left
      (some shortenerChar)
    some (searchLabel ++ shortened ++ [' '])

end Display

namespace StrShortener
variable {width : Char → Option Nat} {text yielded kept : List Char} {maxWidth : Nat} {ch c : Char}

/-- What follows a text does not change its columns: its last fullwidth character has its spacer. -/
def Closed (width : Char → Option Nat) (text : List Char) : Prop :=
  ∀ rest, columns (charWidth width) ' ' (text ++ rest) =
    columns (charWidth width) ' ' text + columns (charWidth width) ' ' rest

theorem closed_spaced (text : List Char) : Closed width (spaced (charWidth width) ' ' text) := by
  intro rest
  rw [columns_spaced_append, columns_spaced]

theorem columns_cons (hc : charWidth width c = 1) (text : List Char) :
    columns (charWidth width) ' ' (c :: text) = 1 + columns (charWidth width) ' ' text := by
  have hcons : columns (charWidth width) ' ' (c :: text) = _ := columns_cons_one (by omega)
  rwa [hc] at hcons

theorem Closed.cons (h : Closed width text) (hc : charWidth width c = 1) :
    Closed width (c :: text) := by
  intro rest
  rw [List.cons_append, columns_cons hc, columns_cons hc, h rest, Nat.add_assoc]

theorem returns_whole {fits : Prop}
    (h : Yields (next width) (new width text maxWidth .left (some c))
      (spaced (charWidth width) ' ' text))
    (hiff : total (charWidth width) text ≤ maxWidth ↔ fits) :
    Returns (shortened width text maxWidth .left (some c)) fun yielded => Closed width yielded ∧
      (columns (charWidth width) ' ' yielded ≤ maxWidth ↔ fits) := by
  have hlength : (spaced (charWidth width) ' ' text).length ≤ 2 * text.length := spaced_length_le
  refine ⟨_, shortened_eq h (Nat.le_succ_of_le hlength), closed_spaced text, ?_⟩
  rwa [columns_spaced]

theorem returns_part {fits : Prop} (hc : charWidth width c = 1) (hkept : kept.length ≤ text.length)
    (h : Yields (next width) (new width text maxWidth .left (some c))
      (c :: spaced (charWidth width) ' ' kept))
    (hiff : 1 + total (charWidth width) kept ≤ maxWidth ↔ fits) :
    Returns (shortened width text maxWidth .left (some c)) fun yielded => Closed width yielded ∧
      (columns (charWidth width) ' ' yielded ≤ maxWidth ↔ fits) := by
  have hlength : (spaced (charWidth width) ' ' kept).length ≤ 2 * kept.length := spaced_length_le
  have hcount : (c :: spaced (charWidth width) ' ' kept).length ≤ 2 * text.length + 1 := by
    rw [List.length_cons]
    omega
  refine ⟨_, shortened_eq h hcount, (closed_spaced kept).cons hc, ?_⟩
  rwa [columns_cons hc, columns_spaced]

/-- What fits of a text takes all the columns, and its first character, which does not fit, is not
cut off. -/
def Overfills (width : Char → Option Nat) (text : List Char) (maxWidth : Nat) : Prop :=
  total (charWidth width) text.tail + 1 ≤ maxWidth ∧ maxWidth < total (charWidth width) text ∧
    ∃ start, start <+: text ∧ total (charWidth width) start = maxWidth

/-- What is yielded of a text that is shortened to the left takes no more columns than there are,
unless the text overfills them. -/
theorem shortened_left_columns (hmax : 1 ≤ maxWidth) (hc : charWidth width c = 1) :
    Returns (shortened width text maxWidth .left (some c)) fun yielded => Closed width yielded ∧
      (columns (charWidth width) ' ' yielded ≤ maxWidth ↔ ¬ Overfills width text maxWidth) := by
  have hone : room (some c) = 1 := rfl
  rcases new_left_yields width text (some c) hmax with ⟨hfits, hyields⟩ |
      ⟨ch, part, rfl, -, -, hexact, hyields⟩ |
      ⟨ch, part, kept, rfl, hpart, hover, hkept, hyields⟩ |
      ⟨rest, ch, part, rfl, hrest, hpart, hch, hyields⟩
  · have hle : total (charWidth width) text ≤ maxWidth := by omega
    exact returns_whole hyields (iff_of_true hle fun hover => absurd hle (Nat.not_le.mpr hover.2.1))
  · exact returns_whole hyields (iff_of_true hexact.le fun hover => hover.2.1.ne' hexact)
  · apply returns_part hc hkept.isPrefix.length_le hyields
    constructor
    · rintro hfits ⟨-, -, start, hstart, hexact⟩
      have hle : total (charWidth width) start ≤ total (charWidth width) kept :=
        total_le_of_isPrefix (hkept.longest start hstart hexact.le)
      omega
    · intro hno
      have hkeptFits := hkept.fits
      have hne : total (charWidth width) kept ≠ maxWidth := by
        intro hexact
        exact hno ⟨hpart, hover, kept, hkept.isPrefix, hexact⟩
      omega
  · have hsuffix : part <:+ rest ++ ch :: part := ⟨rest ++ [ch], by simp⟩
    apply returns_part hc hsuffix.length_le hyields
    refine iff_of_true (by omega) ?_
    rintro ⟨htail, -⟩
    obtain ⟨first, rest, rfl⟩ := List.exists_cons_of_ne_nil hrest
    rw [List.cons_append, List.tail_cons, total_append, total_cons] at htail
    omega

theorem new_left_zero {last : Char} (h : charWidth width last ≠ 0 ∨ text ≠ []) :
    ∃ kept, Yields (next width) (new width (text ++ [last]) 0 .left (some c))
      (c :: spaced (charWidth width) ' ' kept) ∧ kept.length ≤ (text ++ [last]).length := by
  have hscan : leftScan width 0 0 0 (some c) (text ++ [last]).reverse.zipIdx =
      ⟨0, charWidth width last, some c, text.reverse.zipIdx 1⟩ := by
    rw [List.reverse_append, List.reverse_singleton, List.singleton_append, List.zipIdx_cons,
      leftScan, Nat.zero_add, Nat.zero_add]
    by_cases hzero : charWidth width last = 0
    · rw [if_neg (by omega), if_pos hzero, if_pos]
      refine ⟨rfl, fun hnil => h.resolve_left (not_not.mpr hzero) ?_⟩
      exact List.reverse_eq_nil_iff.mp (List.zipIdx_eq_nil_iff.mp hnil)
    · rw [if_pos (Nat.pos_of_ne_zero hzero)]
  rw [new_left_of_scan (by simp) hscan, if_neg (by simp)]
  obtain ⟨kept, hkept⟩ := exists_longestStart (charWidth width) 0 _
  refine ⟨kept, yields_shortener (yields_start hkept), hkept.isPrefix.length_le.trans ?_⟩
  rw [List.length_drop]
  exact Nat.sub_le _ _

/-- A text that is shortened to no columns is replaced by the shortener, unless it takes none. -/
theorem shortened_left_zero (hc : charWidth width c = 1) :
    Returns (shortened width text 0 .left (some c)) fun yielded => Closed width yielded ∧
      (columns (charWidth width) ' ' yielded ≤ 0 ↔
        text = [] ∨ ∃ ch, text = [ch] ∧ charWidth width ch = 0) := by
  cases text using List.reverseRecOn with
  | nil => exact returns_whole yields_nil (iff_of_true (Nat.le_refl 0) (.inl rfl))
  | append_singleton text last =>
      have hpart (h : charWidth width last ≠ 0 ∨ text ≠ []) :
          Returns (shortened width (text ++ [last]) 0 .left (some c)) fun yielded =>
            Closed width yielded ∧ (columns (charWidth width) ' ' yielded ≤ 0 ↔
              text ++ [last] = [] ∨ ∃ ch, text ++ [last] = [ch] ∧ charWidth width ch = 0) := by
        obtain ⟨kept, hyields, hkept⟩ := new_left_zero h
        apply returns_part hc hkept hyields
        apply iff_of_false (by omega)
        rintro (hnil | ⟨ch, hsingle, hzero⟩)
        · exact absurd hnil (by simp)
        · obtain ⟨rfl, hlast⟩ := List.append_eq_singleton_iff.mp hsingle |>.resolve_right (by simp)
          obtain rfl := List.singleton_inj.mp hlast
          exact h.elim (fun hne => hne hzero) (fun hne => hne rfl)
      by_cases hnil : text = []
      · subst hnil
        by_cases hzero : charWidth width last = 0
        · have hscan : leftScan width 0 0 0 (some c) [last].reverse.zipIdx = ⟨1, 0, none, []⟩ := by
            rw [List.reverse_singleton, List.zipIdx_singleton, leftScan, Nat.zero_add, hzero,
              if_neg (Nat.not_lt_zero 0), if_pos rfl, if_neg fun h => h.2 rfl, leftScan]
          have htotal : total (charWidth width) [last] = 0 := by
            rw [total_cons, total_nil, hzero]
          have hyields : Yields (next width) (new width [last] 0 .left (some c))
              (spaced (charWidth width) ' ' [last]) := by
            rw [new_left_of_scan (List.cons_ne_nil last []) hscan, if_pos (.inr rfl)]
            exact yields_whole htotal.le
          exact returns_whole hyields (iff_of_true htotal.le (.inr ⟨last, rfl, hzero⟩))
        · exact hpart (.inl hzero)
      · exact hpart (.inr hnil)

end StrShortener
namespace Display
variable {width : Char → Option Nat} {searchRegex searchLabel : List Char} {maxWidth : Nat}

/-- The text fits, and ends with the place for the cursor when it is longer than the label. -/
structure FitsBar (width : Char → Option Nat) (searchLabel : List Char) (maxWidth : Nat)
    (text : List Char) : Prop where
  fits : columns (charWidth width) ' ' text ≤ maxWidth
  cursor : searchLabel.length < text.length → text.getLast? = some ' '

/-- The label leaves no column for the cursor, or none for the regex although that takes some; or
what fits of the regex takes all of its columns and is shown beside the shortener. -/
def Overruns (width : Char → Option Nat) (searchRegex searchLabel : List Char) (maxWidth : Nat) :
    Prop :=
  searchLabel.length = maxWidth ∨
    (searchLabel.length + 1 = maxWidth ∧ searchRegex ≠ [] ∧
      ¬ ∃ ch, searchRegex = [ch] ∧ charWidth width ch = 0) ∨
    searchLabel.length + 1 < maxWidth ∧
      Overfills width searchRegex (maxWidth - (searchLabel.length + 1))

/-- The width passed to the shortener does not wrap around. -/
def NeverWraps (searchLabel : List Char) (maxWidth : Nat) : Prop :=
  Utf8.byteLen searchLabel ≤ maxWidth → Utf8.byteLen searchLabel + 1 ≤ maxWidth

theorem formatSearch_iff_of_shortened {space : Nat} {P : Prop}
    (hascii : Utf8.Ascii searchLabel) (hwidth : ∀ c ∈ searchLabel, charWidth width c = 1)
    (hspace : charWidth width ' ' = 1) (hle : searchLabel.length ≤ maxWidth)
    (hpassed : wrappingSub maxWidth (searchLabel.length + 1) = space)
    (hyields : Returns (shortened width searchRegex space .left (some shortenerChar)) fun yielded =>
      Closed width yielded ∧ (columns (charWidth width) ' ' yielded + searchLabel.length + 1 ≤
        maxWidth ↔ P)) :
    Returns (formatSearch width searchRegex searchLabel maxWidth)
      (FitsBar width searchLabel maxWidth) ↔ P := by
  obtain ⟨yielded, hyielded, hclosed, hiff⟩ := hyields
  have htext : formatSearch width searchRegex searchLabel maxWidth =
      some (searchLabel ++ yielded ++ [' ']) := by
    simp only [formatSearch, Utf8.byteLen_of_ascii hascii, if_neg (Nat.not_lt.mpr hle), hpassed,
      hyielded, Option.bind_eq_bind, Option.bind_some]
  have hcolumns : columns (charWidth width) ' ' (searchLabel ++ yielded ++ [' ']) =
      columns (charWidth width) ' ' yielded + searchLabel.length + 1 := by
    rw [List.append_assoc, columns_append_of_ones hwidth, hclosed, columns_cons hspace, columns]
    omega
  rw [← hiff, ← hcolumns]
  constructor
  · exact fun h => (h.of_eq htext).fits
  · exact fun hfits => ⟨_, htext, hfits, fun _ => List.getLast?_concat⟩

theorem formatSearch_label (hascii : Utf8.Ascii searchLabel)
    (hwidth : ∀ c ∈ searchLabel, charWidth width c = 1) (hover : maxWidth < searchLabel.length) :
    Returns (formatSearch width searchRegex searchLabel maxWidth)
      (FitsBar width searchLabel maxWidth) := by
  have hlength : (searchLabel.take maxWidth).length = maxWidth := by
    rw [List.length_take, Nat.min_eq_left hover.le]
  have htake : ∀ c ∈ searchLabel.take maxWidth, charWidth width c = 1 :=
    fun c hc => hwidth c (List.mem_of_mem_take hc)
  have hcolumns : columns (charWidth width) ' ' (searchLabel.take maxWidth) = maxWidth := by
    rw [columns_of_ones htake, hlength]
  refine ⟨searchLabel.take maxWidth, ?_, hcolumns.le, fun hlonger => ?_⟩
  · simp only [formatSearch, Utf8.byteLen_of_ascii hascii, if_pos hover,
      Utf8.splitAt_of_ascii hascii hover.le, Option.map_some]
  · omega

/-- The text of the search bar fits and its width does not wrap around, unless it overruns. -/
theorem formatSearch_fits_iff (width : Char → Option Nat)
    (hwidth : ∀ c : Char, c.toNat < 128 → width c = some 1 ∨ width c = none)
    (hshortener : width shortenerChar = some 1) (searchRegex searchLabel : List Char)
    (hascii : Utf8.Ascii searchLabel) (maxWidth : Nat) (hmax : maxWidth < 2 ^ 64) :
    Returns (formatSearch width searchRegex searchLabel maxWidth)
      (FitsBar width searchLabel maxWidth) ∧ NeverWraps searchLabel maxWidth ↔
      ¬ Overruns width searchRegex searchLabel maxWidth := by
  have hnarrow (c : Char) (hc : c.toNat < 128) : charWidth width c = 1 := by
    unfold charWidth
    rcases hwidth c hc with heq | heq
    · rw [heq, Option.getD_some]
    · rw [heq, Option.getD_none]
  have hlabel : ∀ c ∈ searchLabel, charWidth width c = 1 := fun c hc => hnarrow c (hascii c hc)
  have hspace : charWidth width ' ' = 1 := hnarrow ' ' (by decide)
  have hdots : charWidth width shortenerChar = 1 := by
    unfold charWidth
    rw [hshortener, Option.getD_some]
  have hwraps : NeverWraps searchLabel maxWidth ↔ searchLabel.length ≠ maxWidth := by
    unfold NeverWraps
    rw [Utf8.byteLen_of_ascii hascii]
    omega
  rw [hwraps]
  unfold Overruns
  rcases Nat.lt_trichotomy maxWidth searchLabel.length with hover | hexact | hless
  · apply iff_of_true ⟨formatSearch_label hascii hlabel hover, hover.ne'⟩
    rintro (hexact | ⟨hexact, -⟩ | ⟨hless, -⟩)
    · omega
    · omega
    · omega
  · exact iff_of_false (fun h => h.2 hexact.symm) (not_not.mpr (.inl hexact.symm))
  · rw [and_iff_left hless.ne]
    have hpassed := wrappingSub_of_le (Nat.succ_le_of_lt hless) hmax
    by_cases hcursor : searchLabel.length + 1 = maxWidth
    · have hzero : maxWidth - (searchLabel.length).succ = 0 := by omega
      rw [hzero] at hpassed
      rw [formatSearch_iff_of_shortened hascii hlabel hspace hless.le hpassed
        ((shortened_left_zero hdots).mono fun yielded ⟨hclosed, hiff⟩ =>
          ⟨hclosed, Iff.trans (by omega) hiff⟩)]
      constructor
      · rintro hempty (heq | ⟨-, hne, hno⟩ | ⟨hroom, -⟩)
        · exact hless.ne heq
        · exact hempty.elim hne hno
        · omega
      · intro hno
        by_contra hempty
        rw [not_or] at hempty
        exact hno (.inr (.inl ⟨hcursor, hempty.1, hempty.2⟩))
    · rw [formatSearch_iff_of_shortened hascii hlabel hspace hless.le hpassed
        ((shortened_left_columns (by omega) hdots).mono fun yielded ⟨hclosed, hiff⟩ =>
          ⟨hclosed, Iff.trans (by omega) hiff⟩)]
      constructor
      · rintro hfits (heq | ⟨heq, -⟩ | ⟨-, hfills⟩)
        · exact hless.ne heq
        · exact hcursor heq
        · exact hfits hfills
      · exact fun hno hfills => hno (.inr (.inr ⟨by omega, hfills⟩))

/-- A regex that is shortened beside its label. -/
theorem formatSearch_fits_short :
    formatSearch sampleWidth ['a', 'b', 'c', 'd'] ['S', ':'] 6 =
      some ['S', ':', '…', 'c', 'd', ' '] ∧
    Returns (formatSearch sampleWidth ['a', 'b', 'c', 'd'] ['S', ':'] 6)
      (FitsBar sampleWidth ['S', ':'] 6) := by
  refine ⟨rfl, ((formatSearch_fits_iff sampleWidth sampleWidth_ascii (by decide)
    ['a', 'b', 'c', 'd'] ['S', ':'] (by decide) 6 (by decide)).mpr ?_).1⟩
  rintro (hexact | ⟨hexact, -⟩ | ⟨-, htail, -⟩)
  · exact absurd hexact (by decide)
  · exact absurd hexact (by decide)
  · exact absurd htail (by decide)

/-- A label of the bar's width leaves no place for the cursor, one that is a column shorter leaves
none for the regex, and a fullwidth character is shown beside the shortener. -/
theorem formatSearch_not_fits :
    (¬ NeverWraps ['S', ':'] 2 ∧
      formatSearch sampleWidth ['a'] ['S', ':'] 2 = some ['S', ':', 'a', ' '] ∧
      ¬ Returns (formatSearch sampleWidth ['a'] ['S', ':'] 2) (FitsBar sampleWidth ['S', ':'] 2)) ∧
    (formatSearch sampleWidth ['a'] ['S', ':'] 3 = some ['S', ':', '…', ' '] ∧
      ¬ Returns (formatSearch sampleWidth ['a'] ['S', ':'] 3) (FitsBar sampleWidth ['S', ':'] 3)) ∧
    formatSearch sampleWidth ['漢', 'b'] ['S', ':'] 5 = some ['S', ':', '…', '漢', ' ', ' '] ∧
      ¬ Returns (formatSearch sampleWidth ['漢', 'b'] ['S', ':'] 5)
        (FitsBar sampleWidth ['S', ':'] 5) := by
  refine ⟨⟨fun h => ?_, rfl, fun h => ?_⟩, ⟨rfl, fun h => ?_⟩, rfl, fun h => ?_⟩
  · exact absurd (h (by decide)) (by decide)
  · exact absurd (h.of_eq rfl).fits (by decide)
  · exact absurd (h.of_eq rfl).fits (by decide)
  · exact absurd (h.of_eq rfl).fits (by decide)

end Display
end Velacritty
