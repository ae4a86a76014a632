import Mathlib.Algebra.BigOperators.Group.List.Basic
import Mathlib.Algebra.Ring.Nat
import Mathlib.Data.List.Infix

/-! Texts of characters that take some columns each. Nothing here names a program. -/
namespace Text
variable {α : Type} {width : α → Nat} {text part rest : List α} {a : α} {limit n : Nat}

def total (width : α → Nat) (text : List α) : Nat := (text.map width).sum

@[simp] theorem total_nil : total width [] = 0 := rfl

@[simp] theorem total_cons : total width (a :: text) = width a + total width text :=
  List.sum_cons

@[simp] theorem total_append : total width (text ++ rest) = total width text + total width rest := by
  unfold total
  rw [List.map_append, List.sum_append]

theorem total_reverse : total width text.reverse = total width text := by
  induction text with
  | nil => rfl
  | cons a text ih =>
      rw [List.reverse_cons, total_append, ih, total_cons, total_cons, total_nil]
      omega

theorem total_le_of_isPrefix (h : part <+: text) : total width part ≤ total width text := by
  obtain ⟨rest, rfl⟩ := h
  rw [total_append]
  exact Nat.le_add_right _ _

theorem width_le_total (h : a ∈ text) : width a ≤ total width text := by
  obtain ⟨start, rest, rfl⟩ := List.append_of_mem h
  rw [total_append, total_cons]
  omega

/-- A text that does not fit has a character that is the first not to fit. -/
theorem exists_crossing (h : limit < total width text) : ∃ part a rest, text = part ++ a :: rest ∧
    total width part ≤ limit ∧ limit < total width part + width a := by
  induction text generalizing limit with
  | nil => exact absurd h (Nat.not_lt_zero limit)
  | cons a text ih =>
      rw [total_cons] at h
      by_cases ha : limit < width a
      · refine ⟨[], a, text, rfl, Nat.zero_le limit, ?_⟩
        rwa [total_nil, Nat.zero_add]
      · have hrest : limit - width a < total width text := by omega
        obtain ⟨part, b, rest, rfl, hpart, hb⟩ := ih hrest
        refine ⟨a :: part, b, rest, rfl, ?_, ?_⟩
        · rw [total_cons]
          omega
        · rw [total_cons]
          omega

theorem exists_crossing_end (h : limit < total width text) : ∃ rest a part,
    text = rest ++ a :: part ∧ total width part ≤ limit ∧ limit < total width part + width a := by
  induction text with
  | nil => exact absurd h (Nat.not_lt_zero limit)
  | cons a text ih =>
      by_cases htext : limit < total width text
      · obtain ⟨rest, b, part, rfl, hpart, hb⟩ := ih htext
        exact ⟨a :: rest, b, part, rfl, hpart, hb⟩
      · rw [total_cons, Nat.add_comm] at h
        exact ⟨[], a, text, rfl, Nat.not_lt.mp htext, h⟩

structure LongestStart (width : α → Nat) (limit : Nat) (text part : List α) : Prop where
  isPrefix : part <+: text
  fits : total width part ≤ limit
  longest : ∀ p, p <+: text → total width p ≤ limit → p <+: part

structure LongestEnd (width : α → Nat) (limit : Nat) (text part : List α) : Prop where
  isSuffix : part <:+ text
  fits : total width part ≤ limit
  longest : ∀ p, p <:+ text → total width p ≤ limit → p <:+ part

/-- What comes before the first character that does not fit is the longest start. -/
theorem longestStart_crossing (hpart : total width part ≤ limit)
    (ha : limit < total width part + width a) :
    LongestStart width limit (part ++ a :: rest) part := by
  refine ⟨List.prefix_append _ _, hpart, fun p hp hfits => ?_⟩
  rcases List.prefix_or_prefix_of_prefix hp (List.prefix_append part (a :: rest)) with hin | hout
  · exact hin
  · obtain ⟨more, rfl⟩ := hout
    cases more with
    | nil => rw [List.append_nil]
    | cons b more =>
        obtain ⟨b', hb⟩ := (List.prefix_append_right_inj part).mp hp
        obtain ⟨rfl, -⟩ := List.cons.inj hb
        rw [total_append, total_cons] at hfits
        omega

/-- What comes after the last character that does not fit is the longest end. -/
theorem longestEnd_crossing (hpart : total width part ≤ limit)
    (ha : limit < total width part + width a) :
    LongestEnd width limit (rest ++ a :: part) part := by
  have hreverse : total width part.reverse = total width part := total_reverse
  have hstart : LongestStart width limit (part.reverse ++ a :: rest.reverse) part.reverse :=
    longestStart_crossing (hreverse.le.trans hpart) (hreverse.symm ▸ ha)
  refine ⟨⟨rest ++ [a], by simp⟩, hpart, fun p hp hfits => ?_⟩
  rw [← List.reverse_prefix]
  apply hstart.longest
  · rw [← List.reverse_prefix] at hp
    simpa using hp
  · rwa [total_reverse]

theorem longestStart_self (h : total width text ≤ limit) : LongestStart width limit text text :=
  ⟨List.prefix_refl text, h, fun _ hp _ => hp⟩

theorem LongestStart.unique {part' : List α} (h : LongestStart width limit text part)
    (h' : LongestStart width limit text part') : part = part' := by
  apply (h'.longest part h.isPrefix h.fits).eq_of_length_le
  exact (h.longest part' h'.isPrefix h'.fits).length_le

theorem LongestEnd.unique {part' : List α} (h : LongestEnd width limit text part)
    (h' : LongestEnd width limit text part') : part = part' := by
  apply (h'.longest part h.isSuffix h.fits).eq_of_length_le
  exact (h.longest part' h'.isSuffix h'.fits).length_le

theorem exists_longestStart (width : α → Nat) (limit : Nat) (text : List α) :
    ∃ part, LongestStart width limit text part := by
  by_cases h : total width text ≤ limit
  · exact ⟨text, longestStart_self h⟩
  · obtain ⟨part, a, rest, rfl, hpart, ha⟩ := exists_crossing (Nat.not_le.mp h)
    exact ⟨part, longestStart_crossing hpart ha⟩

/-- A text without its first character starts the text if its characters are the same. -/
theorem prefix_cons_iff : text <+: a :: text ↔ ∀ b ∈ text, b = a := by
  induction text generalizing a with
  | nil => exact iff_of_true List.nil_prefix nofun
  | cons b text ih =>
      rw [List.cons_prefix_cons, ih, List.forall_mem_cons]
      constructor
      · rintro ⟨rfl, hsame⟩
        exact ⟨rfl, hsame⟩
      · rintro ⟨rfl, hsame⟩
        exact ⟨rfl, hsame⟩

/-- The longest start is the text without its first character only if the characters are the same. -/
theorem longestStart_tail_iff (hpart : total width part ≤ limit)
    (hover : limit < total width (a :: part)) :
    LongestStart width limit (a :: part) part ↔ ∀ b ∈ part, b = a := by
  rw [← prefix_cons_iff]
  constructor
  · exact LongestStart.isPrefix
  · intro hpre
    refine ⟨hpre, hpart, fun p hp hfits => ?_⟩
    apply List.prefix_of_prefix_length_le hp hpre
    have hlength := hp.length_le
    by_contra hlong
    rw [List.length_cons] at hlength
    have hwhole : p = a :: part := hp.eq_of_length (by rw [List.length_cons]; omega)
    rw [hwhole] at hfits
    omega

variable {spacer : α}

/-- A text with a spacer after each character of two columns. -/
def spaced (width : α → Nat) (spacer : α) (text : List α) : List α :=
  text.flatMap fun a => if width a = 2 then [a, spacer] else [a]

@[simp] theorem spaced_nil : spaced width spacer [] = [] := rfl

theorem spaced_cons : spaced width spacer (a :: text) =
    (if width a = 2 then [a, spacer] else [a]) ++ spaced width spacer text := rfl

theorem spaced_cons_two (h : width a = 2) :
    spaced width spacer (a :: text) = a :: spacer :: spaced width spacer text := by
  rw [spaced_cons, if_pos h]
  rfl

theorem spaced_cons_one (h : width a ≠ 2) :
    spaced width spacer (a :: text) = a :: spaced width spacer text := by
  rw [spaced_cons, if_neg h]
  rfl

@[simp] theorem spaced_append : spaced width spacer (text ++ rest) =
    spaced width spacer text ++ spaced width spacer rest := List.flatMap_append

theorem length_le_spaced : text.length ≤ (spaced width spacer text).length := by
  induction text with
  | nil => exact Nat.le_refl 0
  | cons a text ih =>
      by_cases h : width a = 2
      · rw [spaced_cons_two h, List.length_cons, List.length_cons, List.length_cons]
        omega
      · rw [spaced_cons_one h, List.length_cons, List.length_cons]
        omega

theorem spaced_length_le : (spaced width spacer text).length ≤ 2 * text.length := by
  induction text with
  | nil => exact Nat.le_refl 0
  | cons a text ih =>
      by_cases h : width a = 2
      · rw [spaced_cons_two h, List.length_cons, List.length_cons, List.length_cons]
        omega
      · rw [spaced_cons_one h, List.length_cons, List.length_cons]
        omega

/-- A text without characters of two columns gets no spacers. -/
theorem spaced_eq_self (h : ∀ a ∈ text, width a ≠ 2) : spaced width spacer text = text := by
  induction text with
  | nil => rfl
  | cons a text ih =>
      obtain ⟨ha, htext⟩ := List.forall_mem_cons.mp h
      rw [spaced_cons_one ha, ih htext]

theorem spaced_injective : Function.Injective (spaced width spacer) := by
  intro text part h
  induction text generalizing part with
  | nil =>
      have hlength : part.length ≤ (spaced width spacer part).length := length_le_spaced
      rw [← h] at hlength
      exact (List.eq_nil_of_length_eq_zero (Nat.le_zero.mp hlength)).symm
  | cons a text ih =>
      cases part with
      | nil =>
          have hlength : (a :: text).length ≤ (spaced width spacer (a :: text)).length :=
            length_le_spaced
          rw [h] at hlength
          exact absurd hlength (Nat.not_succ_le_zero _)
      | cons b part =>
          have hhead : a = b := by
            by_cases ha : width a = 2
            · by_cases hb : width b = 2
              · rw [spaced_cons_two ha, spaced_cons_two hb] at h
                exact (List.cons.inj h).1
              · rw [spaced_cons_two ha, spaced_cons_one hb] at h
                exact (List.cons.inj h).1
            · by_cases hb : width b = 2
              · rw [spaced_cons_one ha, spaced_cons_two hb] at h
                exact (List.cons.inj h).1
              · rw [spaced_cons_one ha, spaced_cons_one hb] at h
                exact (List.cons.inj h).1
          subst hhead
          rw [spaced_cons, spaced_cons] at h
          rw [ih (List.append_cancel_left h)]

variable [DecidableEq α]

/-- The columns of a text whose characters of two columns can be followed by their spacers. -/
def columns (width : α → Nat) (spacer : α) : List α → Nat
  | [] => 0
  | [a] => width a
  | a :: b :: text =>
      if width a = 2 ∧ b = spacer then 2 + columns width spacer text
      else width a + columns width spacer (b :: text)

theorem columns_cons_one (h : width a ≠ 2) :
    columns width spacer (a :: text) = width a + columns width spacer text := by
  cases text with
  | nil => rfl
  | cons b text => rw [columns, if_neg fun hab => h hab.1]

theorem columns_spaced_append (rest : List α) : columns width spacer (spaced width spacer text ++ rest) =
    total width text + columns width spacer rest := by
  induction text with
  | nil => exact (Nat.zero_add _).symm
  | cons a text ih =>
      by_cases h : width a = 2
      · rw [spaced_cons_two h, List.cons_append, List.cons_append, columns, if_pos ⟨h, rfl⟩, ih,
          total_cons, h, Nat.add_assoc]
      · rw [spaced_cons_one h, List.cons_append, columns_cons_one h, ih, total_cons, Nat.add_assoc]

theorem columns_spaced : columns width spacer (spaced width spacer text) = total width text := by
  have happend : columns width spacer (spaced width spacer text ++ []) = total width text + 0 :=
    columns_spaced_append []
  rwa [List.append_nil] at happend

theorem columns_append_of_ones (h : ∀ a ∈ text, width a = 1) (rest : List α) :
    columns width spacer (text ++ rest) = text.length + columns width spacer rest := by
  induction text with
  | nil => exact (Nat.zero_add _).symm
  | cons a text ih =>
      obtain ⟨ha, htext⟩ := List.forall_mem_cons.mp h
      rw [List.cons_append, columns_cons_one (by omega), ih htext, ha, List.length_cons]
      omega

theorem columns_of_ones (h : ∀ a ∈ text, width a = 1) :
    columns width spacer text = text.length := by
  have happend : columns width spacer (text ++ []) = _ := columns_append_of_ones h []
  rwa [List.append_nil] at happend

end Text
