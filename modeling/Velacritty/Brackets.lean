import Mathlib.Data.List.Basic

/-! Texts whose brackets are opened before they are closed. -/
namespace Velacritty

/-- Every prefix closes at most the brackets that it opens, and the ones that were open. -/
def Closes (left right : Char) (opened : Nat) (cs : List Char) : Prop :=
  ∀ p, p <+: cs → p.count right ≤ opened + p.count left

/-- No prefix closes a bracket that it does not open. -/
def Balanced (cs : List Char) : Prop := Closes '(' ')' 0 cs ∧ Closes '[' ']' 0 cs

section
variable {left right c : Char} {opened : Nat} {cs : List Char}

theorem closes_nil : Closes left right opened [] := by
  intro p hp
  rw [List.prefix_nil.mp hp]
  exact Nat.zero_le _

theorem closes_cons : Closes left right opened (c :: cs) ↔
    ∀ p, p <+: cs → (c :: p).count right ≤ opened + (c :: p).count left := by
  constructor
  · intro h p hp
    exact h _ (List.cons_prefix_cons.mpr ⟨rfl, hp⟩)
  · intro h p hp
    rcases List.prefix_cons_iff.mp hp with rfl | ⟨q, rfl, hq⟩
    · exact Nat.zero_le _
    · exact h q hq

theorem closes_open (hne : left ≠ right) :
    Closes left right opened (left :: cs) ↔ Closes left right (opened + 1) cs := by
  rw [closes_cons]
  apply forall₂_congr
  intro p _
  rw [List.count_cons_self, List.count_cons_of_ne hne]
  omega

theorem closes_close (hne : left ≠ right) :
    Closes left right (opened + 1) (right :: cs) ↔ Closes left right opened cs := by
  rw [closes_cons]
  apply forall₂_congr
  intro p _
  rw [List.count_cons_self, List.count_cons_of_ne hne.symm]
  omega

theorem not_closes_close (hne : left ≠ right) : ¬ Closes left right 0 (right :: cs) := by
  intro h
  have hone := h [right] (List.cons_prefix_cons.mpr ⟨rfl, List.nil_prefix⟩)
  rw [List.count_cons_self, List.count_cons_of_ne hne.symm, List.count_nil, List.count_nil] at hone
  exact absurd hone (by decide)

theorem closes_other (hleft : c ≠ left) (hright : c ≠ right) :
    Closes left right opened (c :: cs) ↔ Closes left right opened cs := by
  rw [closes_cons]
  apply forall₂_congr
  intro p _
  rw [List.count_cons_of_ne hleft, List.count_cons_of_ne hright]

theorem Closes.take (h : Closes left right opened cs) (n : Nat) :
    Closes left right opened (cs.take n) :=
  fun p hp => h p (hp.trans (List.take_prefix n cs))

/-- The brackets of a pair are opened before they are closed, and all are closed. -/
def Balances (left right : Char) (cs : List Char) : Prop :=
  Closes left right 0 cs ∧ cs.count left = cs.count right

theorem closes_snoc : Closes left right opened (cs ++ [c]) ↔ Closes left right opened cs ∧
    (cs ++ [c]).count right ≤ opened + (cs ++ [c]).count left := by
  constructor
  · exact fun h => ⟨fun p hp => h p (hp.trans (List.prefix_append cs [c])), h _ (List.prefix_refl _)⟩
  · rintro ⟨h, hall⟩ p hp
    rcases List.prefix_concat_iff.mp hp with rfl | hp
    · exact hall
    · exact h p hp

/-- Behind a balanced text there is no bracket left to be closed. -/
theorem Balances.not_closes (h : Balances left right cs) (hne : left ≠ right) :
    ¬ Closes left right 0 (cs ++ [right]) := by
  intro hcloses
  have hall := (closes_snoc.mp hcloses).2
  have hcount := h.2
  rw [List.count_append, List.count_append, List.count_singleton_self, List.count_singleton,
    beq_eq_false_iff_ne.mpr hne.symm, if_neg Bool.false_ne_true] at hall
  omega

/-- A number of brackets is open behind the text. -/
def Nests (left right : Char) (n : Nat) (cs : List Char) : Prop :=
  Closes left right 0 cs ∧ cs.count left = cs.count right + n

theorem nests_nil : Nests left right 0 [] := ⟨closes_nil, rfl⟩

section
variable {n : Nat}

theorem Nests.balances (h : Nests left right 0 cs) : Balances left right cs := h

theorem Nests.opens (h : Nests left right n cs) (hne : left ≠ right) :
    Nests left right (n + 1) (cs ++ [left]) := by
  obtain ⟨hcloses, hcount⟩ := h
  have hleft : (cs ++ [left]).count left = cs.count left + 1 := by
    rw [List.count_append, List.count_singleton_self]
  have hright : (cs ++ [left]).count right = cs.count right := by
    rw [List.count_append, List.count_eq_zero_of_not_mem (List.mem_singleton.not.mpr hne.symm)]
    rfl
  exact ⟨closes_snoc.mpr ⟨hcloses, by omega⟩, by omega⟩

theorem Nests.closes (h : Nests left right (n + 1) cs) (hne : left ≠ right) :
    Nests left right n (cs ++ [right]) := by
  obtain ⟨hcloses, hcount⟩ := h
  have hleft : (cs ++ [right]).count left = cs.count left := by
    rw [List.count_append, List.count_eq_zero_of_not_mem (List.mem_singleton.not.mpr hne)]
    rfl
  have hright : (cs ++ [right]).count right = cs.count right + 1 := by
    rw [List.count_append, List.count_singleton_self]
  exact ⟨closes_snoc.mpr ⟨hcloses, by omega⟩, by omega⟩

theorem Nests.other (h : Nests left right n cs) (hleft : c ≠ left) (hright : c ≠ right) :
    Nests left right n (cs ++ [c]) := by
  obtain ⟨hcloses, hcount⟩ := h
  have hsame {b : Char} (hb : c ≠ b) : (cs ++ [c]).count b = cs.count b := by
    rw [List.count_append, List.count_eq_zero_of_not_mem (List.mem_singleton.not.mpr hb.symm)]
    rfl
  have hleft := hsame hleft
  have hright := hsame hright
  exact ⟨closes_snoc.mpr ⟨hcloses, by omega⟩, by omega⟩

end

/-- Backwards, the brackets change their roles. -/
theorem Balances.reverse (h : Balances left right cs) : Balances right left cs.reverse := by
  obtain ⟨hcloses, hcount⟩ := h
  refine ⟨fun p hp => ?_, by rw [List.count_reverse, List.count_reverse, hcount]⟩
  obtain ⟨rest, hrest⟩ := hp
  have hsplit : cs = rest.reverse ++ p.reverse := by
    rw [← List.reverse_append, hrest, List.reverse_reverse]
  have hfront := hcloses rest.reverse ⟨p.reverse, hsplit.symm⟩
  rw [hsplit, List.count_append, List.count_append] at hcount
  simp only [List.count_reverse] at hcount hfront
  omega

end

theorem Balanced.take {cs : List Char} (h : Balanced cs) (n : Nat) : Balanced (cs.take n) :=
  ⟨h.1.take n, h.2.take n⟩

end Velacritty
