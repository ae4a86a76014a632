import Mathlib.Logic.Function.Basic

/-! Things that take two neighbouring places: what overwriting a place has to clear so that
no half of them is left alone. -/
namespace Velacritty

/-- The places that hold a first half, and those that hold a second half. -/
@[ext]
structure Halves (α : Type) where
  first : α → Prop
  second : α → Prop

namespace Halves
variable {α : Type} {beside : α → α} {h : Halves α} {p q : α} {a b : Prop}

/-- Beside every first half is a second half, and the other way round. -/
def Matched (beside : α → α) (h : Halves α) : Prop := ∀ p, h.first p ↔ h.second (beside p)

/-- The halves are matched, but for a first half whose second half is still to come to `p`. -/
structure Awaits (beside : α → α) (h : Halves α) (p : α) : Prop where
  others : ∀ q, beside q ≠ p → (h.first q ↔ h.second (beside q))
  before : ∀ q, beside q = p → h.second p → h.first q

/-- The place gets a first half if `a`, and a second half if `b`. The other half of what was
there is cleared. -/
def overwrite (beside : α → α) (h : Halves α) (p : α) (a b : Prop) : Halves α where
  first q := q = p ∧ a ∨ q ≠ p ∧ h.first q ∧ ¬ (h.second p ∧ beside q = p)
  second q := q = p ∧ b ∨ q ≠ p ∧ h.second q ∧ ¬ (h.first p ∧ q = beside p)

theorem overwrite_first_self : (h.overwrite beside p a b).first p ↔ a := by
  simp only [overwrite, true_and, ne_eq, not_true_eq_false, false_and, or_false]

theorem overwrite_second_self : (h.overwrite beside p a b).second p ↔ b := by
  simp only [overwrite, true_and, ne_eq, not_true_eq_false, false_and, or_false]

theorem overwrite_first (hq : q ≠ p) : (h.overwrite beside p a b).first q ↔
    h.first q ∧ ¬ (h.second p ∧ beside q = p) := by
  simp only [overwrite, hq, false_and, false_or, ne_eq, not_false_eq_true, true_and]

theorem overwrite_second (hq : q ≠ p) : (h.overwrite beside p a b).second q ↔
    h.second q ∧ ¬ (h.first p ∧ q = beside p) := by
  simp only [overwrite, hq, false_and, false_or, ne_eq, not_false_eq_true, true_and]

theorem Matched.awaits (hm : h.Matched beside) (p : α) : h.Awaits beside p where
  others q _ := hm q
  before q hq hsecond := (hm q).mpr (hq.symm ▸ hsecond)

/-- Pairs away from the place stay as they are. -/
theorem Awaits.overwrite_others (hinj : Function.Injective beside) (ha : h.Awaits beside p) (hq : q ≠ p) (hbeside : beside q ≠ p) :
    (h.overwrite beside p a b).first q ↔ (h.overwrite beside p a b).second (beside q) := by
  rw [overwrite_first hq, overwrite_second hbeside]
  constructor
  · intro hfirst
    refine ⟨(ha.others q hbeside).mp hfirst.1, fun hcleared => ?_⟩
    exact hq (hinj hcleared.2)
  · intro hsecond
    refine ⟨(ha.others q hbeside).mpr hsecond.1, fun hcleared => ?_⟩
    exact hbeside hcleared.2

/-- No second half is left beside the place. -/
theorem Awaits.overwrite_beside (hne : ∀ p, beside p ≠ p) (ha : h.Awaits beside p) :
    ¬ (h.overwrite beside p a b).second (beside p) := by
  rw [overwrite_second (hne p)]
  intro hsecond
  exact hsecond.2 ⟨(ha.others p (hne p)).mpr hsecond.1, rfl⟩

variable (hinj : Function.Injective beside) (hne : ∀ p, beside p ≠ p)
include hinj hne

/-- A second half completes the first half that waits for it; without it, nothing may wait. -/
theorem Awaits.overwrite_matched (ha : h.Awaits beside p)
    (hwait : ∀ q, beside q = p → ((h.first q ∧ ¬ h.second p) ↔ b)) :
    (h.overwrite beside p False b).Matched beside := by
  intro q
  by_cases hq : q = p
  · subst hq
    rw [overwrite_first_self]
    exact ⟨False.elim, fun hsecond => ha.overwrite_beside hne hsecond⟩
  by_cases hbeside : beside q = p
  · rw [hbeside, overwrite_second_self, overwrite_first hq, ← hwait q hbeside]
    exact and_congr_right fun _ => not_congr (and_iff_left hbeside)
  · exact ha.overwrite_others hinj hq hbeside

theorem Matched.overwrite_none (hm : h.Matched beside) :
    (h.overwrite beside p False False).Matched beside := by
  refine (hm.awaits p).overwrite_matched hinj hne fun q hq => ?_
  rw [hm q, hq]
  exact iff_false_intro fun hboth => hboth.2 hboth.1

/-- After a first half was written, its second half is to come to the next place. -/
theorem Matched.overwrite_first (hm : h.Matched beside) :
    (h.overwrite beside p True False).Awaits beside (beside p) where
  others q hq := by
    have hqp : q ≠ p := fun heq => hq (congrArg beside heq)
    by_cases hbeside : beside q = p
    · rw [hbeside, overwrite_second_self, Halves.overwrite_first hqp]
      refine iff_false_intro fun hfirst => hfirst.2 ⟨?_, hbeside⟩
      exact hbeside ▸ (hm q).mp hfirst.1
    · exact (hm.awaits p).overwrite_others hinj hqp hbeside
  before q _ hsecond := absurd hsecond ((hm.awaits p).overwrite_beside hne)

/-- A first half and then its second half. -/
theorem Matched.overwrite_both (hm : h.Matched beside) :
    ((h.overwrite beside p True False).overwrite beside (beside p) False True).Matched beside := by
  refine (hm.overwrite_first hinj hne).overwrite_matched hinj hne fun q hq => ?_
  rw [hinj hq]
  exact iff_true_intro ⟨overwrite_first_self.mpr trivial, (hm.awaits p).overwrite_beside hne⟩

end Halves
end Velacritty
