import Mathlib.Order.Lattice
import Velacritty.OrderedMap

/-! Maps as lists of entries that are sorted by their keys. Nothing here names a program. -/
namespace SortedMap
open OrderedMap
universe u v
variable {κ : Type u} {α : Type v} [LinearOrder κ] {k j : κ} {a b : α} {m m' : List (κ × α)}

/-- Every key comes before those behind it. -/
def Sorted (m : List (κ × α)) : Prop := m.Pairwise fun e e' => e.1 < e'.1

/-- Put a new entry before the first one with a larger key. -/
def insertNew (k : κ) (a : α) : List (κ × α) → List (κ × α)
  | [] => [(k, a)]
  | (k', b) :: m => if k < k' then (k, a) :: (k', b) :: m else (k', b) :: insertNew k a m

/-- Replace the value of a key, or add an entry for it. -/
def insert (k : κ) (a : α) (m : List (κ × α)) : List (κ × α) := insertNew k a (erase k m)

theorem mem_insertNew {e : κ × α} : e ∈ insertNew k a m ↔ e = (k, a) ∨ e ∈ m := by
  induction m with
  | nil => exact List.mem_singleton.trans (or_iff_left List.not_mem_nil).symm
  | cons x m ih =>
      unfold insertNew
      split
      · exact List.mem_cons
      · rw [List.mem_cons, ih, List.mem_cons, or_left_comm]

theorem mem_erase {e : κ × α} : e ∈ erase k m ↔ e ∈ m ∧ e.1 ≠ k := by
  rw [erase, List.mem_filter, decide_eq_true_iff]

theorem Sorted.insert (h : Sorted m) (k : κ) (a : α) : Sorted (insert k a m) := by
  have herase : Sorted (erase k m) := List.Pairwise.filter _ h
  have hne : ∀ e ∈ erase k m, e.1 ≠ k := fun e he => (mem_erase.mp he).2
  unfold SortedMap.insert
  generalize erase k m = rest at herase hne
  clear h
  induction rest with
  | nil => exact List.pairwise_singleton _ _
  | cons x rest ih =>
      obtain ⟨k', b⟩ := x
      obtain ⟨hfirst, hrest⟩ := List.pairwise_cons.mp herase
      obtain ⟨hx, hne⟩ := List.forall_mem_cons.mp hne
      unfold insertNew
      split
      · next hlt =>
          refine List.pairwise_cons.mpr ⟨fun e he => ?_, herase⟩
          rcases List.mem_cons.mp he with rfl | he
          · exact hlt
          · exact lt_trans hlt (hfirst e he)
      · next hge =>
          refine List.pairwise_cons.mpr ⟨fun e he => ?_, ih hrest hne⟩
          rcases mem_insertNew.mp he with rfl | he
          · exact lt_of_le_of_ne (not_lt.mp hge) hx
          · exact hfirst e he

theorem lookup_insertNew (h : m.lookup k = none) (j : κ) :
    (insertNew k a m).lookup j = if j = k then some a else m.lookup j := by
  induction m with
  | nil =>
      unfold insertNew
      split
      · next hj => rw [hj, lookup_cons_eq]
      · next hj => exact lookup_cons_ne hj a []
  | cons x m ih =>
      obtain ⟨k', b⟩ := x
      have hne : k ≠ k' := by
        rintro rfl
        rw [lookup_cons_eq] at h
        exact Option.some_ne_none b h
      rw [lookup_cons_ne hne] at h
      unfold insertNew
      split
      · split
        · next hj => rw [hj, lookup_cons_eq]
        · next hj => exact lookup_cons_ne hj a _
      · by_cases hj : j = k'
        · rw [hj, lookup_cons_eq, lookup_cons_eq, if_neg hne.symm]
        · rw [lookup_cons_ne hj, lookup_cons_ne hj, ih h]

theorem lookup_insert_self (k : κ) (a : α) (m : List (κ × α)) : (insert k a m).lookup k = some a := by
  rw [insert, lookup_insertNew (lookup_erase_self k m), if_pos rfl]

theorem lookup_insert_ne (h : j ≠ k) (a : α) (m : List (κ × α)) : (insert k a m).lookup j = m.lookup j := by
  rw [insert, lookup_insertNew (lookup_erase_self k m), if_neg h, lookup_erase_ne h]

/-- A key that is not behind the first one is not in the map. -/
theorem Sorted.lookup_eq_none {e : κ × α} (h : Sorted (e :: m)) (hk : k ≤ e.1) : m.lookup k = none := by
  rw [List.lookup_eq_none_iff]
  intro x hx
  exact bne_iff_ne.mpr (ne_of_lt (lt_of_le_of_lt hk ((List.pairwise_cons.mp h).1 x hx)))

theorem mem_of_lookup (h : m.lookup k = some a) : (k, a) ∈ m := by
  induction m with
  | nil => exact absurd h.symm (Option.some_ne_none a)
  | cons e m ih =>
      obtain ⟨k', b⟩ := e
      by_cases hk : k = k'
      · rw [hk, lookup_cons_eq] at h
        rw [hk, Option.some.inj h]
        exact List.mem_cons_self
      · rw [lookup_cons_ne hk] at h
        exact List.mem_cons_of_mem _ (ih h)

theorem Sorted.lookup_of_mem (h : Sorted m) (hmem : (k, a) ∈ m) : m.lookup k = some a := by
  induction m with
  | nil => exact absurd hmem List.not_mem_nil
  | cons e m ih =>
      obtain ⟨hfirst, hrest⟩ := List.pairwise_cons.mp h
      rcases List.mem_cons.mp hmem with rfl | hmem
      · exact lookup_cons_eq k a m
      · rw [show e = (e.1, e.2) from rfl, lookup_cons_ne (ne_of_gt (hfirst _ hmem)), ih hrest hmem]

/-- Sorted maps with the same values are equal. -/
theorem Sorted.ext (h : Sorted m) (h' : Sorted m') (heq : ∀ k, m.lookup k = m'.lookup k) : m = m' := by
  induction m generalizing m' with
  | nil =>
      cases m' with
      | nil => rfl
      | cons e m' =>
          have hnone := heq e.1
          rw [show e = (e.1, e.2) from rfl, lookup_cons_eq] at hnone
          exact absurd hnone.symm (Option.some_ne_none e.2)
  | cons e m ih =>
      obtain ⟨k, a⟩ := e
      cases m' with
      | nil =>
          have hnone := heq k
          rw [lookup_cons_eq] at hnone
          exact absurd hnone (Option.some_ne_none a)
      | cons e' m' =>
          obtain ⟨k', a'⟩ := e'
          have hk : k = k' := by
            rcases lt_trichotomy k k' with hlt | hkk | hgt
            · have hnone := heq k
              rw [lookup_cons_eq, lookup_cons_ne (ne_of_lt hlt), h'.lookup_eq_none (le_of_lt hlt)] at hnone
              exact absurd hnone (Option.some_ne_none a)
            · exact hkk
            · have hnone := heq k'
              rw [lookup_cons_eq, lookup_cons_ne (ne_of_lt hgt), h.lookup_eq_none (le_of_lt hgt)] at hnone
              exact absurd hnone.symm (Option.some_ne_none a')
          subst hk
          have ha := heq k
          rw [lookup_cons_eq, lookup_cons_eq] at ha
          rw [Option.some.inj ha, ih (List.pairwise_cons.mp h).2 (List.pairwise_cons.mp h').2]
          intro j
          have hj := heq j
          by_cases hjk : j = k
          · rw [hjk, h.lookup_eq_none (le_refl k), h'.lookup_eq_none (le_refl k)]
          · rwa [lookup_cons_ne hjk, lookup_cons_ne hjk] at hj

end SortedMap
