import Mathlib.Data.List.Basic

/-! Maps as lists of entries in their order. Nothing here names a program. -/
namespace OrderedMap
universe u v
variable {κ : Type u} {α : Type v} [DecidableEq κ]

/-- Replace the value of a key in its place, or append a new entry. -/
def insert (k : κ) (a : α) : List (κ × α) → List (κ × α)
  | [] => [(k, a)]
  | (k', b) :: m => if k' = k then (k, a) :: m else (k', b) :: insert k a m

def erase (k : κ) (m : List (κ × α)) : List (κ × α) := m.filter fun e => e.1 ≠ k

theorem lookup_cons_eq (k : κ) (a : α) (m : List (κ × α)) : ((k, a) :: m).lookup k = some a := by
  simp only [List.lookup_cons, beq_self_eq_true]

theorem lookup_cons_ne {k k' : κ} (h : k ≠ k') (a : α) (m : List (κ × α)) :
    ((k', a) :: m).lookup k = m.lookup k := by
  rw [List.lookup_cons, beq_eq_false_iff_ne.mpr h]

theorem lookup_insert_self (k : κ) (a : α) (m : List (κ × α)) : (insert k a m).lookup k = some a := by
  induction m with
  | nil => exact lookup_cons_eq k a []
  | cons e m ih =>
      obtain ⟨k', b⟩ := e
      unfold insert
      split
      · exact lookup_cons_eq k a m
      · next h => rw [lookup_cons_ne (Ne.symm h), ih]

theorem lookup_insert_ne {k k' : κ} (h : k' ≠ k) (a : α) (m : List (κ × α)) :
    (insert k a m).lookup k' = m.lookup k' := by
  induction m with
  | nil => exact lookup_cons_ne h a []
  | cons e m ih =>
      obtain ⟨j, b⟩ := e
      unfold insert
      split
      · next hj => rw [lookup_cons_ne h, hj, lookup_cons_ne h]
      · by_cases hj : k' = j
        · rw [hj, lookup_cons_eq, lookup_cons_eq]
        · rw [lookup_cons_ne hj, lookup_cons_ne hj, ih]

theorem lookup_erase_self (k : κ) (m : List (κ × α)) : (erase k m).lookup k = none := by
  rw [List.lookup_eq_none_iff]
  intro e he
  have hne : e.1 ≠ k := of_decide_eq_true (List.mem_filter.mp he).2
  exact bne_iff_ne.mpr hne.symm

theorem lookup_erase_ne {k k' : κ} (h : k' ≠ k) (m : List (κ × α)) :
    (erase k m).lookup k' = m.lookup k' := by
  induction m with
  | nil => rfl
  | cons e m ih =>
      obtain ⟨j, b⟩ := e
      by_cases hj : j = k
      · have hdrop : erase k ((j, b) :: m) = erase k m := List.filter_cons_of_neg (by simp [hj])
        rw [hdrop, ih, hj, lookup_cons_ne h]
      · have hkeep : erase k ((j, b) :: m) = (j, b) :: erase k m :=
          List.filter_cons_of_pos (by simp [hj])
        rw [hkeep]
        by_cases hk : k' = j
        · rw [hk, lookup_cons_eq, lookup_cons_eq]
        · rw [lookup_cons_ne hk, lookup_cons_ne hk, ih]

theorem mem_of_lookup {k : κ} {a : α} {m : List (κ × α)} (h : m.lookup k = some a) : (k, a) ∈ m := by
  obtain ⟨before, after, rfl, -⟩ := List.lookup_eq_some_iff.mp h
  exact List.mem_append_right _ List.mem_cons_self

theorem mem_insert {k : κ} {a : α} {m : List (κ × α)} {e : κ × α} (h : e ∈ insert k a m) :
    e = (k, a) ∨ e ∈ m := by
  induction m with
  | nil => exact .inl (List.mem_singleton.mp h)
  | cons e' m ih =>
      obtain ⟨k', b⟩ := e'
      unfold insert at h
      split at h
      · exact (List.mem_cons.mp h).imp id (List.mem_cons_of_mem _)
      · rcases List.mem_cons.mp h with rfl | h
        · exact .inr List.mem_cons_self
        · exact (ih h).imp id (List.mem_cons_of_mem _)

theorem mem_keys_insert {k k' : κ} {a : α} {m : List (κ × α)} :
    k' ∈ (insert k a m).map Prod.fst ↔ k' = k ∨ k' ∈ m.map Prod.fst := by
  induction m with
  | nil => simp [insert]
  | cons e m ih =>
      obtain ⟨j, b⟩ := e
      unfold insert
      split
      · rename_i heq
        simp [heq]
      · rw [List.map_cons, List.map_cons, List.mem_cons, List.mem_cons, ih]
        exact or_left_comm

end OrderedMap
