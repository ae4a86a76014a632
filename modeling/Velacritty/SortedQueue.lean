import Mathlib.Order.Lattice

/-! Queues sorted by a key, where a new entry goes behind those with the same key. Nothing
here names a program. -/
namespace SortedQueue
universe u v
variable {α : Type u} {κ : Type v} [LinearOrder κ] {key : α → κ} {a : α} {q : List α} {k : κ}

/-- No entry has a smaller key than those in front of it. -/
def Sorted (key : α → κ) (q : List α) : Prop := q.Pairwise fun a b => key a ≤ key b

/-- Before the first entry with a larger key. -/
def insert (key : α → κ) (a : α) (q : List α) : List α :=
  q.insertIdx (q.findIdx fun b => decide (key a < key b)) a

@[simp] theorem insert_nil : insert key a [] = [a] := rfl

theorem insert_cons (b : α) : insert key a (b :: q) =
    if key a < key b then a :: b :: q else b :: insert key a q := by
  rw [insert, List.findIdx_cons]
  split
  · next h => rw [decide_eq_true h, cond_true, List.insertIdx_zero]
  · next h => rw [decide_eq_false h, cond_false, List.insertIdx_succ_cons, insert]

theorem insert_perm (key : α → κ) (a : α) (q : List α) : (insert key a q).Perm (a :: q) := by
  induction q with
  | nil => exact .refl _
  | cons b q ih =>
      rw [insert_cons]
      split
      · exact .refl _
      · exact (ih.cons b).trans (.swap a b q)

theorem mem_insert {b : α} : b ∈ insert key a q ↔ b = a ∨ b ∈ q :=
  (insert_perm key a q).mem_iff.trans List.mem_cons

theorem Sorted.insert (h : Sorted key q) (a : α) : Sorted key (insert key a q) := by
  induction q with
  | nil => exact List.pairwise_singleton _ _
  | cons b q ih =>
      obtain ⟨hb, hq⟩ := List.pairwise_cons.mp h
      rw [insert_cons]
      split
      · next hlt =>
          refine List.pairwise_cons.mpr ⟨fun c hc => ?_, h⟩
          rcases List.mem_cons.mp hc with rfl | hc
          · exact le_of_lt hlt
          · exact le_trans (le_of_lt hlt) (hb c hc)
      · next hge =>
          refine List.pairwise_cons.mpr ⟨fun c hc => ?_, ih hq⟩
          rcases mem_insert.mp hc with rfl | hc
          · exact not_lt.mp hge
          · exact hb c hc

/-- Entries in front whose keys are not larger stay in front. -/
theorem insert_append {p : List α} (h : ∀ b ∈ p, key b ≤ key a) :
    insert key a (p ++ q) = p ++ insert key a q := by
  induction p with
  | nil => rfl
  | cons b p ih =>
      obtain ⟨hb, hp⟩ := List.forall_mem_cons.mp h
      rw [List.cons_append, insert_cons, if_neg (not_lt.mpr hb), ih hp, List.cons_append]

/-- A new entry is the last one with its key. -/
theorem filter_insert (h : Sorted key q) (a : α) (k : κ) :
    (insert key a q).filter (fun b => decide (key b = k)) =
      q.filter (fun b => decide (key b = k)) ++ if key a = k then [a] else [] := by
  induction q with
  | nil =>
      rw [insert_nil, List.filter_cons, List.filter_nil]
      simp only [decide_eq_true_iff, List.nil_append]
  | cons b q ih =>
      obtain ⟨hb, hq⟩ := List.pairwise_cons.mp h
      rw [insert_cons]
      split
      · next hlt =>
          rw [List.filter_cons]
          by_cases hk : key a = k
          · have hnone : (b :: q).filter (fun c => decide (key c = k)) = [] := by
              refine List.filter_eq_nil_iff.mpr fun c hc => ?_
              rw [decide_eq_true_iff, ← hk]
              rcases List.mem_cons.mp hc with rfl | hc
              · exact ne_of_gt hlt
              · exact ne_of_gt (lt_of_lt_of_le hlt (hb c hc))
            rw [if_pos (decide_eq_true hk), if_pos hk, hnone, List.nil_append]
          · rw [if_neg (by rwa [decide_eq_true_iff]), if_neg hk, List.append_nil]
      · rw [List.filter_cons, List.filter_cons, ih hq]
        split
        · rfl
        · rfl

/-- Several new entries, one after the other. -/
def insertAll (key : α → κ) (as q : List α) : List α := as.foldl (fun q a => insert key a q) q

theorem insertAll_perm (as q : List α) : (insertAll key as q).Perm (as ++ q) := by
  induction as generalizing q with
  | nil => exact .refl _
  | cons a as ih =>
      refine (ih _).trans (((insert_perm key a q).append_left as).trans ?_)
      exact List.perm_middle

theorem insertAll_append {as p : List α} (h : ∀ a ∈ as, ∀ b ∈ p, key b ≤ key a) (q : List α) :
    insertAll key as (p ++ q) = p ++ insertAll key as q := by
  induction as generalizing q with
  | nil => rfl
  | cons a as ih =>
      obtain ⟨ha, has⟩ := List.forall_mem_cons.mp h
      refine (congrArg (insertAll key as) (insert_append ha)).trans ?_
      exact ih has (insert key a q)

theorem Sorted.insertAll (h : Sorted key q) (as : List α) : Sorted key (insertAll key as q) := by
  induction as generalizing q with
  | nil => exact h
  | cons a as ih => exact ih (h.insert a)

theorem filter_insertAll (h : Sorted key q) (as : List α) (k : κ) :
    (insertAll key as q).filter (fun b => decide (key b = k)) =
      q.filter (fun b => decide (key b = k)) ++ as.filter fun b => decide (key b = k) := by
  induction as generalizing q with
  | nil => exact (List.append_nil _).symm
  | cons a as ih =>
      refine (ih (h.insert a)).trans ?_
      rw [filter_insert h, List.append_assoc, List.filter_cons]
      simp only [decide_eq_true_iff]
      split
      · rfl
      · rfl

/-! ### The front -/

theorem Sorted.takeWhile_le (h : Sorted key q) (k : κ) :
    q.takeWhile (fun a => decide (key a ≤ k)) = q.filter fun a => decide (key a ≤ k) := by
  induction q with
  | nil => rfl
  | cons b q ih =>
      obtain ⟨hb, hq⟩ := List.pairwise_cons.mp h
      rw [List.takeWhile_cons, List.filter_cons]
      split
      · rw [ih hq]
      · next hlt =>
          rw [decide_eq_true_iff, not_le] at hlt
          refine (List.filter_eq_nil_iff.mpr fun c hc => ?_).symm
          rw [decide_eq_true_iff, not_le]
          exact lt_of_lt_of_le hlt (hb c hc)

theorem Sorted.dropWhile_le (h : Sorted key q) (k : κ) :
    q.dropWhile (fun a => decide (key a ≤ k)) = q.filter fun a => decide (k < key a) := by
  induction q with
  | nil => rfl
  | cons b q ih =>
      obtain ⟨hb, hq⟩ := List.pairwise_cons.mp h
      rw [List.dropWhile_cons, List.filter_cons]
      split
      · next hle =>
          rw [ih hq, if_neg]
          rw [decide_eq_true_iff, not_lt]
          exact decide_eq_true_iff.mp hle
      · next hlt =>
          rw [decide_eq_true_iff, not_le] at hlt
          rw [if_pos (decide_eq_true hlt)]
          refine congrArg (b :: ·) (List.filter_eq_self.mpr fun c hc => ?_).symm
          rw [decide_eq_true_iff]
          exact lt_of_lt_of_le hlt (hb c hc)

theorem Sorted.filter (h : Sorted key q) (p : α → Bool) : Sorted key (q.filter p) :=
  List.Pairwise.filter p h

theorem Sorted.sublist {q' : List α} (h : Sorted key q) (hq : q'.Sublist q) : Sorted key q' :=
  List.Pairwise.sublist hq h

end SortedQueue
