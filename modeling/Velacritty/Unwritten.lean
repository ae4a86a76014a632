import Velacritty.Row

/-! The cells of a row that were not written since its last reset. -/
namespace Velacritty
open Fallible

/-- What holds of a list holds of every part of it. -/
structure Hereditary {α : Type} (S : List α → Prop) : Prop where
  nil : S []
  subset : ∀ cells cells', S cells → cells' ⊆ cells → S cells'

theorem hereditary_forall {α : Type} (p : α → Prop) : Hereditary fun cells => ∀ x ∈ cells, p x where
  nil _ hx := absurd hx List.not_mem_nil
  subset _ _ h hsub x hx := h x (hsub hx)

namespace Row
variable {T : Type} {S : List T → Prop} {r r' : Row T}

/-- The cells from `occ` on satisfy `S`. -/
structure Unwritten (S : List T → Prop) (r : Row T) : Prop where
  occ_le : r.occ ≤ r.len
  rest : S (r.inner.drop r.occ)

/-- Cells that a wider row gets were never written. -/
theorem Unwritten.grow [GridCell T] {columns : Nat} (h : r.Unwritten S)
    (hnew : S (r.inner.drop r.occ ++ List.replicate (columns - r.len) default)) :
    (r.grow columns).Unwritten S := by
  unfold Row.grow
  split
  · exact h
  · refine ⟨?_, ?_⟩
    · have hle := h.occ_le
      simp only [len, List.length_append] at *
      omega
    · simp only
      rwa [List.drop_append_of_le_length h.occ_le]

theorem Unwritten.appendFront (h : r.Unwritten S) (vec : List T) : (r.appendFront vec).Unwritten S := by
  refine ⟨appendFront_occ h.occ_le vec, ?_⟩
  simp only [Row.appendFront]
  rw [Nat.add_comm, List.drop_length_add_append]
  exact h.rest

section
variable (hS : Hereditary S)
include hS

/-- All cells of the row were written. -/
theorem unwritten_of_full (hocc : r.occ = r.len) : r.Unwritten S := by
  refine ⟨Nat.le_of_eq hocc, ?_⟩
  rw [hocc, len, List.drop_length]
  exact hS.nil

theorem Unwritten.drop (h : r.Unwritten S) {n : Nat} (hn : r.occ ≤ n) : S (r.inner.drop n) :=
  hS.subset _ _ h.rest (List.drop_subset_drop_left _ hn)

theorem Unwritten.written (h : r.Unwritten S) {n : Nat} (hlen : r'.len = r.len) (hn : n ≤ r.len)
    (hocc : r'.occ = max r.occ n) (hrest : r'.inner.drop r'.occ = r.inner.drop r'.occ) :
    r'.Unwritten S := by
  refine ⟨?_, ?_⟩
  · rw [hocc, hlen]
    exact Nat.max_le.mpr ⟨h.occ_le, hn⟩
  · rw [hrest, hocc]
    exact h.drop hS (Nat.le_max_left _ _)

theorem Unwritten.modify (h : r.Unwritten S) (column : Nat) (f : T → T) :
    Allows (r.modify column f) (Unwritten S) := by
  intro r' hr'
  unfold Row.modify at hr'
  split at hr'
  · next hlt =>
      cases hr'
      refine h.written hS (n := column + 1) ?_ hlt rfl ?_
      · simp only [len, List.length_modify]
      · have hlt' : column < max r.occ (column + 1) := Nat.le_max_right _ _
        exact List.drop_modify_of_lt _ _ _ _ hlt'
  · cases hr'

theorem Unwritten.splice (h : r.Unwritten S) {start stop : Nat} {cells : List T}
    (hstart : start ≤ stop) (hstop : stop ≤ r.len) (hcells : cells.length = stop - start) :
    (Row.mk (r.inner.take start ++ cells ++ r.inner.drop stop) (max r.occ stop)).Unwritten S := by
  simp only [len] at hstop
  have hfront : (r.inner.take start ++ cells).length = stop := by
    rw [List.length_append, hcells, List.length_take, Nat.min_eq_left (Nat.le_trans hstart hstop)]
    omega
  refine h.written hS (n := stop) ?_ hstop rfl ?_
  · simp only [len]
    rw [List.length_append, hfront, List.length_drop]
    omega
  · simp only
    rw [List.drop_append, List.drop_eq_nil_of_le (by omega), hfront, List.nil_append, List.drop_drop]
    congr 1
    omega

theorem Unwritten.modifyRange (h : r.Unwritten S) (start stop : Nat) (f : T → T) :
    Allows (r.modifyRange start stop f) (Unwritten S) := by
  intro r' hr'
  unfold Row.modifyRange at hr'
  split at hr'
  · next hle =>
      cases hr'
      refine h.splice hS hle.1 hle.2 ?_
      have hstop := hle.2
      simp only [len] at hstop
      rw [List.length_map, List.length_take, List.length_drop]
      omega
  · cases hr'

theorem modifyLast_unwritten (r : Row T) (f : T → T) : (r.modifyLast f).Unwritten S :=
  unwritten_of_full hS (by rw [len_modifyLast, occ_modifyLast])

theorem Unwritten.shrink [GridCell T] (h : r.Unwritten S) (columns : Nat) : (r.shrink columns).1.Unwritten S := by
  refine ⟨occ_shrink_le h.occ_le columns, ?_⟩
  unfold Row.shrink
  split
  · exact h.rest
  · simp only
    rw [List.drop_take]
    by_cases hle : r.occ ≤ columns
    · rw [Nat.min_eq_left hle]
      exact hS.subset _ _ h.rest (List.take_subset _ _)
    · rw [Nat.min_eq_right (Nat.le_of_not_le hle), Nat.sub_self, List.take_zero]
      exact hS.nil

theorem append_unwritten (hfull : r.occ = r.len) (vec : List T) : (r.append vec).Unwritten S := by
  refine unwritten_of_full hS ?_
  rw [len_append, ← hfull]
  rfl

theorem Unwritten.frontSplitOff (h : r.Unwritten S) (n : Nat) :
    Allows (r.frontSplitOff n) fun p => p.2.Unwritten S := by
  intro p hp
  unfold Row.frontSplitOff at hp
  split at hp
  · next hle =>
      cases hp
      have hocc := h.occ_le
      refine ⟨?_, ?_⟩
      · simp only [len, List.length_drop] at *
        omega
      · simp only [List.drop_drop]
        exact h.drop hS (by omega)
  · cases hp

end

end Row
end Velacritty
