import Velacritty.Handler
import Velacritty.StoredRows

/-! Where a row may have the spacers that complete its fullwidth characters. -/
namespace Velacritty
open Fallible

namespace Cell

/-- The cell is no half of a fullwidth character. -/
structure Plain (cell : Cell) : Prop where
  wideChar : cell.flags.wideChar = false
  spacer : cell.flags.wideCharSpacer = false

/-- The update makes no half of a fullwidth character. -/
def KeepsHalves (f : Cell → Cell) : Prop :=
  ∀ cell, ((f cell).flags.wideCharSpacer = true → cell.flags.wideCharSpacer = true) ∧
    ((f cell).flags.wideChar = true → cell.flags.wideChar = true)

theorem blank_plain : Plain .blank := ⟨rfl, rfl⟩

theorem ofColor_plain (color : Color) : Plain (.ofColor color) := ⟨rfl, rfl⟩

theorem setWrapline_keepsHalves (b : Bool) : KeepsHalves (setWrapline b) := fun _ => ⟨id, id⟩

theorem modifyFlags_keepsHalves {f : Flags → Flags}
    (hf : ∀ flags, ((f flags).wideCharSpacer = true → flags.wideCharSpacer = true) ∧
      ((f flags).wideChar = true → flags.wideChar = true)) :
    KeepsHalves (GridCell.modifyFlags f) := fun cell => hf cell.flags

theorem clearWide_keepsHalves : KeepsHalves clearWide := fun _ => ⟨id, fun h => nomatch h⟩

theorem pushZerowidth_keepsHalves (c : Char) : KeepsHalves (pushZerowidth · c) := fun _ => ⟨id, id⟩

end Cell

namespace Row

/-- Spacers have been written, are not wide themselves, and are not in the first `n` columns. -/
structure Spaced (n : Nat) (r : Row Cell) : Prop where
  occ_le : r.occ ≤ r.len
  spacer : ∀ k cell, r.inner[k]? = some cell → cell.flags.wideCharSpacer = true →
    n ≤ k ∧ k < r.occ ∧ cell.flags.wideChar = false

structure SpacerFree (r : Row Cell) : Prop where
  occ_le : r.occ ≤ r.len
  cells : ∀ cell ∈ r.inner, cell.flags.wideCharSpacer = false

variable {r r' : Row Cell} {n m : Nat}

theorem SpacerFree.spaced (h : r.SpacerFree) (n : Nat) : r.Spaced n := by
  refine ⟨h.occ_le, fun k cell hcell hspacer => ?_⟩
  rw [h.cells cell (List.mem_of_getElem? hcell)] at hspacer
  cases hspacer

theorem Spaced.mono (h : r.Spaced n) (hm : m ≤ n) : r.Spaced m := by
  refine ⟨h.occ_le, fun k cell hcell hspacer => ?_⟩
  obtain ⟨hn, hrest⟩ := h.spacer k cell hcell hspacer
  exact ⟨Nat.le_trans hm hn, hrest⟩

theorem new_spacerFree (columns : Nat) : (new columns : Row Cell).SpacerFree :=
  ⟨Nat.zero_le _, fun _ hcell => List.eq_of_mem_replicate hcell ▸ rfl⟩

/-- A reset leaves no spacer: the cells that it misses were never written. -/
theorem Spaced.reset (h : r.Spaced n) (template : Cell) : Allows (r.reset template) SpacerFree := by
  intro r' hr'
  simp only [Row.reset, Option.bind_eq_bind, Option.bind_eq_some_iff, ite_eq_iff, reduceCtorEq,
    and_false, or_false, Option.some.injEq] at hr'
  obtain ⟨last, -, hocc, rfl⟩ := hr'
  refine ⟨Nat.zero_le _, fun cell hcell => ?_⟩
  rcases List.mem_append.mp hcell with hcell | hcell
  · obtain ⟨_, -, rfl⟩ := List.mem_map.mp hcell
    rfl
  · obtain ⟨k, hk⟩ := List.getElem?_of_mem hcell
    rw [List.getElem?_drop] at hk
    have hlt := (List.getElem?_eq_some_iff.mp hk).1
    refine Bool.eq_false_iff.mpr fun hspacer => ?_
    have hocc' := (h.spacer _ _ hk hspacer).2.1
    simp only [len] at hlt hocc'
    cases hsame : GridCell.sameDiscriminant last template <;>
      simp only [hsame, Bool.false_eq_true, if_false, if_true] at hlt hocc' <;> omega

theorem spaced_lasting (n : Nat) : Storage.Lasting (Spaced n) where
  new columns := (new_spacerFree columns).spaced n
  reset _ template h := (h.reset template).mono fun _ hr' => hr'.spaced n

theorem Spaced.modify (h : r.Spaced n) {column : Nat} {f : Cell → Cell}
    (hf : ∀ cell, r.get column = some cell → (f cell).flags.wideCharSpacer = true →
      n ≤ column ∧ (f cell).flags.wideChar = false) : Allows (r.modify column f) (Spaced n) := by
  intro r' hr'
  obtain ⟨hself, hother⟩ := modify_get hr'
  have hocc : r'.occ = max r.occ (column + 1) ∧ r'.occ ≤ r'.len := by
    unfold Row.modify at hr'
    split at hr'
    · next hlt =>
        cases hr'
        refine ⟨rfl, ?_⟩
        have hle := h.occ_le
        simp only [len, List.length_modify] at *
        omega
    · cases hr'
  refine ⟨hocc.2, fun k cell hcell hspacer => ?_⟩
  by_cases hk : k = column
  · subst hk
    obtain ⟨old, hold, rfl⟩ := Option.map_eq_some_iff.mp (hself.symm.trans hcell)
    obtain ⟨hn, hwide⟩ := hf old hold hspacer
    exact ⟨hn, by omega, hwide⟩
  · obtain ⟨hn, hlt, hwide⟩ := h.spacer k cell ((hother k hk).symm.trans hcell) hspacer
    exact ⟨hn, by omega, hwide⟩

theorem Spaced.modify_keeps (h : r.Spaced n) {column : Nat} {f : Cell → Cell}
    (hf : Cell.KeepsHalves f) : Allows (r.modify column f) (Spaced n) := by
  refine h.modify fun cell hcell hspacer => ?_
  obtain ⟨hn, -, hwide⟩ := h.spacer column cell hcell ((hf cell).1 hspacer)
  exact ⟨hn, Bool.eq_false_iff.mpr fun hw => Bool.false_ne_true (hwide.symm.trans ((hf cell).2 hw))⟩

/-- Writing the first column makes up for a spacer in it. -/
theorem Spaced.modify_first (h : r.Spaced 0) {f : Cell → Cell}
    (hf : ∀ cell, (f cell).flags.wideCharSpacer = false) : Allows (r.modify 0 f) (Spaced 1) := by
  intro r' hr'
  obtain ⟨hself, -⟩ := modify_get hr'
  have hspaced : r'.Spaced 0 := by
    refine h.modify (fun cell _ hspacer => ?_) r' hr'
    rw [hf cell] at hspacer
    cases hspacer
  refine ⟨hspaced.occ_le, fun k cell hcell hspacer => ?_⟩
  refine ⟨Nat.one_le_iff_ne_zero.mpr ?_, (hspaced.spacer k cell hcell hspacer).2⟩
  rintro rfl
  obtain ⟨old, -, rfl⟩ := Option.map_eq_some_iff.mp (hself.symm.trans hcell)
  rw [hf old] at hspacer
  cases hspacer

theorem touch_spaced (h : r.Spaced n) : r.touch.Spaced n := by
  refine ⟨Nat.le_refl _, fun k cell hcell hspacer => ?_⟩
  obtain ⟨hn, -, hwide⟩ := h.spacer k cell hcell hspacer
  exact ⟨hn, (List.getElem?_eq_some_iff.mp hcell).1, hwide⟩

theorem Spaced.swap (h : r.Spaced n) {a b : Nat} (ha : n ≤ a) (hb : n ≤ b) :
    Allows (r.swap a b) (Spaced n) := by
  intro r' hr'
  simp only [Row.swap, Option.bind_eq_bind, Option.bind_eq_some_iff, Option.some.injEq] at hr'
  obtain ⟨x, hx, y, hy, rfl⟩ := hr'
  have hlen : ((r.inner.set a y).set b x).length = r.len := by simp only [List.length_set, len]
  refine ⟨Nat.le_of_eq hlen.symm, fun k cell hcell hspacer => ?_⟩
  have hk : k < r.len := hlen ▸ (List.getElem?_eq_some_iff.mp hcell).1
  have hkeep : n ≤ k ∧ cell.flags.wideChar = false := by
    rw [List.getElem?_set] at hcell
    split at hcell
    · next hbk =>
        simp only [Option.ite_none_right_eq_some, Option.some.injEq] at hcell
        obtain ⟨-, rfl⟩ := hcell
        exact ⟨hbk ▸ hb, (h.spacer a x hx hspacer).2.2⟩
    · rw [List.getElem?_set] at hcell
      split at hcell
      · next hak =>
          simp only [Option.ite_none_right_eq_some, Option.some.injEq] at hcell
          obtain ⟨-, rfl⟩ := hcell
          exact ⟨hak ▸ ha, (h.spacer b y hy hspacer).2.2⟩
      · obtain ⟨hn, -, hwide⟩ := h.spacer k cell hcell hspacer
        exact ⟨hn, hwide⟩
  exact ⟨hkeep.1, hk, hkeep.2⟩

theorem Spaced.swapAll (h : r.Spaced n) {a b : Nat} {offsets : List Nat}
    (ho : ∀ o ∈ offsets, n ≤ a + o ∧ n ≤ b + o) : Allows (r.swapAll a b offsets) (Spaced n) :=
  fun _ hr' => foldlM_invariant h
    (fun _ o _ hs hmem hstep => hs.swap (ho o hmem).2 (ho o hmem).1 _ hstep) hr'

theorem modifyRange_filled {start stop : Nat} {filler : Cell}
    (h : r.modifyRange start stop (fun _ => filler) = some r') {k : Nat} (hlo : start ≤ k)
    (hhi : k < stop) {cell : Cell} (hcell : r'.get k = some cell) : cell = filler := by
  unfold modifyRange at h
  split at h
  · next hle =>
      cases h
      simp only [len] at hle
      have hstart : (r.inner.take start).length = start := List.length_take_of_le (by omega)
      simp only [get] at hcell
      rw [List.append_assoc, List.getElem?_append_right (by omega), List.getElem?_append_left] at hcell
      · obtain ⟨_, -, rfl⟩ := List.mem_map.mp (List.mem_of_getElem? hcell)
        rfl
      · rw [hstart, List.length_map, List.length_take, List.length_drop]
        omega
  · cases h

theorem Spaced.fill (h : r.Spaced n) {start stop : Nat} {filler : Cell} (hfiller : filler.Plain)
    (hm : ∀ k, n ≤ k → k < m → start ≤ k ∧ k < stop) :
    Allows (r.modifyRange start stop fun _ => filler) (Spaced m) := by
  intro r' hr'
  have hother := modifyRange_get hr'
  have hocc : r'.occ = max r.occ stop ∧ r'.occ ≤ r'.len := by
    have hle := h.occ_le
    unfold modifyRange at hr'
    split at hr'
    · next hcond =>
        cases hr'
        refine ⟨rfl, ?_⟩
        simp only [len, List.length_append, List.length_map, List.length_take, List.length_drop] at *
        omega
    · cases hr'
  refine ⟨hocc.2, fun k cell hcell hspacer => ?_⟩
  by_cases hk : start ≤ k ∧ k < stop
  · rw [modifyRange_filled hr' hk.1 hk.2 hcell, hfiller.spacer] at hspacer
    cases hspacer
  · obtain ⟨hn, hlt, hwide⟩ := h.spacer k cell ((hother k hk).symm.trans hcell) hspacer
    refine ⟨?_, by omega, hwide⟩
    by_contra hlt'
    exact hk (hm k hn (Nat.lt_of_not_le hlt'))

end Row
end Velacritty
