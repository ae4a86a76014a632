import Velacritty.SpacerReflow
import Velacritty.Stocked
import Velacritty.Unwritten

/-! Rows whose halves of fullwidth characters were all written: what a reset of such a row
leaves has no halves. -/
namespace Velacritty
open Fallible

namespace Cell

/-- The cell is not both halves of a fullwidth character at once. -/
def Single (cell : Cell) : Prop := cell.flags.wideCharSpacer = true → cell.flags.wideChar = false

theorem Plain.single {cell : Cell} (h : cell.Plain) : cell.Single := fun _ => h.wideChar

theorem Single.keeps {cell : Cell} {f : Cell → Cell} (h : cell.Single) (hf : KeepsHalves f) :
    (f cell).Single := by
  intro hspacer
  refine Bool.eq_false_iff.mpr fun hwide => ?_
  exact Bool.false_ne_true ((h ((hf cell).1 hspacer)).symm.trans ((hf cell).2 hwide))

end Cell

namespace Row

/-- Cells that were not written are no halves, and no cell is both halves at once. -/
structure Halved (r : Row Cell) : Prop where
  unwritten : r.Unwritten fun cells => ∀ cell ∈ cells, cell.Plain
  single : ∀ cell ∈ r.inner, cell.Single

variable {r r' : Row Cell} {cells : List Cell} {columns : Nat}

theorem plain_hereditary : Hereditary fun cells : List Cell => ∀ cell ∈ cells, cell.Plain :=
  hereditary_forall _

theorem replicate_plain (count : Nat) : ∀ cell ∈ List.replicate count (default : Cell), cell.Plain :=
  fun _ hcell => List.eq_of_mem_replicate hcell ▸ Cell.blank_plain

theorem halved_of_plain (hocc : r.occ ≤ r.len) (h : ∀ cell ∈ r.inner, cell.Plain) : r.Halved :=
  ⟨⟨hocc, fun cell hcell => h cell (List.mem_of_mem_drop hcell)⟩, fun cell hcell => (h cell hcell).single⟩

theorem halved_of_full (hocc : r.occ = r.len) (h : ∀ cell ∈ r.inner, cell.Single) : r.Halved :=
  ⟨unwritten_of_full plain_hereditary hocc, h⟩

theorem new_halved (columns : Nat) : (new columns : Row Cell).Halved :=
  halved_of_plain (Nat.zero_le _) (replicate_plain columns)

/-- A reset leaves no halves: the cells that it misses were not written. -/
theorem Halved.reset_plain (h : r.Halved) (template : Cell) :
    Allows (r.reset template) fun r' => r'.occ ≤ r'.len ∧ ∀ cell ∈ r'.inner, cell.Plain := by
  intro r' hr'
  simp only [Row.reset, Option.bind_eq_bind, Option.bind_eq_some_iff, ite_eq_iff, reduceCtorEq,
    and_false, or_false, Option.some.injEq] at hr'
  obtain ⟨last, -, hocc, rfl⟩ := hr'
  refine ⟨Nat.zero_le _, fun cell hcell => ?_⟩
  rcases List.mem_append.mp hcell with hcell | hcell
  · obtain ⟨_, -, rfl⟩ := List.mem_map.mp hcell
    exact Cell.ofColor_plain _
  · refine h.unwritten.drop plain_hereditary ?_ cell hcell
    split
    · exact Nat.le_refl _
    · exact h.unwritten.occ_le

theorem Halved.modify (h : r.Halved) {column : Nat} {f : Cell → Cell}
    (hf : ∀ cell, r.get column = some cell → (f cell).Single) : Allows (r.modify column f) Halved := by
  intro r' hr'
  refine ⟨h.unwritten.modify plain_hereditary column f r' hr', fun cell hcell => ?_⟩
  obtain ⟨hself, hother⟩ := modify_get hr'
  obtain ⟨k, hk⟩ := List.getElem?_of_mem hcell
  by_cases hcolumn : k = column
  · subst hcolumn
    obtain ⟨old, hold, rfl⟩ := Option.map_eq_some_iff.mp (hself.symm.trans hk)
    exact hf old hold
  · exact h.single cell (List.mem_of_getElem? ((hother k hcolumn).symm.trans hk))

theorem Halved.fill (h : r.Halved) {start stop : Nat} {filler : Cell} (hfiller : filler.Plain) :
    Allows (r.modifyRange start stop fun _ => filler) Halved := by
  intro r' hr'
  refine ⟨h.unwritten.modifyRange plain_hereditary _ _ _ r' hr', fun cell hcell => ?_⟩
  have hother := modifyRange_get hr'
  obtain ⟨k, hk⟩ := List.getElem?_of_mem hcell
  by_cases hin : start ≤ k ∧ k < stop
  · rw [modifyRange_filled hr' hin.1 hin.2 hk]
    exact hfiller.single
  · exact h.single cell (List.mem_of_getElem? ((hother k hin).symm.trans hk))

theorem halved_kept : Kept Halved where
  lasting :=
    { new := new_halved
      reset := fun _ template h => (h.reset_plain template).mono fun _ h' => halved_of_plain h'.1 h'.2 }
  modify _ _ _ h hf := h.modify fun cell hcell =>
    (h.single cell (List.mem_of_getElem? hcell)).keeps hf
  fill _ _ _ _ h hfiller := h.fill hfiller

theorem touch_halved (h : r.Halved) : r.touch.Halved := halved_of_full rfl h.single

theorem Halved.swap (h : r.Halved) {a b : Nat} : Allows (r.swap a b) Halved := by
  intro r' hr'
  simp only [Row.swap, Option.bind_eq_bind, Option.bind_eq_some_iff, Option.some.injEq] at hr'
  obtain ⟨x, hx, y, hy, rfl⟩ := hr'
  refine halved_of_full (by simp only [len, List.length_set]) fun cell hcell => ?_
  rcases List.mem_or_eq_of_mem_set hcell with hcell | rfl
  · rcases List.mem_or_eq_of_mem_set hcell with hcell | rfl
    · exact h.single cell hcell
    · exact h.single cell (List.mem_of_getElem? hy)
  · exact h.single cell (List.mem_of_getElem? hx)

theorem Halved.swapAll (h : r.Halved) {a b : Nat} {offsets : List Nat} :
    Allows (r.swapAll a b offsets) Halved :=
  fun _ hr' => foldlM_invariant h (fun _ _ _ hs _ hstep => hs.swap _ hstep) hr'

/-! ### Reflow -/

theorem updateLast_single {f : Cell → Cell} (hf : Cell.KeepsHalves f)
    (h : ∀ cell ∈ cells, cell.Single) : ∀ cell ∈ updateLast f cells, cell.Single := by
  intro cell hcell
  obtain ⟨k, hk⟩ := List.getElem?_of_mem hcell
  simp only [updateLast, List.getElem?_modify, Option.map_eq_map, Option.map_eq_some_iff] at hk
  obtain ⟨old, hold, rfl⟩ := hk
  have hsingle := h old (List.mem_of_getElem? hold)
  split
  · exact hsingle.keeps hf
  · exact hsingle

theorem Halved.modifyLast (h : r.Halved) {f : Cell → Cell} (hf : Cell.KeepsHalves f) :
    (r.modifyLast f).Halved :=
  halved_of_full (by rw [len_modifyLast, occ_modifyLast]) (updateLast_single hf h.single)

theorem Halved.shrink (h : r.Halved) (columns : Nat) : (r.shrink columns).1.Halved := by
  refine ⟨h.unwritten.shrink plain_hereditary columns, fun cell hcell => h.single cell ?_⟩
  unfold Row.shrink at hcell
  split at hcell
  · exact hcell
  · exact List.mem_of_mem_take hcell

theorem Halved.grow (h : r.Halved) (columns : Nat) : (r.grow columns).Halved := by
  refine ⟨h.unwritten.grow fun cell hcell => ?_, fun cell hcell => ?_⟩
  · rcases List.mem_append.mp hcell with hcell | hcell
    · exact h.unwritten.rest cell hcell
    · exact replicate_plain _ cell hcell
  · unfold Row.grow at hcell
    split at hcell
    · exact h.single cell hcell
    · rcases List.mem_append.mp hcell with hcell | hcell
      · exact h.single cell hcell
      · exact (replicate_plain _ cell hcell).single

theorem single_append {cells' : List Cell} (h : ∀ cell ∈ cells, cell.Single)
    (h' : ∀ cell ∈ cells', cell.Single) : ∀ cell ∈ cells ++ cells', cell.Single :=
  fun cell hcell => (List.mem_append.mp hcell).elim (h cell) (h' cell)

/-- Cells follow a row whose last cell was just written. -/
theorem Halved.append (h : r.Halved) (hocc : r.occ = r.len) (hc : ∀ cell ∈ cells, cell.Single) :
    (r.append cells).Halved :=
  ⟨append_unwritten plain_hereditary hocc cells, single_append h.single hc⟩

theorem Halved.appendFront (h : r.Halved) (hc : ∀ cell ∈ cells, cell.Single) :
    (r.appendFront cells).Halved :=
  ⟨h.unwritten.appendFront cells, single_append hc h.single⟩

theorem Halved.frontSplitOff (h : r.Halved) (n : Nat) :
    Allows (r.frontSplitOff n) fun p => (∀ cell ∈ p.1, cell.Single) ∧ p.2.Halved := by
  intro p hp
  have hrest := h.unwritten.frontSplitOff plain_hereditary n p hp
  unfold Row.frontSplitOff at hp
  split at hp
  · cases hp
    exact ⟨fun cell hcell => h.single cell (List.mem_of_mem_take hcell), hrest,
      fun cell hcell => h.single cell (List.mem_of_mem_drop hcell)⟩
  · cases hp

theorem fromVec_halved (hc : ∀ cell ∈ cells, cell.Single) (count : Nat) :
    (fromVec (cells ++ List.replicate count default) cells.length : Row Cell).Halved := by
  refine ⟨⟨?_, ?_⟩, single_append hc fun cell hcell => (replicate_plain count cell hcell).single⟩
  · simp only [fromVec, len, List.length_append]
    omega
  · simp only [fromVec, List.drop_left]
    exact replicate_plain count

end Row
end Velacritty
