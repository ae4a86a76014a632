import Velacritty.TermOp
import Velacritty.Unwritten

/-! Resetting rows: which rows have cells that a reset misses. -/
namespace Velacritty
open Fallible

namespace Row

/-- An update through `&mut row[start..stop]`. -/
def writeRange (r : Row Cell) (start stop : Nat) (f : List Cell → List Cell) : Option (Row Cell) :=
  let cells := f ((r.inner.drop start).take (stop - start))
  if start ≤ stop ∧ stop ≤ r.len ∧ cells.length = stop - start then
    some ⟨r.inner.take start ++ cells ++ r.inner.drop stop, max r.occ stop⟩
  else none

def Blank (cells : List Cell) : Prop := ∃ color, ∀ cell ∈ cells, cell = .ofColor color

structure Clean (r : Row Cell) : Prop where
  occ_le : r.occ ≤ r.len
  rest : Blank (r.inner.drop r.occ)

structure ResetTo (template : Cell) (r r' : Row Cell) : Prop where
  inner : r'.inner = List.replicate r.len (.ofColor template.bg)
  occ : r'.occ = 0

variable {r r' : Row Cell}

theorem blank_hereditary : Hereditary Blank where
  nil := ⟨.named .background, fun _ h => absurd h List.not_mem_nil⟩
  subset _ _ h hsub := h.imp fun _ hcells c hc => hcells c (hsub hc)

theorem clean_iff_unwritten : r.Clean ↔ r.Unwritten Blank :=
  ⟨fun h => ⟨h.occ_le, h.rest⟩, fun h => ⟨h.occ_le, h.rest⟩⟩

theorem Clean.last (h : r.Clean) {last : Cell} (hlast : r.last = some last) {cell : Cell}
    (hcell : cell ∈ r.inner.drop r.occ) : cell = .ofColor last.bg := by
  obtain ⟨color, hrest⟩ := h.rest
  have hne : r.inner.drop r.occ ≠ [] := List.ne_nil_of_mem hcell
  have hmem : last ∈ r.inner.drop r.occ := by
    have hlast' : (r.inner.drop r.occ).getLast? = some last := by
      rw [List.getLast?_drop, if_neg (by simpa using hne)]
      exact hlast
    exact List.mem_of_getLast? hlast'
  rw [hrest cell hcell, hrest last hmem]
  rfl

theorem new_clean (columns : Nat) : (new columns : Row Cell).Clean :=
  ⟨Nat.zero_le _, .named .background, fun _ h => List.eq_of_mem_replicate h⟩

theorem Clean.reset (h : r.Clean) (hne : r.inner ≠ []) (template : Cell) :
    Returns (r.reset template) (ResetTo template r) := by
  obtain ⟨last, hlast⟩ : ∃ last, r.last = some last := ⟨_, List.getLast?_eq_some_getLast hne⟩
  have hocc := h.occ_le
  unfold Row.reset
  rw [hlast]
  simp only [Option.bind_eq_bind, Option.bind_some]
  by_cases hsame : last.bg = template.bg
  · have hdisc : GridCell.sameDiscriminant last template = true := decide_eq_true hsame
    rw [hdisc, if_pos rfl, if_pos hocc]
    refine .pure ⟨List.eq_replicate_iff.mpr ⟨?_, fun cell hcell => ?_⟩, rfl⟩
    · simp only [List.length_append, List.length_map, List.length_take, List.length_drop, len] at *
      omega
    · rcases List.mem_append.mp hcell with hcell | hcell
      · obtain ⟨_, -, rfl⟩ := List.mem_map.mp hcell
        rfl
      · rw [h.last hlast hcell, hsame]
  · have hdisc : GridCell.sameDiscriminant last template = false := decide_eq_false hsame
    rw [hdisc, if_neg Bool.false_ne_true, if_pos (Nat.le_refl _)]
    refine .pure ⟨List.eq_replicate_iff.mpr ⟨?_, fun cell hcell => ?_⟩, rfl⟩
    · simp only [List.length_append, List.length_map, List.length_take, List.length_drop, len]
      omega
    · rw [len, List.take_length, List.drop_length, List.append_nil] at hcell
      obtain ⟨_, -, rfl⟩ := List.mem_map.mp hcell
      rfl

theorem clean_of_reset (h : ∀ template, Returns (r.reset template) (ResetTo template r)) : r.Clean := by
  cases hlast : r.last with
  | none =>
      obtain ⟨r', hr', -⟩ := h .blank
      unfold Row.reset at hr'
      rw [hlast] at hr'
      cases hr'
  | some last =>
      obtain ⟨r', hr', hreset⟩ := h last
      have hdisc : GridCell.sameDiscriminant last last = true := decide_eq_true rfl
      unfold Row.reset at hr'
      rw [hlast] at hr'
      simp only [Option.bind_eq_bind, Option.bind_some, hdisc, if_true, ite_eq_iff, reduceCtorEq,
        and_false, or_false, Option.some.injEq] at hr'
      obtain ⟨hocc, rfl⟩ := hr'
      refine ⟨hocc, last.bg, fun cell hcell => ?_⟩
      have hmem : cell ∈ List.replicate r.len (Cell.ofColor last.bg) :=
        hreset.inner ▸ List.mem_append_right _ hcell
      exact List.eq_of_mem_replicate hmem

/-! ### Updates -/

theorem modify_clean (h : r.Clean) (column : Nat) (f : Cell → Cell) :
    Allows (r.modify column f) Clean :=
  ((clean_iff_unwritten.mp h).modify blank_hereditary column f).mono fun _ => clean_iff_unwritten.mpr

theorem writeRange_clean (h : r.Clean) (start stop : Nat) (f : List Cell → List Cell) :
    Allows (r.writeRange start stop f) Clean := by
  intro r' hr'
  unfold writeRange at hr'
  simp only at hr'
  split at hr'
  · next hle =>
      obtain ⟨hstart, hstop, hcells⟩ := hle
      cases hr'
      exact clean_iff_unwritten.mpr
        ((clean_iff_unwritten.mp h).splice blank_hereditary hstart hstop hcells)
  · cases hr'

theorem modifyLast_clean (r : Row Cell) (f : Cell → Cell) : (r.modifyLast f).Clean :=
  clean_iff_unwritten.mpr (modifyLast_unwritten blank_hereditary r f)

theorem shrink_clean (h : r.Clean) (columns : Nat) : (r.shrink columns).1.Clean :=
  clean_iff_unwritten.mpr ((clean_iff_unwritten.mp h).shrink blank_hereditary columns)

theorem appendFront_clean (h : r.Clean) (vec : List Cell) : (r.appendFront vec).Clean :=
  clean_iff_unwritten.mpr ((clean_iff_unwritten.mp h).appendFront vec)

theorem frontSplitOff_clean (h : r.Clean) (n : Nat) :
    Allows ((r.frontSplitOff n).map Prod.snd) Clean := by
  intro r' hr'
  rw [Option.map_eq_some_iff] at hr'
  obtain ⟨p, hp, rfl⟩ := hr'
  exact clean_iff_unwritten.mpr
    ((clean_iff_unwritten.mp h).frontSplitOff blank_hereditary n p hp)

/-- The cells that a wider row gets are blank with the default background. -/
theorem grow_clean_iff (h : r.Clean) (columns : Nat) : (r.grow columns).Clean ↔
    columns ≤ r.len ∨ r.occ = r.len ∨ r.last.map Cell.bg = some (.named .background) := by
  have hocc := h.occ_le
  by_cases hle : columns ≤ r.len
  · have hgrow : r.grow columns = r := if_pos hle
    rw [hgrow]
    exact ⟨fun _ => .inl hle, fun _ => h⟩
  · have hgrow : r.grow columns =
        { r with inner := r.inner ++ List.replicate (columns - r.len) .blank } := if_neg hle
    have hrest : (r.grow columns).inner.drop (r.grow columns).occ =
        r.inner.drop r.occ ++ List.replicate (columns - r.len) .blank := by
      rw [hgrow]
      exact List.drop_append_of_le_length hocc
    refine ⟨fun hclean => .inr ?_, fun hcond => ⟨?_, ?_⟩⟩
    · by_cases hfull : r.occ = r.len
      · exact .inl hfull
      · obtain ⟨color, hcells⟩ := hrest ▸ hclean.rest
        have hblank : Cell.blank = .ofColor color :=
          hcells _ (List.mem_append_right _ (List.mem_replicate.mpr ⟨by omega, rfl⟩))
        have hcolor : color = .named .background := (congrArg Cell.bg hblank).symm
        have hne : r.inner.drop r.occ ≠ [] := by
          rw [ne_eq, List.drop_eq_nil_iff]
          simp only [len] at hocc hfull
          omega
        have hlast : r.last = some ((r.inner.drop r.occ).getLast hne) := by
          rw [last, List.getLast_drop, ← List.getLast?_eq_some_getLast]
        have hmem := hcells _ (List.mem_append_left _ (List.getLast_mem hne))
        rw [hlast, Option.map_some, hmem, hcolor]
        exact .inr rfl
    · rw [hgrow]
      simp only [len, List.length_append] at *
      omega
    · rw [hrest]
      rcases hcond with hno | hfull | hlast
      · exact absurd hno hle
      · rw [List.drop_eq_nil_of_le (Nat.le_of_eq hfull.symm), List.nil_append]
        exact ⟨.named .background, fun cell hcell => List.eq_of_mem_replicate hcell⟩
      · obtain ⟨last, hlast, hbg⟩ := Option.map_eq_some_iff.mp hlast
        refine ⟨.named .background, fun cell hcell => ?_⟩
        rcases List.mem_append.mp hcell with hcell | hcell
        · rw [h.last hlast hcell, hbg]
        · exact List.eq_of_mem_replicate hcell

theorem append_clean_iff (h : r.Clean) (vec : List Cell) :
    (r.append vec).Clean ↔ Blank ((r.inner ++ vec).drop (r.occ + vec.length)) :=
  ⟨fun hclean => hclean.rest, fun hrest => ⟨append_occ h.occ_le vec, hrest⟩⟩

end Row

/-! ### Runs -/

inductive RowOp where
  | modify (column : Nat) (f : Cell → Cell)
  | writeRange (start stop : Nat) (f : List Cell → List Cell)
  | modifyLast (f : Cell → Cell)
  | grow (columns : Nat)
  | shrink (columns : Nat)
  | append (vec : List Cell)
  | appendFront (vec : List Cell)
  | frontSplitOff (n : Nat)
  | fromVec (vec : List Cell) (occ : Nat)
  | reset (template : Cell)

namespace RowOp

def step (r : Row Cell) : RowOp → Option (Row Cell)
  | modify column f => r.modify column f
  | writeRange start stop f => r.writeRange start stop f
  | modifyLast f => some (r.modifyLast f)
  | grow columns => some (r.grow columns)
  | shrink columns => some (r.shrink columns).1
  | append vec => some (r.append vec)
  | appendFront vec => some (r.appendFront vec)
  | frontSplitOff n => (r.frontSplitOff n).map Prod.snd
  | fromVec vec occ => some (.fromVec vec occ)
  | reset template => r.reset template

/-- A row with clean cells gets wider only if they have the default background; what is
appended covers the clean cells, or is blank like them; new rows are clean. -/
def Safe (r : Row Cell) : RowOp → Prop
  | grow columns =>
      columns ≤ r.len ∨ r.occ = r.len ∨ r.last.map Cell.bg = some (.named .background)
  | append vec => Row.Blank ((r.inner ++ vec).drop (r.occ + vec.length))
  | fromVec vec occ => occ ≤ vec.length ∧ Row.Blank (vec.drop occ)
  | _ => True

end RowOp

namespace Row
variable {r r' : Row Cell}

theorem reset_clean (h : r.Clean) (template : Cell) : Allows (r.reset template) Clean := by
  intro r' hr'
  have hne : r.inner ≠ [] := by
    rintro hnil
    unfold Row.reset Row.last at hr'
    rw [hnil] at hr'
    cases hr'
  obtain ⟨hinner, hocc⟩ := (h.reset hne template).of_eq hr'
  refine ⟨hocc ▸ Nat.zero_le _, template.bg, fun cell hcell => ?_⟩
  rw [hinner] at hcell
  exact List.eq_of_mem_replicate (List.mem_of_mem_drop hcell)

theorem step_clean_iff (h : r.Clean) (op : RowOp) :
    Allows (op.step r) fun r' => r'.Clean ↔ op.Safe r := by
  have hkeep : ∀ {o : Option (Row Cell)}, Allows o Clean → Allows o fun r' => r'.Clean ↔ True :=
    fun ho => ho.mono fun _ hclean => ⟨fun _ => trivial, fun _ => hclean⟩
  cases op with
  | modify column f => exact hkeep (modify_clean h column f)
  | writeRange start stop f => exact hkeep (writeRange_clean h start stop f)
  | modifyLast f => exact hkeep (.pure (modifyLast_clean r f))
  | grow columns => exact .pure (grow_clean_iff h columns)
  | shrink columns => exact hkeep (.pure (shrink_clean h columns))
  | append vec => exact .pure (append_clean_iff h vec)
  | appendFront vec => exact hkeep (.pure (appendFront_clean h vec))
  | frontSplitOff n => exact hkeep (frontSplitOff_clean h n)
  | fromVec vec occ =>
      exact .pure ⟨fun hclean => ⟨hclean.occ_le, hclean.rest⟩, fun hsafe => ⟨hsafe.1, hsafe.2⟩⟩
  | reset template => exact hkeep (reset_clean h template)

/-- In every run of safe calls, a reset leaves every cell blank with the background of its
template: the cells from `occ` on already are, with the background of the last cell. The
next call keeps the row so if and only if it is safe. -/
theorem run_reset {columns : Nat} (h : Reaches RowOp.step RowOp.Safe (new columns) r) :
    (∀ last, r.last = some last → ∀ cell ∈ r.inner.drop r.occ, cell = .ofColor last.bg) ∧
      (r.inner ≠ [] → ∀ template, Returns (r.reset template) (ResetTo template r)) ∧
      ∀ op : RowOp, Allows (op.step r) fun r' => r'.inner ≠ [] →
        ((∀ template, Returns (r'.reset template) (ResetTo template r')) ↔ op.Safe r) := by
  have hclean : r.Clean := by
    refine h.invariant (P := Clean) (new_clean columns) fun s op s' hs hop hstep => ?_
    exact (step_clean_iff hs op _ hstep).mpr hop
  refine ⟨fun last hlast cell hcell => hclean.last hlast hcell, fun hne => hclean.reset hne,
    fun op => (step_clean_iff hclean op).mono fun r' hr' hne => ?_⟩
  exact ⟨fun hreset => hr'.mp (clean_of_reset hreset), fun hop => (hr'.mpr hop).reset hne⟩

/-- A row of two cells, the first one written, and then reset. -/
theorem run_reset_written : ∃ r : Row Cell, Reaches RowOp.step RowOp.Safe (new 2) r ∧ r.occ = 1 ∧
    Returns (r.reset (.ofColor (.named .red))) (ResetTo (.ofColor (.named .red)) r) := by
  have hrun : Reaches RowOp.step RowOp.Safe (new 2) _ :=
    .step .refl (a := .modify 0 fun cell => { cell with c := 'x' }) trivial rfl
  exact ⟨_, hrun, rfl, (run_reset hrun).2.1 (List.cons_ne_nil _ _) _⟩

end Row

namespace Term

/-- The alternate screen is cleared in red, gets wider, and is to be cleared again. -/
theorem reset_misses_cells : ∃ (t : Term) (r r' : Row Cell), Reachable .ascii .initial 1 2 t ∧
    t.grid.raw.get 0 = some r ∧ r.reset t.grid.cursor.template = some r' ∧
      t.grid.cursor.template.bg = .named .background ∧ r'.get 0 = some (.ofColor (.named .red)) := by
  have hrun : Reachable .ascii .initial 1 2 _ :=
    .step (.step (.step (.step (.step .refl (a := .swapAlt) trivial rfl)
      (a := .handler (.terminalAttribute (.background (.named .red)))) trivial rfl)
      (a := .handler (.clearScreen .all)) trivial rfl)
      (a := .resize 1 3) (And.intro (by decide) (by decide)) rfl)
      (a := .handler (.terminalAttribute .reset)) trivial rfl
  exact ⟨_, _, _, hrun, rfl, rfl, rfl, rfl⟩

end Term
end Velacritty
