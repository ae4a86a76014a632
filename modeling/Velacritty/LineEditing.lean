import Velacritty.Swaps
import Velacritty.TermSteps

/-! Inserting, deleting and erasing cells in the cursor's line. -/
namespace Velacritty
open Fallible

namespace Row
variable {T : Type} {r r' : Row T}

theorem swap_get {a b : Nat} (h : r.swap a b = some r') :
    (fun k => r'.inner[k]?) = Swaps.exchange (fun k => r.inner[k]?) a b := by
  simp only [swap, Option.bind_eq_bind, Option.bind_eq_some_iff, Option.some.injEq] at h
  obtain ⟨x, hx, y, hy, rfl⟩ := h
  have ha := (List.getElem?_eq_some_iff.mp hx).1
  have hb := (List.getElem?_eq_some_iff.mp hy).1
  funext k
  by_cases hkb : k = b
  · subst hkb
    rw [Swaps.exchange_source, hx, List.getElem?_set_self (by rwa [List.length_set])]
  · by_cases hka : k = a
    · subst hka
      rw [Swaps.exchange_target, hy, List.getElem?_set_ne fun h => hkb h.symm,
        List.getElem?_set_self ha]
    · rw [Swaps.exchange_other _ hka hkb, List.getElem?_set_ne fun h => hkb h.symm,
        List.getElem?_set_ne fun h => hka h.symm]

theorem swapAll_get {a b : Nat} {offsets : List Nat} (h : r.swapAll a b offsets = some r') :
    (fun k => r'.inner[k]?) =
      Swaps.chain (fun k => r.inner[k]?) (offsets.map fun o => (b + o, a + o)) := by
  induction offsets generalizing r with
  | nil => exact Option.some.inj h ▸ rfl
  | cons o rest ih =>
      simp only [swapAll, List.foldlM_cons, Option.bind_eq_bind, Option.bind_eq_some_iff] at h
      obtain ⟨s, hs, h⟩ := h
      rw [ih h, swap_get hs]
      rfl

theorem modifyRange_fill {start stop : Nat} {x : T}
    (h : r.modifyRange start stop (fun _ => x) = some r') :
    r'.inner = r.inner.take start ++ List.replicate (stop - start) x ++ r.inner.drop stop := by
  unfold modifyRange at h
  split at h
  · next hle =>
      obtain ⟨hstart, hstop⟩ := hle
      cases h
      simp only [List.map_const']
      congr 3
      simp only [List.length_take, List.length_drop, len] at *
      omega
  · cases h

theorem length_swapAll {a b : Nat} {offsets : List Nat} (h : r.swapAll a b offsets = some r') :
    r'.inner.length = r.inner.length := by
  refine foldlM_invariant (P := fun s : Row T => s.inner.length = r.inner.length) rfl
    (fun s o s' hs _ hstep => ?_) h
  simp only [swap, Option.bind_eq_bind, Option.bind_eq_some_iff, Option.some.injEq] at hstep
  obtain ⟨_, -, _, -, rfl⟩ := hstep
  simpa only [List.length_set] using hs

/-- Moving cells right: the last ones leave the row. -/
theorem insert_inner {column count : Nat} {x : T} (hcount : column + count ≤ r.len)
    (h : (r.swapAll column (column + count) (List.range (r.len - (column + count))).reverse >>=
      fun s => s.modifyRange column (column + count) fun _ => x) = some r') :
    r'.inner = r.inner.take column ++ List.replicate count x ++
      (r.inner.drop column).take (r.len - column - count) := by
  simp only [Option.bind_eq_bind, Option.bind_eq_some_iff] at h
  obtain ⟨s, hs, h⟩ := h
  have hget := swapAll_get hs
  have hordered : Swaps.Ordered ((List.range (r.len - (column + count))).reverse.map
      fun o => (column + count + o, column + o)) := by
    refine Swaps.ordered_map (r := fun j k => k < j) ?_ fun j k hjk => ⟨by omega, by omega, by omega⟩
    exact List.pairwise_reverse.mpr List.pairwise_lt_range
  have hfront : s.inner.take column = r.inner.take column := by
    refine List.ext_getElem? fun k => ?_
    simp only [List.getElem?_take]
    split
    · refine (congrFun hget k).trans (Swaps.chain_map_other _ fun o _ => ?_)
      exact ⟨by omega, by omega⟩
    · rfl
  have hback : s.inner.drop (column + count) =
      (r.inner.drop column).take (r.len - column - count) := by
    refine List.ext_getElem? fun k => ?_
    simp only [List.getElem?_drop, List.getElem?_take]
    by_cases hk : k < r.len - column - count
    · rw [if_pos hk]
      refine (congrFun hget _).trans (Swaps.chain_map_target hordered _ ?_)
      rw [List.mem_reverse, List.mem_range]
      omega
    · rw [if_neg hk, List.getElem?_eq_none]
      have hlen := length_swapAll hs
      unfold len at hk hcount
      omega
  rw [modifyRange_fill h, hfront, hback, Nat.add_sub_cancel_left]

/-- Moving cells left: with more than there are, the cells in front go as well. -/
theorem delete_inner {column count : Nat} {x : T} (hcolumn : column < r.len) (hcount : count ≤ r.len)
    (h : (r.swapAll (min (column + count) (r.len - 1)) column
        (List.range (r.len - min (column + count) (r.len - 1))) >>=
      fun s => s.modifyRange (r.len - count) r.len fun _ => x) = some r') :
    r'.inner = (if column + count ≤ r.len then r.inner.take column ++ r.inner.drop (column + count)
      else r.inner.take (r.len - count)) ++ List.replicate count x := by
  simp only [Option.bind_eq_bind, Option.bind_eq_some_iff] at h
  obtain ⟨s, hs, h⟩ := h
  have hget := swapAll_get hs
  have hlen := length_swapAll hs
  have hkept : ∀ k < column, s.inner[k]? = r.inner[k]? := by
    intro k hk
    refine (congrFun hget k).trans (Swaps.chain_map_other _ fun o _ => ?_)
    exact ⟨by omega, by omega⟩
  have hfilled : r'.inner = s.inner.take (r.len - count) ++ List.replicate count x := by
    rw [modifyRange_fill h, Nat.sub_sub_self hcount,
      List.drop_eq_nil_of_le (by rw [hlen]; exact Nat.le_refl _), List.append_nil]
  rw [hfilled]
  congr 1
  split
  · next hfits =>
      refine List.ext_getElem? fun k => ?_
      have hfront : (r.inner.take column).length = column :=
        List.length_take_of_le (Nat.le_of_lt hcolumn)
      by_cases hk : k < column
      · rw [List.getElem?_append_left (hfront.symm ▸ hk), List.getElem?_take_of_lt hk,
          List.getElem?_take_of_lt (by omega), hkept k hk]
      · rw [List.getElem?_append_right (hfront.symm ▸ Nat.le_of_not_lt hk), hfront,
          List.getElem?_drop, List.getElem?_take]
        split
        · next hlt =>
            have hordered : Swaps.Ordered
                ((List.range (r.len - min (column + count) (r.len - 1))).map
                  fun o => (column + o, min (column + count) (r.len - 1) + o)) :=
              Swaps.ordered_map List.pairwise_lt_range fun j k hjk =>
                ⟨by omega, by omega, by omega⟩
            have hmem : (k, column + count + (k - column)) ∈
                (List.range (r.len - min (column + count) (r.len - 1))).map
                  fun o => (column + o, min (column + count) (r.len - 1) + o) := by
              refine List.mem_map.mpr ⟨k - column, List.mem_range.mpr (by omega), ?_⟩
              simp only [Prod.mk.injEq]
              omega
            exact (congrFun hget k).trans (Swaps.chain_target hordered _ _ hmem)
        · rw [List.getElem?_eq_none]
          unfold len at *
          omega
  · next hover =>
      refine List.ext_getElem? fun k => ?_
      simp only [List.getElem?_take]
      split
      · exact hkept k (by omega)
      · rfl

end Row

inductive LineEdit where
  | insertBlank (count : Nat)
  | deleteChars (count : Nat)
  | eraseChars (count : Nat)
  deriving DecidableEq, Repr

namespace LineEdit

def step (t : Term) : LineEdit → Option Term
  | insertBlank count => t.insertBlank count
  | deleteChars count => t.deleteChars count
  | eraseChars count => t.eraseChars count

def reference (blank : Cell) (column : Nat) (cells : List Cell) : LineEdit → List Cell
  | insertBlank count =>
      let count := min count (cells.length - column)
      cells.take column ++ List.replicate count blank ++
        (cells.drop column).take (cells.length - column - count)
  | deleteChars count =>
      let count := min count (cells.length - column)
      cells.take column ++ cells.drop (column + count) ++ List.replicate count blank
  | eraseChars count =>
      let count := min count (cells.length - column)
      cells.take column ++ List.replicate count blank ++ cells.drop (column + count)

/-- A deletion of more cells than there are right of the cursor clears cells left of it:
they have to be blank already. -/
def Fits (blank : Cell) (column : Nat) (cells : List Cell) : LineEdit → Prop
  | deleteChars count =>
      count ≤ cells.length - column ∨ ∀ cell ∈ (cells.take column).drop (cells.length - count), cell = blank
  | _ => True

theorem take_append_replicate_iff {α : Type} {l : List α} {x : α} {m n k : Nat} (hm : m ≤ n)
    (hn : n ≤ l.length) (hk : n ≤ k + m) : l.take m ++ List.replicate k x =
      l.take n ++ List.replicate (k + m - n) x ↔ ∀ y ∈ (l.take n).drop m, y = x := by
  have htake : l.take n = l.take m ++ (l.take n).drop m := by
    conv_lhs => rw [← List.take_append_drop m (l.take n), List.take_take, Nat.min_eq_left hm]
  have hrep : List.replicate k x = List.replicate (n - m) x ++ List.replicate (k + m - n) x := by
    rw [← List.replicate_add]
    congr 1
    omega
  have hlen : ((l.take n).drop m).length = n - m := by
    rw [List.length_drop, List.length_take_of_le hn]
  rw [htake, hrep, List.append_assoc, List.append_right_inj, List.append_left_inj, eq_comm,
    List.eq_replicate_iff]
  rw [← htake]
  exact and_iff_right hlen

/-- What becomes of the cells: a deletion keeps at least `count` cells less, from the left. -/
def outcome (blank : Cell) (column : Nat) (cells : List Cell) : LineEdit → List Cell
  | deleteChars count =>
      let count := min count cells.length
      (if column + count ≤ cells.length then cells.take column ++ cells.drop (column + count)
        else cells.take (cells.length - count)) ++ List.replicate count blank
  | e => e.reference blank column cells

theorem outcome_reference_iff {blank : Cell} {column : Nat} {cells : List Cell}
    (hcolumn : column < cells.length) (e : LineEdit) :
    e.outcome blank column cells = e.reference blank column cells ↔ e.Fits blank column cells := by
  cases e with
  | insertBlank count => exact iff_of_true rfl trivial
  | eraseChars count => exact iff_of_true rfl trivial
  | deleteChars count =>
      simp only [outcome, reference, Fits]
      by_cases hcount : count ≤ cells.length - column
      · have hle : count ≤ cells.length := hcount.trans (Nat.sub_le _ _)
        rw [Nat.min_eq_left hcount, Nat.min_eq_left hle, if_pos (by omega)]
        exact iff_of_true rfl (.inl hcount)
      · have hmin : cells.length - min count cells.length = cells.length - count := by omega
        have hkept : (if column + min count cells.length ≤ cells.length then
            cells.take column ++ cells.drop (column + min count cells.length)
            else cells.take (cells.length - min count cells.length)) =
            cells.take (cells.length - count) := by
          split
          · next hle =>
              rw [show column = 0 by omega, show 0 + min count cells.length = cells.length by omega,
                List.drop_length, List.append_nil, show cells.length - count = 0 by omega]
          · rw [hmin]
        have hiff := take_append_replicate_iff (x := blank)
          (show cells.length - count ≤ column by omega) (Nat.le_of_lt hcolumn)
          (show column ≤ min count cells.length + (cells.length - count) by omega)
        rw [hkept, Nat.min_eq_right (Nat.le_of_not_le hcount),
          Nat.add_sub_cancel' (Nat.le_of_lt hcolumn), List.drop_length, List.append_nil,
          or_iff_right hcount]
        rwa [show min count cells.length + (cells.length - count) - column = cells.length - column
          by omega] at hiff

end LineEdit

namespace Term
variable {t t' : Term}

/-- The cells of the cursor's line change to `f` of them, and no other line changes. -/
def Edits (t : Term) (f : List Cell → List Cell) (t' : Term) : Prop :=
  ∃ row row', t.grid.raw.get t.grid.cursor.point.line = some row ∧ row.len = t.grid.columns ∧
    t'.grid.raw.get t.grid.cursor.point.line = some row' ∧ row'.inner = f row.inner ∧
    ∀ l, l ≠ t.grid.cursor.point.line → t'.grid.raw.get l = t.grid.raw.get l

/-- The cursor's line is updated after damage was recorded. -/
theorem edits_of_modifyRow {a : Term} (h : t.WF) (ha : a.grid = t.grid)
    {f : Row Cell → Option (Row Cell)} {g : List Cell → List Cell}
    (hf : ∀ row : Row Cell, row.len = t.grid.columns → ∀ row', f row = some row' →
      row'.inner = g row.inner) :
    Allows (a.modifyRow t.grid.cursor.point.line f) (Edits t g) := by
  intro t' ht'
  obtain ⟨raw, hraw, rfl⟩ := modifyRow_eq ht'
  rw [ha] at hraw
  obtain ⟨⟨row, row', hrow, hrow', hget⟩, hother⟩ := Storage.modify_get h.grid.raw hraw
  have hwf := (Storage.get_returns h.grid.raw (Storage.hasLine_of_get hrow)).of_eq hrow
  exact ⟨row, row', hrow, hwf.len_eq, hget, hf row hwf.len_eq row' hrow', hother⟩

theorem insertBlank_edits (h : t.WF) (count : Nat) : Allows (t.insertBlank count)
    (Edits t fun cells =>
      (LineEdit.insertBlank count).reference t.bgCell t.grid.cursor.point.column cells) := by
  have hcol := h.grid.cursor.column_lt
  simp only [insertBlank, columns, usub_of_le (Nat.le_of_lt hcol), Option.bind_eq_bind,
    Option.bind_some]
  intro t' ht'
  obtain ⟨a, ha, ht'⟩ := Option.bind_eq_some_iff.mp ht'
  simp only [damageColumns_grid _ _ a ha] at ht'
  refine edits_of_modifyRow h (damageColumns_grid _ _ a ha) (fun row hlen row' hrow' => ?_) t' ht'
  rw [← hlen] at hrow'
  exact Row.insert_inner (r := row.touch) (by simp only [Row.len, Row.touch] at *; omega) hrow'

theorem deleteChars_edits (h : t.WF) (count : Nat) : Allows (t.deleteChars count)
    (Edits t fun cells =>
      (LineEdit.deleteChars count).outcome t.bgCell t.grid.cursor.point.column cells) := by
  have hcol := h.grid.cursor.column_lt
  intro t' ht'
  obtain ⟨a, ha, ht'⟩ := Option.bind_eq_some_iff.mp ht'
  simp only [columns, damageColumns_grid _ _ a ha] at ht'
  refine edits_of_modifyRow h (damageColumns_grid _ _ a ha) (fun row hlen row' hrow' => ?_) t' ht'
  rw [← hlen] at hrow' hcol
  exact Row.delete_inner (r := row.touch) hcol (Nat.min_le_right _ _) hrow'

theorem eraseChars_edits (h : t.WF) (count : Nat) : Allows (t.eraseChars count)
    (Edits t fun cells =>
      (LineEdit.eraseChars count).reference t.bgCell t.grid.cursor.point.column cells) := by
  have hcol := h.grid.cursor.column_lt
  intro t' ht'
  obtain ⟨a, ha, ht'⟩ := Option.bind_eq_some_iff.mp ht'
  simp only [columns, damageColumns_grid _ _ a ha] at ht'
  refine edits_of_modifyRow h (damageColumns_grid _ _ a ha) (fun row hlen row' hrow' => ?_) t' ht'
  rw [← hlen] at hrow' hcol
  have hstop : min (t.grid.cursor.point.column + count) row.len =
      t.grid.cursor.point.column + min count (row.len - t.grid.cursor.point.column) := by omega
  rw [Row.modifyRange_fill hrow', hstop, Nat.add_sub_cancel_left]
  rfl

end Term

namespace LineEdit
variable {t : Term}

theorem step_edits (h : t.WF) (e : LineEdit) :
    Returns (e.step t) (t.Edits (e.outcome t.bgCell t.grid.cursor.point.column)) := by
  cases e with
  | insertBlank count =>
      obtain ⟨t', ht', -⟩ := Term.insertBlank_returns h count
      exact ⟨t', ht', Term.insertBlank_edits h count t' ht'⟩
  | deleteChars count =>
      obtain ⟨t', ht', -⟩ := Term.deleteChars_returns h count
      exact ⟨t', ht', Term.deleteChars_edits h count t' ht'⟩
  | eraseChars count =>
      obtain ⟨t', ht', -⟩ := Term.eraseChars_returns h count
      exact ⟨t', ht', Term.eraseChars_edits h count t' ht'⟩

/-- An edit gives the cursor's line the cells it is to have exactly if it fits, and leaves
all other lines as they are. -/
theorem step_edited_iff (h : t.WF) (e : LineEdit) : Returns (e.step t) fun t' =>
    ∃ row row', t.grid.raw.get t.grid.cursor.point.line = some row ∧
      t'.grid.raw.get t.grid.cursor.point.line = some row' ∧
      (row'.inner = e.reference t.bgCell t.grid.cursor.point.column row.inner ↔
        e.Fits t.bgCell t.grid.cursor.point.column row.inner) ∧
      ∀ l, l ≠ t.grid.cursor.point.line → t'.grid.raw.get l = t.grid.raw.get l := by
  refine (step_edits h e).mono fun t' ht' => ?_
  obtain ⟨row, row', hrow, hlen, hrow', hinner, hother⟩ := ht'
  have hcol := h.grid.cursor.column_lt
  rw [← hlen] at hcol
  refine ⟨row, row', hrow, hrow', ?_, hother⟩
  rw [hinner]
  exact outcome_reference_iff hcol e

/-- Inserting a blank in front of a character. -/
theorem step_edited_insert : ∃ t row, t.WF ∧ t.grid.cursor.point = ⟨0, 0⟩ ∧
    t.grid.raw.get 0 = some row ∧ row.inner.map Cell.c = ['a', ' '] ∧
    Returns ((insertBlank 1).step t) fun t' => ∃ row', t'.grid.raw.get 0 = some row' ∧
      row'.inner.map Cell.c = [' ', 'a'] := by
  have hrun : Term.Reachable .ascii .initial 1 2 _ :=
    .step (.step .refl (a := .handler (.input 'a')) trivial rfl)
      (a := .handler .carriageReturn) trivial rfl
  have hwf := Term.Reachable.wf hrun (by decide) (by decide)
  refine ⟨_, _, hwf, rfl, rfl, rfl, ?_⟩
  refine (step_edited_iff hwf (insertBlank 1)).mono fun t' ht' => ?_
  obtain ⟨row, row', hrow, hrow', hinner, -⟩ := ht'
  cases hrow
  exact ⟨row', hrow', (congrArg (List.map Cell.c) (hinner.mpr trivial)).trans rfl⟩

/-- With the cursor on the last column, deleting two cells clears the one left of the
cursor as well. -/
theorem deleteChars_clears_left : ∃ t row t' row', t.WF ∧ t.grid.cursor.point = ⟨0, 2⟩ ∧
    t.grid.raw.get 0 = some row ∧ row.inner.map Cell.c = ['a', 'b', ' '] ∧
    (deleteChars 2).step t = some t' ∧ t'.grid.raw.get 0 = some row' ∧
    row'.inner.map Cell.c = ['a', ' ', ' '] ∧
    ((deleteChars 2).reference t.bgCell 2 row.inner).map Cell.c = ['a', 'b', ' '] := by
  have hrun : Term.Reachable .ascii .initial 1 3 _ :=
    .step (.step .refl (a := .handler (.input 'a')) trivial rfl)
      (a := .handler (.input 'b')) trivial rfl
  exact ⟨_, _, _, _, Term.Reachable.wf hrun (by decide) (by decide), rfl, rfl, rfl, rfl, rfl, rfl, rfl⟩

end LineEdit
end Velacritty
