import Velacritty.ReflowKept

/-! Reflow cuts rows without a look at fullwidth characters: what it needs to keep every
spacer behind its character. -/
namespace Velacritty
open Fallible

/-! ### Pairs -/

/-- Every spacer is directly right of a fullwidth character. -/
def Paired (cells : List Cell) : Prop :=
  ∀ k cell, cells[k]? = some cell → cell.flags.wideCharSpacer = true →
    ∃ j left, k = j + 1 ∧ cells[j]? = some left ∧ left.flags.wideChar = true

/-- The cells are paired, and no cell is both halves at once. -/
structure Joined (cells : List Cell) : Prop where
  paired : Paired cells
  apart : ∀ cell ∈ cells, cell.flags.wideCharSpacer = true → cell.flags.wideChar = false

section Joined
variable {cells cells' : List Cell} {cell : Cell} {n k : Nat}

theorem joined_of_free (h : ∀ cell ∈ cells, cell.flags.wideCharSpacer = false) : Joined cells := by
  have hno : ∀ cell ∈ cells, cell.flags.wideCharSpacer ≠ true := fun cell hcell hspacer =>
    Bool.false_ne_true ((h cell hcell).symm.trans hspacer)
  exact ⟨fun k cell hcell hspacer => absurd hspacer (hno cell (List.mem_of_getElem? hcell)),
    fun cell hcell hspacer => absurd hspacer (hno cell hcell)⟩

theorem joined_nil : Joined [] := joined_of_free fun _ h => absurd h List.not_mem_nil

theorem Joined.of_isPrefix (h : Joined cells) (hp : cells' <+: cells) : Joined cells' := by
  obtain ⟨rest, rfl⟩ := hp
  refine ⟨fun k cell hcell hspacer => ?_, fun cell hcell => h.apart cell (List.mem_append_left _ hcell)⟩
  have hlt := (List.getElem?_eq_some_iff.mp hcell).1
  have hcell' : (cells' ++ rest)[k]? = some cell := (List.getElem?_append_left hlt).trans hcell
  obtain ⟨j, left, rfl, hleft, hwide⟩ := h.paired k cell hcell' hspacer
  rw [List.getElem?_append_left (Nat.lt_of_succ_lt hlt)] at hleft
  exact ⟨j, left, rfl, hleft, hwide⟩

/-- A list may be cut where no spacer follows. -/
theorem Joined.drop (h : Joined cells)
    (hn : ∀ cell, cells[n]? = some cell → cell.flags.wideCharSpacer = false) : Joined (cells.drop n) := by
  refine ⟨fun k cell hcell hspacer => ?_, fun cell hcell => h.apart cell (List.mem_of_mem_drop hcell)⟩
  rw [List.getElem?_drop] at hcell
  cases k with
  | zero =>
      rw [hn cell hcell] at hspacer
      cases hspacer
  | succ k =>
      obtain ⟨j, left, hj, hleft, hwide⟩ := h.paired _ cell hcell hspacer
      refine ⟨k, left, rfl, ?_, hwide⟩
      rw [List.getElem?_drop]
      rw [show n + k = j by omega]
      exact hleft

theorem Joined.append (h : Joined cells) (h' : Joined cells') : Joined (cells ++ cells') := by
  refine ⟨fun k cell hcell hspacer => ?_, fun cell hcell => ?_⟩
  · by_cases hk : k < cells.length
    · rw [List.getElem?_append_left hk] at hcell
      obtain ⟨j, left, rfl, hleft, hwide⟩ := h.paired k cell hcell hspacer
      exact ⟨j, left, rfl, (List.getElem?_append_left (Nat.lt_of_succ_lt hk)).trans hleft, hwide⟩
    · rw [List.getElem?_append_right (Nat.le_of_not_lt hk)] at hcell
      obtain ⟨j, left, hj, hleft, hwide⟩ := h'.paired _ cell hcell hspacer
      refine ⟨cells.length + j, left, by omega, ?_, hwide⟩
      rw [List.getElem?_append_right (Nat.le_add_right _ _), Nat.add_sub_cancel_left]
      exact hleft
  · exact (List.mem_append.mp hcell).elim (h.apart cell) (h'.apart cell)

/-- An update of the last cell that leaves both halves as they are. -/
theorem Joined.updateLast (h : Joined cells) {f : Cell → Cell}
    (hf : ∀ cell, (f cell).flags.wideChar = cell.flags.wideChar ∧
      (f cell).flags.wideCharSpacer = cell.flags.wideCharSpacer) : Joined (updateLast f cells) := by
  have hold : ∀ (k : Nat) (cell : Cell), (Velacritty.updateLast f cells)[k]? = some cell →
      ∃ old, cells[k]? = some old ∧
      cell.flags.wideChar = old.flags.wideChar ∧
      cell.flags.wideCharSpacer = old.flags.wideCharSpacer := by
    intro k cell hcell
    simp only [Velacritty.updateLast, List.getElem?_modify, Option.map_eq_map,
      Option.map_eq_some_iff] at hcell
    obtain ⟨old, hold, rfl⟩ := hcell
    split
    · exact ⟨old, hold, hf old⟩
    · exact ⟨old, hold, rfl, rfl⟩
  refine ⟨fun k cell hcell hspacer => ?_, fun cell hcell hspacer => ?_⟩
  · obtain ⟨old, hk, -, hflag⟩ := hold k cell hcell
    obtain ⟨j, left, rfl, hleft, hwide⟩ := h.paired k old hk (hflag ▸ hspacer)
    have hlt : j < (Velacritty.updateLast f cells).length := by
      rw [length_updateLast]
      exact (List.getElem?_eq_some_iff.mp hleft).1
    obtain ⟨old', hj, hflag', -⟩ := hold j _ (List.getElem?_eq_getElem hlt)
    cases hleft.symm.trans hj
    exact ⟨j, _, rfl, List.getElem?_eq_getElem hlt, hflag'.trans hwide⟩
  · obtain ⟨k, hk⟩ := List.getElem?_of_mem hcell
    obtain ⟨old, hk', hwide, hflag⟩ := hold k cell hk
    rw [hwide]
    exact h.apart old (List.mem_of_getElem? hk') (hflag ▸ hspacer)

theorem Joined.next (h : Joined cells) (hk : cells[k]? = some cell)
    (hwide : cell.flags.wideChar = false) {right : Cell} (hright : cells[k + 1]? = some right) :
    right.flags.wideCharSpacer = false := by
  refine Bool.eq_false_iff.mpr fun hspacer => ?_
  obtain ⟨j, left, hj, hleft, hleftwide⟩ := h.paired _ right hright hspacer
  cases hj
  cases hk.symm.trans hleft
  exact Bool.false_ne_true (hwide.symm.trans hleftwide)

theorem Joined.not_spacer (h : Joined cells) (hk : cells[k]? = some cell)
    (hwide : cell.flags.wideChar = true) : cell.flags.wideCharSpacer = false := by
  refine Bool.eq_false_iff.mpr fun hspacer => ?_
  exact Bool.false_ne_true ((h.apart cell (List.mem_of_getElem? hk) hspacer).symm.trans hwide)

end Joined

theorem leadingSpacer_plain : (leadingSpacer : Cell).Plain := ⟨rfl, rfl⟩

/-! ### Rows -/

namespace Row
variable {r row lastRow : Row Cell} {n columns : Nat} {cells : List Cell}

theorem Spaced.joined (h : r.Spaced n) (hp : Paired r.inner) : Joined r.inner := by
  refine ⟨hp, fun cell hcell hspacer => ?_⟩
  obtain ⟨k, hk⟩ := List.getElem?_of_mem hcell
  exact (h.spacer k cell hk hspacer).2.2

theorem Spaced.modifyLast (h : r.Spaced n) {f : Cell → Cell} (hf : Cell.KeepsHalves f) :
    (r.modifyLast f).Spaced n := by
  refine ⟨?_, fun k cell hcell hspacer => ?_⟩
  · rw [len_modifyLast, occ_modifyLast]
  · have hlt : k < r.len := by
      rw [← len_modifyLast r f]
      exact (List.getElem?_eq_some_iff.mp hcell).1
    simp only [Row.modifyLast, updateLast, List.getElem?_modify, Option.map_eq_map,
      Option.map_eq_some_iff] at hcell
    obtain ⟨old, hold, rfl⟩ := hcell
    have hkeeps : (if r.inner.length - 1 = k then f old else old).flags.wideCharSpacer = true →
        old.flags.wideCharSpacer = true := by
      split
      · exact (hf old).1
      · exact id
    obtain ⟨hn, -, hwide⟩ := h.spacer k old hold (hkeeps hspacer)
    refine ⟨hn, hlt, Bool.eq_false_iff.mpr fun hw => ?_⟩
    refine Bool.false_ne_true (hwide.symm.trans ?_)
    split at hw
    · exact (hf old).2 hw
    · exact hw

theorem Spaced.shrink (h : r.Spaced n) (columns : Nat) : (r.shrink columns).1.Spaced n := by
  refine ⟨occ_shrink_le h.occ_le columns, ?_⟩
  unfold Row.shrink
  split
  · exact h.spacer
  · intro k cell hcell hspacer
    have hlt : k < columns := by
      have hlen := (List.getElem?_eq_some_iff.mp hcell).1
      simp only [List.length_take] at hlen
      omega
    simp only at hcell
    rw [List.getElem?_take_of_lt hlt] at hcell
    obtain ⟨hn, hocc, hwide⟩ := h.spacer k cell hcell hspacer
    exact ⟨hn, Nat.lt_min.mpr ⟨hocc, hlt⟩, hwide⟩

theorem Spaced.grow (h : r.Spaced n) (columns : Nat) : (r.grow columns).Spaced n := by
  unfold Row.grow
  split
  · exact h
  · refine ⟨?_, fun k cell hcell hspacer => ?_⟩
    · have hle := h.occ_le
      simp only [len, List.length_append] at *
      omega
    · simp only at hcell
      by_cases hk : k < r.inner.length
      · rw [List.getElem?_append_left hk] at hcell
        exact h.spacer k cell hcell hspacer
      · rw [List.getElem?_append_right (Nat.le_of_not_lt hk)] at hcell
        rw [List.eq_of_mem_replicate (List.mem_of_getElem? hcell)] at hspacer
        cases hspacer

/-- Joined cells can follow any row whose last cell was just written. -/
theorem Spaced.append (h : r.Spaced 1) (hocc : r.occ = r.len) (hc : Joined cells) :
    (r.append cells).Spaced 1 := by
  refine ⟨append_occ h.occ_le cells, fun k cell hcell hspacer => ?_⟩
  have hlt := (List.getElem?_eq_some_iff.mp hcell).1
  simp only [Row.append, List.length_append] at hcell hlt ⊢
  simp only [len] at hocc
  by_cases hk : k < r.inner.length
  · rw [List.getElem?_append_left hk] at hcell
    obtain ⟨hn, -, hwide⟩ := h.spacer k cell hcell hspacer
    exact ⟨hn, by omega, hwide⟩
  · rw [List.getElem?_append_right (Nat.le_of_not_lt hk)] at hcell
    obtain ⟨j, -, hj, -⟩ := hc.paired _ cell hcell hspacer
    exact ⟨by omega, by omega, hc.apart cell (List.mem_of_getElem? hcell) hspacer⟩

theorem Spaced.appendFront (h : r.Spaced 1) (hc : Joined cells) : (r.appendFront cells).Spaced 1 := by
  refine ⟨appendFront_occ h.occ_le cells, fun k cell hcell hspacer => ?_⟩
  simp only [Row.appendFront] at hcell ⊢
  by_cases hk : k < cells.length
  · rw [List.getElem?_append_left hk] at hcell
    obtain ⟨j, -, hj, -⟩ := hc.paired _ cell hcell hspacer
    exact ⟨by omega, by omega, hc.apart cell (List.mem_of_getElem? hcell) hspacer⟩
  · rw [List.getElem?_append_right (Nat.le_of_not_lt hk)] at hcell
    obtain ⟨hn, hocc, hwide⟩ := h.spacer _ cell hcell hspacer
    exact ⟨by omega, by omega, hwide⟩

/-- The rest of a row that is cut where no spacer follows. -/
theorem Spaced.frontSplitOff (h : r.Spaced 1)
    (hn : ∀ cell, r.inner[n]? = some cell → cell.flags.wideCharSpacer = false) :
    Allows (r.frontSplitOff n) fun p => p.1 <+: r.inner ∧ p.2.Spaced 1 := by
  intro p hp
  unfold Row.frontSplitOff at hp
  split at hp
  · cases hp
    refine ⟨List.take_prefix _ _, ?_, fun k cell hcell hspacer => ?_⟩
    · have hle := h.occ_le
      simp only [len, List.length_drop] at *
      omega
    · simp only [List.getElem?_drop] at hcell
      obtain ⟨-, hocc, hwide⟩ := h.spacer _ cell hcell hspacer
      refine ⟨Nat.one_le_iff_ne_zero.mpr ?_, Nat.lt_sub_of_add_lt ?_, hwide⟩
      · rintro rfl
        rw [hn cell hcell] at hspacer
        cases hspacer
      · omega
  · cases hp

theorem fromVec_spaced (hc : Joined cells) (count : Nat) :
    (fromVec (cells ++ List.replicate count default) cells.length : Row Cell).Spaced 1 := by
  refine ⟨?_, fun k cell hcell hspacer => ?_⟩
  · simp only [fromVec, len, List.length_append]
    omega
  · simp only [fromVec] at hcell ⊢
    by_cases hk : k < cells.length
    · rw [List.getElem?_append_left hk] at hcell
      obtain ⟨j, -, hj, -⟩ := hc.paired _ cell hcell hspacer
      exact ⟨by omega, hk, hc.apart cell (List.mem_of_getElem? hcell) hspacer⟩
    · rw [List.getElem?_append_right (Nat.le_of_not_lt hk)] at hcell
      rw [List.eq_of_mem_replicate (List.mem_of_getElem? hcell)] at hspacer
      cases hspacer

end Row

/-! ### Growing -/

section
variable {row lastRow : Row Cell} {rows : List (Row Cell)} {columns i : Nat} {reflow : Bool}
  {saved : Cursor Cell} {st : GrowState Cell} {sh : ShrinkState Cell} {cells : List Cell}

theorem unwrapRow_spaced (h : lastRow.Spaced 1) : (unwrapRow lastRow).Spaced 1 :=
  unwrapRow_kept (fun _ b hr => hr.modifyLast (Cell.setWrapline_keepsHalves b))
    (fun _ columns hr => hr.shrink columns) h

/-- Pulling leaves no spacer in front: before the cut is a cell that is not fullwidth, or
behind it is one that is. -/
theorem pullCells_spaced (hlast : lastRow.Spaced 1) (hrow : row.Spaced 1) (hj : Joined row.inner) :
    Allows (pullCells columns lastRow row) fun p => p.1.Spaced 1 ∧ p.2.1.Spaced 1 := by
  have hunwrap := unwrapRow_spaced hlast
  have hocc := unwrapRow_full lastRow
  intro p hp
  simp only [pullCells, Option.bind_eq_bind, Option.bind_eq_some_iff] at hp
  obtain ⟨numWrapped, -, lastPulled, hpulled, cell, hcell, hp⟩ := hp
  cases hwide : (GridCell.flags cell).wideChar with
  | true =>
      simp only [hwide, if_true, Option.bind_eq_some_iff, Option.some.injEq] at hp
      obtain ⟨_, -, ⟨cells, rest⟩, hsplit, rfl⟩ := hp
      obtain ⟨hpre, hrest⟩ := hrow.frontSplitOff (fun c hc => by
        cases hcell.symm.trans hc
        exact hj.not_spacer hcell hwide) _ hsplit
      refine ⟨hunwrap.append hocc ((hj.of_isPrefix hpre).append ?_), hrest⟩
      exact joined_of_free fun c hc => List.mem_singleton.mp hc ▸ leadingSpacer_plain.spacer
  | false =>
      simp only [hwide, Bool.false_eq_true, if_false, Option.bind_eq_some_iff, Option.some.injEq] at hp
      obtain ⟨⟨cells, rest⟩, hsplit, rfl⟩ := hp
      have hnext : lastPulled + 1 = min row.len numWrapped := by
        rw [usub_eq_some] at hpulled
        omega
      obtain ⟨hpre, hrest⟩ := hrow.frontSplitOff (fun c hc => by
        rw [← hnext] at hc
        exact hj.next hcell hwide hc) _ hsplit
      exact ⟨hunwrap.append hocc (hj.of_isPrefix hpre), hrest⟩

end

/-! ### Shrinking -/

section
variable {row : Row Cell} {columns : Nat} {cells wrapped : List Cell}

theorem joined_wrapline (h : Joined cells) (b : Bool) : Joined (updateLast (setWrapline b) cells) :=
  h.updateLast fun _ => ⟨rfl, rfl⟩

/-- A leading spacer at the end of the cells is taken off again. -/
theorem trimLeading_spaced {lastColumn : Nat} (hrow : row.Spaced 1) (hj : Joined wrapped) :
    Allows (if wrapped.getLast?.any fun cell => (GridCell.flags cell).leadingWideCharSpacer then
      if wrapped.length = 1 then do
        let row ← row.modify lastColumn (setWrapline true)
        some (WrapSplit.spacerOnly row)
      else some (.wrapped row (updateLast (setWrapline true) wrapped.dropLast))
    else some (.wrapped row wrapped)) (SplitKept (Row.Spaced 1) Joined) := by
  split
  · split
    · exact (hrow.modify_keeps (Cell.setWrapline_keepsHalves true)).bind fun r hr => .pure hr
    · exact .pure ⟨hrow, joined_wrapline (hj.of_isPrefix (List.dropLast_prefix _)) true⟩
  · exact .pure ⟨hrow, hj⟩

/-- The cut comes before the last column that stays if a fullwidth character is there. -/
theorem splitWrapped_spaced (hrow : row.Spaced 1) (hj : Joined row.inner)
    (hp : wrapped <+: row.inner.drop columns) :
    Allows (splitWrapped columns (row.shrink columns).1 wrapped) (SplitKept (Row.Spaced 1) Joined) := by
  have hkept := hrow.shrink columns
  have hinner : (row.shrink columns).1.inner = row.inner.take columns := by
    unfold Row.shrink
    split
    · next hle => exact (List.take_of_length_le hle).symm
    · rfl
  generalize hr : (row.shrink columns).1 = kept at hkept hinner ⊢
  refine Allows.bind (P := fun lastColumn => columns = lastColumn + 1) (fun lastColumn hlast => ?_)
    fun lastColumn hlast => ?_
  · rw [usub_eq_some] at hlast
    omega
  have hget : ∀ cell, kept.get lastColumn = some cell → row.inner[lastColumn]? = some cell := by
    intro cell hcell
    rw [Row.get, hinner, List.getElem?_take_of_lt (by omega)] at hcell
    exact hcell
  refine Allows.bind (P := fun q : Row Cell × List Cell => q.1.Spaced 1 ∧ Joined q.2) ?_
    fun q hq => trimLeading_spaced hq.1 hq.2
  split
  · next hwide =>
      simp only [Bool.and_eq_true, decide_eq_true_eq, Option.any_eq_true_iff_get] at hwide
      intro q hq
      simp only [Option.bind_eq_bind, Option.bind_eq_some_iff, Option.some.injEq] at hq
      obtain ⟨wideChar, hchar, r, hmodify, rfl⟩ := hq
      obtain ⟨-, hsome, hflag⟩ := hwide
      have hflag' : wideChar.flags.wideChar = true := by
        rw [Option.get_of_eq_some hsome hchar] at hflag
        exact hflag
      have hcell := hget wideChar hchar
      have hleading : ∀ cell : Cell, kept.get lastColumn = some cell →
          (leadingSpacer : Cell).flags.wideCharSpacer = true →
          1 ≤ lastColumn ∧ (leadingSpacer : Cell).flags.wideChar = false := fun _ _ hspacer =>
        absurd (leadingSpacer_plain.spacer.symm.trans hspacer) Bool.false_ne_true
      refine ⟨hkept.modify hleading r hmodify, ?_⟩
      refine (hj.drop (n := lastColumn) fun c hc => ?_).of_isPrefix ?_
      · cases hcell.symm.trans hc
        exact hj.not_spacer hcell hflag'
      · obtain ⟨hlt, hat⟩ := List.getElem?_eq_some_iff.mp hcell
        rw [List.drop_eq_getElem_cons hlt, hat, ← hlast]
        exact (List.prefix_cons_inj wideChar).mpr hp
  · next hwide =>
      refine .pure ⟨hkept, ?_⟩
      by_cases hlong : row.inner.length ≤ columns
      · rw [List.drop_eq_nil_of_le hlong, List.prefix_nil] at hp
        rw [hp]
        exact joined_nil
      · refine (hj.drop fun right hright => ?_).of_isPrefix hp
        have hlen : columns ≤ kept.len := by
          rw [Row.len, hinner, List.length_take]
          omega
        have hlt : lastColumn < row.inner.length := by omega
        have hcell := List.getElem?_eq_getElem hlt
        have hkeptcell : kept.get lastColumn = some row.inner[lastColumn] := by
          rw [Row.get, hinner, List.getElem?_take_of_lt (by omega), hcell]
        rw [hkeptcell, decide_eq_true hlen, Bool.true_and, Option.any_some] at hwide
        rw [hlast] at hright
        exact hj.next hcell (Bool.eq_false_iff.mpr hwide) hright

end

/-- Reflow keeps spacers out of the first column as long as the rows it cuts are joined. -/
theorem spaced_reflowable : Reflowable (Row.Spaced 1) (fun r => Joined r.inner) Joined where
  new columns := (Row.new_spacerFree columns).spaced 1
  wrapline _ b h := h.modifyLast (Cell.setWrapline_keepsHalves b)
  grow _ columns h := h.grow columns
  shrink _ columns h := h.shrink columns
  pull _ _ _ hlast hrow hj := pullCells_spaced hlast hrow hj
  split _ _ _ hrow hj hp := splitWrapped_spaced hrow hj hp
  unwrap _ h := joined_wrapline h false
  fromVec cells count hc := by
    refine ⟨Row.fromVec_spaced hc count, hc.append (joined_of_free fun cell hcell => ?_)⟩
    exact List.eq_of_mem_replicate hcell ▸ rfl
  appendFront _ _ hrow hc := hrow.appendFront hc
  joins _ _ hj hc := hc.append hj

/-- The rows of the existing lines are paired. -/
def Grid.PairedRows (g : Grid Cell) : Prop := ∀ r ∈ g.raw.rows, Paired r.inner

end Velacritty
