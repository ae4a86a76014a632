import Velacritty.BracketSearch
import Velacritty.SelectionRange

/-! What the searches within a logical line find. -/
namespace Velacritty
open Fallible

namespace Term
variable {t : Term} {needles : List Char} {i : Nat}

def Matches (t : Term) (needles : List Char) (i : Nat) : Prop :=
  ∃ cell, t.grid.cellNo i = some cell ∧ cell.flags.anySpacer = false ∧ cell.c ∈ needles

def IsSpacer (t : Term) (i : Nat) : Prop :=
  ∃ cell, t.grid.cellNo i = some cell ∧ cell.flags.anySpacer = true

/-- The cell is the last one of its line, which does not go on. -/
def Breaks (t : Term) (i : Nat) : Prop :=
  (t.dims.point i).column = t.lastColumn ∧
    ∃ cell, t.grid.cellNo i = some cell ∧ cell.flags.wrapline = false

theorem not_isSpacer_of_matches (h : t.Matches needles i) : ¬ t.IsSpacer i := by
  obtain ⟨cell, hcell, hspacer, -⟩ := h
  rintro ⟨cell', hcell', hspacer'⟩
  obtain rfl := Option.some.inj (hcell.symm.trans hcell')
  exact Bool.false_ne_true (hspacer.symm.trans hspacer')

theorem not_breaks {cell : Cell} (hcell : t.grid.cellNo i = some cell)
    (h : ¬ ((t.dims.point i).column = t.lastColumn ∧ cell.flags.wrapline = false)) : ¬ t.Breaks i := by
  rintro ⟨hlast, cell', hcell', hwrap⟩
  obtain rfl := Option.some.inj (hcell.symm.trans hcell')
  exact h ⟨hlast, hwrap⟩

theorem not_matches {cell : Cell} (hcell : t.grid.cellNo i = some cell)
    (h : ¬ (cell.flags.anySpacer = false ∧ cell.c ∈ needles)) : ¬ t.Matches needles i := by
  rintro ⟨cell', hcell', hfound⟩
  obtain rfl := Option.some.inj (hcell.symm.trans hcell')
  exact h hfound

/-- The end of a search to the left of a cell. -/
inductive FoundLeft (t : Term) (needles : List Char) (i : Nat) : Except Point Point → Prop
  | error {j : Nat} (le : j ≤ i) (none : ∀ k, j ≤ k → k < i → ¬ t.Matches needles k ∧ ¬ t.Breaks k)
      (start : j = 0 ∨ t.Breaks (j - 1)) : FoundLeft t needles i (.error (t.dims.point j))
  | ok {j : Nat} (lt : j < i) (found : t.Matches needles j) (goes : ¬ t.Breaks j)
      (none : ∀ k, j < k → k < i → ¬ t.Matches needles k ∧ ¬ t.Breaks k) :
      FoundLeft t needles i (.ok (t.dims.point j))

/-- The end of a search to the right of a cell. -/
inductive FoundRight (t : Term) (needles : List Char) (i : Nat) : Except Point Point → Prop
  | error {j : Nat} (le : i ≤ j) (lt : j < t.dims.cells)
      (none : ∀ k, i < k → k ≤ j → ¬ t.Matches needles k) (goes : ∀ k, i ≤ k → k < j → ¬ t.Breaks k)
      (stop : j + 1 = t.dims.cells ∨ t.Breaks j) : FoundRight t needles i (.error (t.dims.point j))
  | ok {j : Nat} (gt : i < j) (lt : j < t.dims.cells) (found : t.Matches needles j)
      (none : ∀ k, i < k → k < j → ¬ t.Matches needles k) (goes : ∀ k, i ≤ k → k < j → ¬ t.Breaks k) :
      FoundRight t needles i (.ok (t.dims.point j))

theorem limited (h : t.grid.WF) (hi : i < t.dims.cells) :
    { t.dims.point i with line := max (t.dims.point i).line t.topmostLine } = t.dims.point i :=
  InGrid.limited (Dimensions.point_has h.valid hi)

theorem inlineSearchLeft_returns (h : t.grid.WF) (hi : i < t.dims.cells) (needles : List Char) :
    Returns (t.inlineSearchLeft (t.dims.point i) needles) (t.FoundLeft needles i) := by
  unfold inlineSearchLeft
  simp only [limited h hi]
  refine loop_returns (fun s => t.dims.index s.1.point)
    (P := fun s : GridIterator Cell × Point => ∃ j ≤ i, s = (t.grid.iterFrom (t.dims.point j),
      t.dims.point j) ∧ ∀ k, j ≤ k → k < i → ¬ t.Matches needles k ∧ ¬ t.Breaks k)
    ⟨i, Nat.le_refl i, rfl, fun k hik hki => absurd hki (Nat.not_lt.mpr hik)⟩ ?_ ?_
  · simp only [Grid.iterFrom, Dimensions.index_point, searchFuel_eq]
    omega
  · rintro _ ⟨j, hj, rfl, hnone⟩
    have hlt : j < t.dims.cells := by omega
    simp only
    rw [iterFrom_prev h hlt]
    by_cases hpos : 0 < j
    · obtain ⟨cell, hcell⟩ := Grid.cellNo_isSome h (show j - 1 < t.dims.cells by omega)
      rw [if_pos hpos, hcell]
      simp only [Option.map_some, Option.bind_eq_bind, Option.bind_some]
      split
      · next hbreak => exact .pure (.error hj hnone (.inr ⟨hbreak.1, cell, hcell, hbreak.2⟩))
      · next hgoes =>
          have hgoes : ¬ t.Breaks (j - 1) := not_breaks hcell hgoes
          have hnext (k : Nat) (hjk : j - 1 < k) (hki : k < i) : ¬ t.Matches needles k ∧ ¬ t.Breaks k :=
            hnone k (by omega) hki
          split
          · next hfound => exact .pure (.ok (by omega) ⟨cell, hcell, hfound⟩ hgoes hnext)
          · next hmiss =>
              refine .pure ⟨⟨j - 1, by omega, rfl, fun k hjk hki => ?_⟩, ?_⟩
              · by_cases heq : k = j - 1
                · subst heq
                  exact ⟨not_matches hcell hmiss, hgoes⟩
                · exact hnext k (by omega) hki
              · simp only [Grid.iterFrom, Dimensions.index_point]
                omega
    · rw [if_neg hpos]
      exact .pure (.error hj hnone (.inl (by omega)))

theorem inlineSearchRight_returns (h : t.grid.WF) (hi : i < t.dims.cells) (needles : List Char) :
    Returns (t.inlineSearchRight (t.dims.point i) needles) (t.FoundRight needles i) := by
  unfold inlineSearchRight
  simp only [limited h hi]
  obtain ⟨first, hfirst⟩ := Grid.cellNo_isSome h hi
  have hbreak : Returns (if (t.dims.point i).column = t.lastColumn then do
      let cell ← t.grid.cellAt (t.dims.point i)
      some (!cell.flags.wrapline)
    else some false) fun atBreak => atBreak = true ↔ t.Breaks i := by
    have hget : t.grid.cellAt (t.dims.point i) = some first := hfirst
    split
    · next hlast =>
        rw [hget]
        refine .pure ?_
        rw [Bool.not_eq_true']
        exact ⟨fun hwrap => ⟨hlast, first, hfirst, hwrap⟩, fun hbreak => by_contra fun hwrap =>
          not_breaks hfirst (fun hc => hwrap hc.2) hbreak⟩
    · next hlast => exact .pure (iff_of_false Bool.false_ne_true fun hbreak => hlast hbreak.1)
  refine hbreak.bind fun atBreak hbreak => ?_
  split
  · next hstop => exact .pure (.error (Nat.le_refl i) hi (fun k hk hki => absurd hk (by omega))
      (fun k hk hki => absurd hk (by omega)) (.inr (hbreak.mp hstop)))
  · next hgo =>
      refine loop_returns (fun s => t.dims.cells - t.dims.index s.1.point)
        (P := fun s : GridIterator Cell × Point => ∃ j, i ≤ j ∧ j < t.dims.cells ∧
          s = (t.grid.iterFrom (t.dims.point j), t.dims.point j) ∧
            (∀ k, i < k → k ≤ j → ¬ t.Matches needles k) ∧ ∀ k, i ≤ k → k ≤ j → ¬ t.Breaks k)
        ⟨i, Nat.le_refl i, hi, rfl, fun k hk hki => absurd hk (by omega), fun k hk hki => ?_⟩ ?_ ?_
      · obtain rfl := Nat.le_antisymm hk hki
        exact fun hb => hgo (hbreak.mpr hb)
      · simp only [Grid.iterFrom, Dimensions.index_point, searchFuel_eq]
        omega
      · rintro _ ⟨j, hij, hlt, rfl, hnone, hgoes⟩
        simp only
        rw [iterFrom_next h hlt]
        by_cases hnext : j + 1 < t.dims.cells
        · obtain ⟨cell, hcell⟩ := Grid.cellNo_isSome h hnext
          rw [if_pos hnext, hcell]
          simp only [Option.map_some, Option.bind_eq_bind, Option.bind_some]
          have hgoes' (k : Nat) (hik : i ≤ k) (hkj : k < j + 1) : ¬ t.Breaks k :=
            hgoes k hik (by omega)
          split
          · next hfound =>
              exact .pure (.ok (by omega) hnext ⟨cell, hcell, hfound⟩
                (fun k hik hkj => hnone k hik (by omega)) hgoes')
          · next hmiss =>
              have hnone' (k : Nat) (hik : i < k) (hkj : k ≤ j + 1) : ¬ t.Matches needles k := by
                by_cases heq : k = j + 1
                · exact heq ▸ not_matches hcell hmiss
                · exact hnone k hik (by omega)
              split
              · next hbreak =>
                  exact .pure (.error (by omega) hnext hnone' hgoes' (.inr ⟨hbreak.1, cell, hcell, hbreak.2⟩))
              · next hgo =>
                  refine .pure ⟨⟨j + 1, by omega, hnext, rfl, hnone', fun k hik hkj => ?_⟩, ?_⟩
                  · by_cases heq : k = j + 1
                    · exact heq ▸ not_breaks hcell hgo
                    · exact hgoes' k hik (by omega)
                  · simp only [Grid.iterFrom, Dimensions.index_point]
                    omega
        · rw [if_neg hnext]
          exact .pure (.error hij hlt hnone (fun k hik hkj => hgoes k hik (by omega)) (.inl (by omega)))

/-- The left end of a semantic block: no needle before the cell in its line, or the first cell
after the closest one that is not a spacer. -/
inductive BlockStart (t : Term) (i : Nat) : Nat → Prop
  | line {j : Nat} (le : j ≤ i)
      (none : ∀ k, j ≤ k → k < i → ¬ t.Matches t.config.semanticEscapeChars k ∧ ¬ t.Breaks k)
      (start : j = 0 ∨ t.Breaks (j - 1)) : BlockStart t i j
  | after {j s : Nat} (lt : j < i) (found : t.Matches t.config.semanticEscapeChars j)
      (none : ∀ k, j ≤ k → k < i → ¬ t.Breaks k)
      (last : ∀ k, j < k → k < i → ¬ t.Matches t.config.semanticEscapeChars k)
      (gt : j < s) (cells : s < t.dims.cells) (spacers : ∀ k, j < k → k < s → t.IsSpacer k)
      (stop : ¬ t.IsSpacer s) : BlockStart t i s
  | spacers {j : Nat} (lt : j < i) (spacers : ∀ k, j < k → k < t.dims.cells → t.IsSpacer k) :
      BlockStart t i j

theorem semanticSearchLeft_returns (h : t.grid.WF) (hi : i < t.dims.cells) :
    Returns (t.semanticSearchLeft (t.dims.point i)) fun q =>
      ∃ s < t.dims.cells, q = t.dims.point s ∧ t.BlockStart i s := by
  refine (inlineSearchLeft_returns h hi _).bind fun r hr => ?_
  cases hr with
  | error le none start =>
      exact .pure ⟨_, by omega, rfl, .line le none start⟩
  | @ok j lt found goes none =>
      have hbreaks (k : Nat) (hjk : j ≤ k) (hki : k < i) : ¬ t.Breaks k := by
        by_cases heq : k = j
        · exact heq ▸ goes
        · exact (none k (by omega) hki).2
      refine loop_returns (fun it => t.dims.cells - t.dims.index it.point)
        (P := fun it : GridIterator Cell => ∃ k, j ≤ k ∧ k < t.dims.cells ∧
          it = t.grid.iterFrom (t.dims.point k) ∧ ∀ m, j < m → m ≤ k → t.IsSpacer m)
        ⟨j, Nat.le_refl j, by omega, rfl, fun m hjm hmj => absurd hjm (by omega)⟩ ?_ ?_
      · simp only [Grid.iterFrom, Dimensions.index_point, searchFuel_eq]
        omega
      · rintro _ ⟨k, hjk, hlt, rfl, hspacers⟩
        simp only
        rw [iterFrom_next h hlt]
        by_cases hnext : k + 1 < t.dims.cells
        · obtain ⟨cell, hcell⟩ := Grid.cellNo_isSome h hnext
          rw [if_pos hnext, hcell]
          simp only [Option.map_some, Option.bind_eq_bind, Option.bind_some]
          split
          · next hspacer =>
              refine .pure ⟨⟨k + 1, by omega, hnext, rfl, fun m hjm hmk => ?_⟩, ?_⟩
              · by_cases heq : m = k + 1
                · exact heq ▸ ⟨cell, hcell, hspacer⟩
                · exact hspacers m hjm (by omega)
              · simp only [Grid.iterFrom, Dimensions.index_point]
                omega
          · next hstop =>
              refine .pure ⟨k + 1, hnext, rfl, .after lt found hbreaks (fun m hjm hmi => (none m hjm hmi).1)
                (by omega) hnext (fun m hjm hmk => hspacers m hjm (by omega)) ?_⟩
              rintro ⟨cell', hcell', hspacer⟩
              obtain rfl := Option.some.inj (hcell.symm.trans hcell')
              exact hstop hspacer
        · rw [if_neg hnext]
          exact .pure ⟨j, by omega, rfl, .spacers lt fun m hjm hm => hspacers m hjm (by omega)⟩

/-- The right end of a semantic block: no needle after the cell in its line, or the cell before
the closest one. -/
inductive BlockStop (t : Term) (i : Nat) : Nat → Prop
  | line {j : Nat} (le : i ≤ j) (lt : j < t.dims.cells)
      (none : ∀ k, i < k → k ≤ j → ¬ t.Matches t.config.semanticEscapeChars k)
      (goes : ∀ k, i ≤ k → k < j → ¬ t.Breaks k)
      (stop : j + 1 = t.dims.cells ∨ t.Breaks j) : BlockStop t i j
  | before {j : Nat} (le : i ≤ j) (lt : j + 1 < t.dims.cells)
      (found : t.Matches t.config.semanticEscapeChars (j + 1))
      (none : ∀ k, i < k → k ≤ j → ¬ t.Matches t.config.semanticEscapeChars k)
      (goes : ∀ k, i ≤ k → k ≤ j → ¬ t.Breaks k) : BlockStop t i j

theorem BlockStop.le {j : Nat} (h : t.BlockStop i j) : i ≤ j := by
  cases h with
  | line le => exact le
  | before le => exact le

theorem semanticSearchRight_returns (h : t.grid.WF) (hi : i < t.dims.cells) :
    Returns (t.semanticSearchRight (t.dims.point i)) fun q =>
      ∃ s < t.dims.cells, q = t.dims.point s ∧ t.BlockStop i s := by
  refine (inlineSearchRight_returns h hi _).bind fun r hr => ?_
  cases hr with
  | error le lt none goes stop => exact .pure ⟨_, lt, rfl, .line le lt none goes stop⟩
  | @ok j gt lt found none goes =>
      simp only
      obtain ⟨cell, hcell⟩ := Grid.cellNo_isSome h (show j - 1 < t.dims.cells by omega)
      rw [iterFrom_prev h lt, if_pos (by omega), hcell]
      simp only [Option.map_some, Option.bind_eq_bind, Option.bind_some, Option.elim_some]
      have heq : j - 1 + 1 = j := by omega
      refine .pure ⟨j - 1, by omega, rfl, .before (by omega) (by omega) (heq.symm ▸ found)
        (fun k hik hkj => none k hik (by omega)) fun k hik hkj => goes k hik (by omega)⟩

theorem bracketSearch_returns (h : t.grid.WF) (hi : i < t.dims.cells) :
    Returns (t.bracketSearch (t.dims.point i)) fun r => ∀ q, r = some q → t.InGrid q :=
  (bracketSearch_spec h (Dimensions.point_has h.valid hi)).mono fun _ hr q hq => ((hr q).mp hq).1

/-! ### Lines -/

theorem isWrap_returns (h : t.WF) {p : Point} (hp : t.InGrid p) :
    Returns (t.isWrap p) fun _ => True := by
  obtain ⟨htop, hbottom, hcolumn⟩ := hp
  have hlines : t.bottommostLine = (t.grid.lines : Int) - 1 := rfl
  refine (Grid.cellAt_returns h.grid htop (by omega) hcolumn).bind fun cell _ => ?_
  exact .pure trivial

/-- The first cell of a line at or above that of the point. -/
theorem lineSearchLeft_returns (h : t.WF) {p : Point} (hp : t.InGrid p) :
    Returns (t.lineSearchLeft p) fun q => t.InGrid q ∧ q.line ≤ p.line ∧ q.column = 0 := by
  obtain ⟨htop, hbottom, hcolumn⟩ := hp
  have htotal := bottommost_eq h
  have hpos := h.grid.columns_pos
  refine Returns.bind (P := fun line : Int => t.topmostLine ≤ line ∧ line ≤ p.line) ?_ fun line hline =>
    .pure ⟨⟨hline.1, Int.le_trans hline.2 hbottom, hpos⟩, hline.2, rfl⟩
  refine loop_returns (fun line => (line - t.topmostLine).toNat)
    (P := fun line : Int => t.topmostLine ≤ line ∧ line ≤ p.line) ⟨htop, Int.le_refl _⟩ (by omega) ?_
  intro line ⟨hlo, hhi⟩
  split
  · next hlt =>
      refine (isWrap_returns h (p := ⟨line - 1, t.lastColumn⟩)
        ⟨by simp only; omega, by simp only; omega, lastColumn_lt h.grid⟩).bind fun wrap _ => .pure ?_
      cases wrap with
      | false => exact ⟨hlo, hhi⟩
      | true => exact ⟨⟨by omega, by omega⟩, by omega⟩
  · exact .pure ⟨hlo, hhi⟩

theorem lineSearchRight_returns (h : t.WF) {p : Point} (hp : t.InGrid p) :
    Returns (t.lineSearchRight p) fun q => t.InGrid q ∧ p.line ≤ q.line ∧ q.column = t.lastColumn := by
  obtain ⟨htop, hbottom, hcolumn⟩ := hp
  have htotal := bottommost_eq h
  have hlast := lastColumn_lt h.grid
  have hlines : t.bottommostLine = (t.screenLines : Int) - 1 := rfl
  refine Returns.bind (P := fun line : Int => p.line ≤ line ∧ line ≤ t.bottommostLine) ?_
    fun line hline => .pure ⟨⟨Int.le_trans htop hline.1, hline.2, hlast⟩, hline.1, rfl⟩
  refine loop_returns (fun line => (t.bottommostLine - line).toNat)
    (P := fun line : Int => p.line ≤ line ∧ line ≤ t.bottommostLine) ⟨Int.le_refl _, hbottom⟩
    (by omega) ?_
  intro line ⟨hlo, hhi⟩
  split
  · next hlt =>
      refine (isWrap_returns h (p := ⟨line, t.lastColumn⟩)
        ⟨Int.le_trans htop hlo, hhi, hlast⟩).bind fun wrap _ => .pure ?_
      cases wrap with
      | false => exact ⟨hlo, hhi⟩
      | true => exact ⟨⟨by omega, by omega⟩, by omega⟩
  · exact .pure ⟨hlo, hhi⟩

end Term
end Velacritty
