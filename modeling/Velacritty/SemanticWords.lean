import Velacritty.SemanticSearch
import Velacritty.TermSteps

/-! The word that a semantic search from one of its cells finds. -/
namespace Velacritty
open Fallible

namespace Term
variable {t : Term} {p q first last first' last' : Point} {i s a b : Nat}

/-- There are no cells that are the spacer of a wide character. -/
def NoSpacers (t : Term) : Prop :=
  ∀ p cell, t.InGrid p → t.grid.cellAt p = some cell → cell.flags.anySpacer = false

/-- The character of the cell separates words. -/
def Escapes (t : Term) (p : Point) : Prop :=
  ∃ c, t.charAt p = some c ∧ c ∈ t.config.semanticEscapeChars

/-- The rows from one line to another one are joined, which makes them a part of a logical line. -/
def RowsJoined (t : Term) (first last : Int) : Prop :=
  ∀ line, first ≤ line → line < last →
    ∃ cell, t.grid.cellAt ⟨line, t.lastColumn⟩ = some cell ∧ cell.flags.wrapline = true

/-- The cells of a logical line from the first to the last one are not escape characters. -/
structure Run (t : Term) (first last : Point) : Prop where
  first_inGrid : t.InGrid first
  last_inGrid : t.InGrid last
  le : first ≤ last
  word : ∀ q, t.InGrid q → first ≤ q → q ≤ last → ¬ t.Escapes q
  joined : t.RowsJoined first.line last.line

/-- The run is the longest one with the cell. -/
structure WordAt (t : Term) (p first last : Point) : Prop where
  run : t.Run first last
  first_le : first ≤ p
  le_last : p ≤ last
  maximal : ∀ first' last', t.Run first' last' → first' ≤ p → p ≤ last' →
    first ≤ first' ∧ last' ≤ last

theorem WordAt.unique (h : t.WordAt p first last) (h' : t.WordAt p first' last') :
    first = first' ∧ last = last' := by
  obtain ⟨hfirst, hlast⟩ := h.maximal first' last' h'.run h'.first_le h'.le_last
  obtain ⟨hfirst', hlast'⟩ := h'.maximal first last h.run h.first_le h.le_last
  exact ⟨Point.le_antisymm hfirst hfirst', Point.le_antisymm hlast' hlast⟩

theorem WordAt.of_mem (h : t.WordAt p first last) (h' : t.WordAt q first' last')
    (hfirst : first ≤ q) (hlast : q ≤ last) : t.WordAt q first last := by
  obtain ⟨hle, hge⟩ := h'.maximal first last h.run hfirst hlast
  obtain ⟨hle', hge'⟩ := h.maximal first' last' h'.run (Point.le_trans hle h.first_le)
    (Point.le_trans h.le_last hge)
  obtain rfl := Point.le_antisymm hle hle'
  obtain rfl := Point.le_antisymm hge hge'
  exact h'

/-! ### The numbers of a run -/

theorem matches_iff (h : t.grid.WF) (hn : t.NoSpacers) (hi : i < t.dims.cells) :
    t.Matches t.config.semanticEscapeChars i ↔ t.Escapes (t.dims.point i) := by
  constructor
  · rintro ⟨cell, hcell, -, hmem⟩
    exact ⟨cell.c, congrArg (Option.map Cell.c) hcell, hmem⟩
  · rintro ⟨c, hc, hmem⟩
    obtain ⟨cell, hcell, rfl⟩ := Option.map_eq_some_iff.mp hc
    exact ⟨cell, hcell, hn _ _ (Dimensions.point_has h.valid hi) hcell, hmem⟩

theorem not_isSpacer (h : t.grid.WF) (hn : t.NoSpacers) (hi : i < t.dims.cells) : ¬ t.IsSpacer i := by
  rintro ⟨cell, hcell, hspacer⟩
  rw [hn _ _ (Dimensions.point_has h.valid hi) hcell] at hspacer
  cases hspacer

/-- Between joined rows there are no ends of lines. -/
theorem joined_iff (h : t.grid.WF) (ha : a < t.dims.cells) (hb : b < t.dims.cells) :
    t.RowsJoined (t.dims.point a).line (t.dims.point b).line ↔ ∀ k, a ≤ k → k < b → ¬ t.Breaks k := by
  constructor
  · rintro hjoined k hak hkb ⟨hlast, hbreak⟩
    have hk : k < t.dims.cells := by omega
    have hle : t.dims.point a ≤ t.dims.point k := (Dimensions.point_le_iff h.valid ha hk).mpr hak
    have hlt : t.dims.point k < t.dims.point b := (Dimensions.point_lt_iff h.valid hk hb).mpr hkb
    have hcolumn : (t.dims.point b).column ≤ t.lastColumn :=
      Nat.le_sub_one_of_lt (Dimensions.point_has h.valid hb).2.2
    rw [Point.le_def] at hle
    rw [Point.lt_def] at hlt
    obtain ⟨cell, hcell, hwrap⟩ := hjoined (t.dims.point k).line (by omega) (by omega)
    rw [← hlast] at hcell
    exact not_breaks hcell (fun hnot => Bool.false_ne_true (hnot.2.symm.trans hwrap)) ⟨hlast, hbreak⟩
  · intro hgoes line hfirst hlast
    have htop : t.topmostLine ≤ line :=
      Int.le_trans (Dimensions.point_has h.valid ha).1 hfirst
    have hbottom : line ≤ t.bottommostLine :=
      Int.le_trans (Int.le_of_lt hlast) (Dimensions.point_has h.valid hb).2.1
    obtain ⟨k, hk, heq⟩ := InGrid.exists_index h (p := ⟨line, t.lastColumn⟩)
      ⟨htop, hbottom, lastColumn_lt h⟩
    have hline : line = (t.dims.point k).line := congrArg Point.line heq
    have hcolumn : t.lastColumn = (t.dims.point k).column := congrArg Point.column heq
    have hacolumn : (t.dims.point a).column ≤ t.lastColumn :=
      Nat.le_sub_one_of_lt (Dimensions.point_has h.valid ha).2.2
    have hak : a ≤ k := by
      refine (Dimensions.point_le_iff h.valid ha hk).mp (Point.le_def.mpr ?_)
      change (t.dims.point a).line < (t.dims.point k).line ∨ (t.dims.point a).line = (t.dims.point k).line ∧
        (t.dims.point a).column ≤ (t.dims.point k).column
      omega
    have hkb : k < b := by
      refine (Dimensions.point_lt_iff h.valid hk hb).mp (Point.lt_def.mpr (.inl ?_))
      exact hline ▸ hlast
    obtain ⟨cell, hcell⟩ := Grid.cellNo_isSome h hk
    refine ⟨cell, heq ▸ hcell, ?_⟩
    by_contra hwrap
    exact hgoes k hak hkb ⟨hcolumn.symm, cell, hcell, Bool.eq_false_iff.mpr hwrap⟩

theorem run_iff (h : t.grid.WF) (hn : t.NoSpacers) (ha : a < t.dims.cells) (hb : b < t.dims.cells) :
    t.Run (t.dims.point a) (t.dims.point b) ↔ a ≤ b ∧
      (∀ k, a ≤ k → k ≤ b → ¬ t.Matches t.config.semanticEscapeChars k) ∧
      ∀ k, a ≤ k → k < b → ¬ t.Breaks k := by
  rw [← joined_iff h ha hb]
  constructor
  · intro hrun
    refine ⟨(Dimensions.point_le_iff h.valid ha hb).mp hrun.le, fun k hak hkb => ?_, hrun.joined⟩
    have hk : k < t.dims.cells := by omega
    rw [matches_iff h hn hk]
    exact hrun.word _ (Dimensions.point_has h.valid hk) ((Dimensions.point_le_iff h.valid ha hk).mpr hak)
      ((Dimensions.point_le_iff h.valid hk hb).mpr hkb)
  · rintro ⟨hab, hword, hjoined⟩
    refine ⟨Dimensions.point_has h.valid ha, Dimensions.point_has h.valid hb,
      (Dimensions.point_le_iff h.valid ha hb).mpr hab, fun q hq hfirst hlast => ?_, hjoined⟩
    obtain ⟨k, hk, rfl⟩ := InGrid.exists_index h hq
    rw [← matches_iff h hn hk]
    exact hword _ ((Dimensions.point_le_iff h.valid ha hk).mp hfirst)
      ((Dimensions.point_le_iff h.valid hk hb).mp hlast)

/-! ### The ends that the searches find -/

/-- The search to the left stops before a separator, or at the start of the line. -/
theorem BlockStart.closest (hs : t.BlockStart i s) (h : t.grid.WF) (hn : t.NoSpacers)
    (hi : i < t.dims.cells) : s ≤ i ∧
      (∀ k, s ≤ k → k < i → ¬ t.Matches t.config.semanticEscapeChars k ∧ ¬ t.Breaks k) ∧
      (s = 0 ∨ t.Matches t.config.semanticEscapeChars (s - 1) ∨ t.Breaks (s - 1)) := by
  cases hs with
  | line le none start => exact ⟨le, none, start.imp_right .inr⟩
  | @after j s lt found none last gt cells spacers stop =>
      have heq : s = j + 1 := by
        by_contra hne
        exact not_isSpacer h hn (by omega) (spacers (j + 1) (by omega) (by omega))
      subst heq
      exact ⟨lt, fun k hjk hki => ⟨last k hjk hki, none k (by omega) hki⟩, .inr (.inl found)⟩
  | spacers lt spacers => exact absurd (spacers i lt hi) (not_isSpacer h hn hi)

/-- The search to the right stops before a separator, or at the end of the line. -/
theorem BlockStop.closest (hs : t.BlockStop i s) : i ≤ s ∧
    (∀ k, i < k → k ≤ s → ¬ t.Matches t.config.semanticEscapeChars k) ∧
    (∀ k, i ≤ k → k < s → ¬ t.Breaks k) ∧
    (s + 1 = t.dims.cells ∨ t.Matches t.config.semanticEscapeChars (s + 1) ∨ t.Breaks s) := by
  cases hs with
  | line le lt none goes stop => exact ⟨le, none, goes, stop.imp_right .inr⟩
  | before le lt found none goes =>
      exact ⟨le, none, fun k hik hks => goes k hik (Nat.le_of_lt hks), .inr (.inl found)⟩

/-- The searches from a cell find the ends of its word. -/
theorem semanticSearch_wordAt (h : t.grid.WF) (hn : t.NoSpacers) (hp : t.InGrid p)
    (hword : ¬ t.Escapes p) : ∃ first last, t.semanticSearchLeft p = some first ∧
      t.semanticSearchRight p = some last ∧ t.WordAt p first last := by
  obtain ⟨i, hi, rfl⟩ := InGrid.exists_index h hp
  rw [← matches_iff h hn hi] at hword
  obtain ⟨first, hleft, a, ha, rfl, hstart⟩ := semanticSearchLeft_returns h hi
  obtain ⟨last, hright, b, hb, rfl, hstop⟩ := semanticSearchRight_returns h hi
  obtain ⟨hai, hbefore, hfirst⟩ := hstart.closest h hn hi
  obtain ⟨hib, hafter, hgoes, hlast⟩ := hstop.closest
  refine ⟨_, _, hleft, hright, ?_, (Dimensions.point_le_iff h.valid ha hi).mpr hai,
    (Dimensions.point_le_iff h.valid hi hb).mpr hib, fun first' last' hrun hle hge => ?_⟩
  · refine (run_iff h hn ha hb).mpr ⟨Nat.le_trans hai hib, fun k hak hkb => ?_, fun k hak hkb => ?_⟩
    · rcases Nat.lt_trichotomy k i with hlt | rfl | hgt
      · exact (hbefore k hak hlt).1
      · exact hword
      · exact hafter k hgt hkb
    · rcases Nat.lt_or_ge k i with hlt | hge
      · exact (hbefore k hak hlt).2
      · exact hgoes k hge hkb
  · obtain ⟨a', ha', rfl⟩ := InGrid.exists_index h hrun.first_inGrid
    obtain ⟨b', hb', rfl⟩ := InGrid.exists_index h hrun.last_inGrid
    obtain ⟨-, hword', hgoes'⟩ := (run_iff h hn ha' hb').mp hrun
    have hai' : a' ≤ i := (Dimensions.point_le_iff h.valid ha' hi).mp hle
    have hib' : i ≤ b' := (Dimensions.point_le_iff h.valid hi hb').mp hge
    -- A longer run would go on behind one of the ends.
    refine ⟨(Dimensions.point_le_iff h.valid ha ha').mpr ?_,
      (Dimensions.point_le_iff h.valid hb' hb).mpr ?_⟩
    · by_contra hlonger
      rcases hfirst with hzero | hfound | hbreak
      · omega
      · exact hword' (a - 1) (by omega) (by omega) hfound
      · exact hgoes' (a - 1) (by omega) (by omega) hbreak
    · by_contra hlonger
      rcases hlast with hend | hfound | hbreak
      · omega
      · exact hword' (b + 1) (by omega) (by omega) hfound
      · exact hgoes' b (by omega) (by omega) hbreak

/-- The cells between the ends that the searches find are the longest run of its line with the
cell, which is found from each of its cells. -/
theorem semanticSearch_word (h : t.grid.WF) (hn : t.NoSpacers) (hp : t.InGrid p)
    (hword : ¬ t.Escapes p) : ∃ first last, t.semanticSearchLeft p = some first ∧
      t.semanticSearchRight p = some last ∧ t.WordAt p first last ∧
      ∀ q, t.InGrid q → first ≤ q → q ≤ last →
        t.semanticSearchLeft q = some first ∧ t.semanticSearchRight q = some last := by
  obtain ⟨first, last, hleft, hright, hfound⟩ := semanticSearch_wordAt h hn hp hword
  refine ⟨first, last, hleft, hright, hfound, fun q hq hfirst hlast => ?_⟩
  obtain ⟨first', last', hleft', hright', hfound'⟩ :=
    semanticSearch_wordAt h hn hq (hfound.run.word q hq hfirst hlast)
  obtain ⟨rfl, rfl⟩ := hfound'.unique (hfound.of_mem hfound' hfirst hlast)
  exact ⟨hleft', hright'⟩

/-- A word goes on in the row that its line is wrapped to. -/
theorem semanticSearch_word_wrapped : ∃ t, Reachable .fullwidth .initial 2 2 t ∧
    t.WordAt ⟨1, 0⟩ ⟨0, 0⟩ ⟨1, 0⟩ ∧ t.semanticSearchLeft ⟨0, 1⟩ = some ⟨0, 0⟩ ∧
    t.semanticSearchRight ⟨0, 1⟩ = some ⟨1, 0⟩ := by
  have hwrapped : ∃ t, Reachable .fullwidth .initial 2 2 t ∧ t.InGrid ⟨1, 0⟩ ∧ t.InGrid ⟨0, 1⟩ ∧
      t.topmostLine = 0 ∧ t.bottommostLine = 1 ∧ t.columns = 2 ∧
      (∀ line < 2, ∀ column < 2, (t.grid.cellAt ⟨(line : Nat), column⟩).all (!·.flags.anySpacer)) ∧
      (t.charAt ⟨1, 0⟩).all (· ∉ t.config.semanticEscapeChars) ∧
      t.semanticSearchLeft ⟨1, 0⟩ = some ⟨0, 0⟩ ∧ t.semanticSearchRight ⟨1, 0⟩ = some ⟨1, 0⟩ :=
    ⟨_, .step (.step (.step .refl (a := .handler (.input 'a')) trivial rfl)
      (a := .handler (.input 'b')) trivial rfl) (a := .handler (.input 'c')) trivial rfl,
      ⟨by decide, by decide, by decide⟩, ⟨by decide, by decide, by decide⟩, rfl, rfl, rfl, by decide,
      by decide, rfl, rfl⟩
  obtain ⟨t, hrun, hp, hq, htop, hbottom, hcolumns, hcells, hchar, hleft, hright⟩ := hwrapped
  have ht := hrun.wf (by decide) (by decide)
  have hn : t.NoSpacers := by
    rintro ⟨line, column⟩ cell ⟨hlo, hhi, hcolumn⟩ hcell
    simp only [htop, hbottom, hcolumns] at hlo hhi hcolumn
    obtain ⟨line, rfl⟩ := Int.eq_ofNat_of_zero_le hlo
    have hnone := hcells line (by omega) column hcolumn
    rw [hcell] at hnone
    simpa using hnone
  have hword : ¬ t.Escapes ⟨1, 0⟩ := by
    rintro ⟨c, hc, hmem⟩
    rw [hc] at hchar
    simp at hchar
    exact hchar hmem
  obtain ⟨first, last, hleft', hright', hfound, hsame⟩ := semanticSearch_word ht.grid hn hp hword
  obtain rfl := Option.some.inj (hleft.symm.trans hleft')
  obtain rfl := Option.some.inj (hright.symm.trans hright')
  exact ⟨t, hrun, hfound, hsame _ hq (by decide) (by decide)⟩

end Term
end Velacritty
