import Velacritty.Brackets
import Velacritty.CellOrder
import Velacritty.TermSteps

/-! What post-processing leaves of a hint's match. -/
namespace Velacritty
open Fallible

/-- The cells of a regex match, up to and including its end. -/
structure RegexMatch where
  start : Point
  stop : Point
  deriving DecidableEq, Repr

abbrev SearchRight := Point → Point → Option RegexMatch

namespace Term

/-- The open brackets when a bracket is read; `none` if it closes one that is not open. -/
def countBracket (c : Char) : Nat × Nat → Option (Nat × Nat)
  | (openParents, openBrackets) =>
      if c = '(' then some (openParents + 1, openBrackets)
      else if c = '[' then some (openParents, openBrackets + 1)
      else if c = ')' then if openParents = 0 then none else some (openParents - 1, openBrackets)
      else if c = ']' then if openBrackets = 0 then none else some (openParents, openBrackets - 1)
      else some (openParents, openBrackets)

/-- Characters which are likely to be delimiters at the end of a match. -/
def trailingDelimiters : List Char := ['.', ',', ':', ';', '?', '!', '(', '[', '\'']

def truncateBrackets (t : Term) (stop : Point) (it : GridIterator Cell) (c : Char) :
    Option (GridIterator Cell × Char) :=
  Fallible.loop (fun ((it, c, brackets) : GridIterator Cell × Char × Nat × Nat) =>
    match countBracket c brackets with
    | none => do
        let (_, it) ← it.prev
        some (.inl (it, c))
    | some brackets =>
        if it.point = stop then some (.inl (it, c))
        else do
          let (item, it) ← it.next
          match item with
          | none => some (.inl (it, c))
          | some (_, cell) => some (.inr (it, cell.c, brackets))) t.searchFuel (it, c, 0, 0)

def truncateTrailing (t : Term) (start : Point) (it : GridIterator Cell) (c : Char) :
    Option (GridIterator Cell) :=
  Fallible.loop (fun ((it, c) : GridIterator Cell × Char) =>
    if it.point = start then some (.inl it)
    else if c ∉ trailingDelimiters then some (.inl it)
    else do
      let (item, it) ← it.prev
      match item with
      | none => some (.inl it)
      | some (_, cell) => some (.inr (it, cell.c))) t.searchFuel (it, c)

/-- Apply some hint post processing heuristics; `none` if nothing is left of the match. -/
def hintPostProcessing (t : Term) (m : RegexMatch) : Option (Option RegexMatch) := do
  let it := t.grid.iterFrom m.start
  let cell ← it.cell
  let (it, c) ← t.truncateBrackets m.stop it cell.c
  let it ← t.truncateTrailing m.start it c
  some (if it.point < m.start then none else some ⟨m.start, it.point⟩)

end Term

namespace Term
variable {t : Term} {x y k : Nat} {c : Char}

theorem countBracket_none {c : Char} {brackets : Nat × Nat} (h : countBracket c brackets = none) :
    c ∉ trailingDelimiters := by
  obtain ⟨openParents, openBrackets⟩ := brackets
  unfold countBracket at h
  split_ifs at h
  · next hclose => exact hclose ▸ (by decide)
  · next hclose => exact hclose ▸ (by decide)

/-- Read the brackets of a text; `none` if one is closed that is not open. -/
def countBrackets (cs : List Char) (brackets : Nat × Nat) : Option (Nat × Nat) :=
  cs.foldlM (fun brackets c => countBracket c brackets) brackets

theorem countBrackets_isSome (cs : List Char) (openParents openBrackets : Nat) :
    (countBrackets cs (openParents, openBrackets)).isSome ↔
      Closes '(' ')' openParents cs ∧ Closes '[' ']' openBrackets cs := by
  induction cs generalizing openParents openBrackets with
  | nil => exact iff_of_true rfl ⟨closes_nil, closes_nil⟩
  | cons c cs ih =>
      have hcons : countBrackets (c :: cs) (openParents, openBrackets) =
          (countBracket c (openParents, openBrackets)).bind (countBrackets cs) := rfl
      rw [hcons, countBracket]
      split
      · next heq =>
          rw [heq, Option.bind_some, ih, closes_open (by decide),
            closes_other (c := '(') (by decide) (by decide)]
      · next hparen =>
          split
          · next heq =>
              rw [heq, Option.bind_some, ih, closes_open (by decide),
                closes_other (c := '[') (by decide) (by decide)]
          · next hbracket =>
              split
              · next heq =>
                  rw [heq]
                  cases openParents with
                  | zero => exact iff_of_false nofun fun h => not_closes_close (by decide) h.1
                  | succ openParents =>
                      rw [if_neg (Nat.succ_ne_zero _), Option.bind_some, Nat.add_sub_cancel, ih,
                        closes_close (by decide), closes_other (c := ')') (by decide) (by decide)]
              · next hcloseParen =>
                  split
                  · next heq =>
                      rw [heq]
                      cases openBrackets with
                      | zero => exact iff_of_false nofun fun h => not_closes_close (by decide) h.2
                      | succ openBrackets =>
                          rw [if_neg (Nat.succ_ne_zero _), Option.bind_some, Nat.add_sub_cancel, ih,
                            closes_close (by decide),
                            closes_other (c := ']') (by decide) (by decide)]
                  · next hcloseBracket =>
                      rw [Option.bind_some, ih, closes_other hparen hcloseParen,
                        closes_other hbracket hcloseBracket]

theorem balanced_iff (cs : List Char) : Balanced cs ↔ (countBrackets cs (0, 0)).isSome :=
  (countBrackets_isSome cs 0 0).symm

theorem countBrackets_snoc (cs : List Char) (c : Char) (brackets : Nat × Nat) :
    countBrackets (cs ++ [c]) brackets = (countBrackets cs brackets).bind (countBracket c) := by
  unfold countBrackets
  rw [List.foldlM_append]
  apply Option.bind_congr
  intro brackets _
  simp only [List.foldlM_cons, List.foldlM_nil, bind_pure]

/-- The character of a cell, by the cell's number. -/
def charNo (t : Term) (k : Nat) : Char := ((t.grid.cellNo k).map (·.c)).getD ' '

def textFrom (t : Term) (x count : Nat) : List Char := (List.range' x count).map t.charNo

theorem charNo_eq {cell : Cell} (h : t.grid.cellNo k = some cell) : t.charNo k = cell.c := by
  unfold charNo
  rw [h]
  rfl

theorem textFrom_succ (t : Term) (hk : x ≤ k) :
    t.textFrom x (k + 1 - x) = t.textFrom x (k - x) ++ [t.charNo k] := by
  unfold textFrom
  rw [Nat.succ_sub hk, List.range'_1_concat, List.map_append, Nat.add_sub_cancel' hk]
  rfl

theorem textFrom_take (t : Term) {count count' : Nat} (h : count ≤ count') :
    (t.textFrom x count').take count = t.textFrom x count := by
  unfold textFrom
  rw [← List.map_take, List.take_range'_of_length_ge h]

/-- The cell closes a bracket that is not opened between `x` and it, and is the first one that
does. -/
def Unopened (t : Term) (x k : Nat) : Prop :=
  x ≤ k ∧ Balanced (t.textFrom x (k - x)) ∧ ¬ Balanced (t.textFrom x (k + 1 - x))

theorem unopened_of_countBracket {brackets : Nat × Nat} (hk : x ≤ k)
    (hbefore : countBrackets (t.textFrom x (k - x)) (0, 0) = some brackets)
    (hclosed : countBracket (t.charNo k) brackets = none) : t.Unopened x k := by
  refine ⟨hk, (balanced_iff _).mpr (Option.isSome_of_eq_some hbefore), ?_⟩
  rw [balanced_iff, textFrom_succ t hk, countBrackets_snoc, hbefore, Option.bind_some, hclosed]
  exact nofun

/-- The cells up to the first bracket that is not opened are left, or all of them. The current
character stays that of the bracket. -/
theorem truncateBrackets_spec (ht : t.WF) (hxy : x ≤ y) (hy : y < t.dims.cells) :
    Returns (t.truncateBrackets (t.dims.point y) (t.grid.iterFrom (t.dims.point x)) (t.charNo x))
      fun r => (∃ k ≤ y, t.Unopened x k ∧ t.charNo k ∉ trailingDelimiters ∧
          r = (t.grid.iterFrom (t.dims.point (k - 1)), t.charNo k)) ∨
        Balanced (t.textFrom x (y + 1 - x)) ∧
          r = (t.grid.iterFrom (t.dims.point y), t.charNo y) := by
  refine loop_returns (fun s => t.dims.cells - t.dims.index s.1.point)
    (P := fun s : GridIterator Cell × Char × Nat × Nat => ∃ k, x ≤ k ∧ k ≤ y ∧
      s.1 = t.grid.iterFrom (t.dims.point k) ∧ s.2.1 = t.charNo k ∧
      countBrackets (t.textFrom x (k - x)) (0, 0) = some s.2.2) ?_ ?_ ?_
  · refine ⟨x, Nat.le_refl x, hxy, rfl, rfl, ?_⟩
    rw [Nat.sub_self]
    rfl
  · simp only [Grid.iterFrom, Dimensions.index_point, searchFuel_eq]
    omega
  · rintro ⟨it, c, brackets⟩ ⟨k, hxk, hky, rfl, hc, hbefore⟩
    obtain rfl : c = t.charNo k := hc
    simp only
    split
    · next hclosed =>
        have hunopened := unopened_of_countBracket hxk hbefore hclosed
        have hdelim := countBracket_none hclosed
        rw [iterFrom_prev ht.grid (by omega)]
        by_cases hpos : 0 < k
        · obtain ⟨cell, hcell⟩ := Grid.cellNo_isSome ht.grid (show k - 1 < t.dims.cells by omega)
          rw [if_pos hpos, hcell]
          exact .pure (.inl ⟨k, hky, hunopened, hdelim, rfl⟩)
        · obtain rfl := Nat.eq_zero_of_not_pos hpos
          rw [if_neg hpos]
          exact .pure (.inl ⟨0, hky, hunopened, hdelim, rfl⟩)
    · next brackets' hread =>
        have hupto : countBrackets (t.textFrom x (k + 1 - x)) (0, 0) = some brackets' := by
          rw [textFrom_succ t hxk, countBrackets_snoc, hbefore, Option.bind_some, hread]
        split
        · next hend =>
            obtain rfl : k = y := t.dims.point_injective hend
            exact .pure (.inr ⟨(balanced_iff _).mpr (Option.isSome_of_eq_some hupto), rfl⟩)
        · next hne =>
            have hlt : k < y := by
              refine Nat.lt_of_le_of_ne hky fun heq => hne ?_
              rw [heq]
              rfl
            obtain ⟨cell, hcell⟩ := Grid.cellNo_isSome ht.grid (show k + 1 < t.dims.cells by omega)
            rw [iterFrom_next ht.grid (by omega), if_pos (by omega), hcell]
            refine .pure ⟨⟨k + 1, by omega, hlt, rfl, (charNo_eq hcell).symm, hupto⟩, ?_⟩
            simp only [Grid.iterFrom, Dimensions.index_point]
            omega

theorem truncateTrailing_stale (start : Point) (it : GridIterator Cell)
    (hc : c ∉ trailingDelimiters) : t.truncateTrailing start it c = some it := by
  unfold truncateTrailing
  rw [searchFuel_eq, Fallible.loop]
  by_cases hstart : it.point = start
  · simp only [if_pos hstart]
  · simp only [if_neg hstart, if_pos hc]

/-- If the current character is that of the current cell, the match ends with one that is no
delimiter, or is a single cell. -/
theorem truncateTrailing_spec (ht : t.WF) (hxy : x ≤ y) (hy : y < t.dims.cells) :
    Returns (t.truncateTrailing (t.dims.point x) (t.grid.iterFrom (t.dims.point y)) (t.charNo y))
      fun it => ∃ e, x ≤ e ∧ e ≤ y ∧ (e = x ∨ t.charNo e ∉ trailingDelimiters) ∧
        it = t.grid.iterFrom (t.dims.point e) := by
  refine loop_returns (fun s => t.dims.index s.1.point)
    (P := fun s : GridIterator Cell × Char => ∃ k, x ≤ k ∧ k ≤ y ∧
      s.1 = t.grid.iterFrom (t.dims.point k) ∧ s.2 = t.charNo k) ?_ ?_ ?_
  · exact ⟨y, hxy, Nat.le_refl y, rfl, rfl⟩
  · simp only [Grid.iterFrom, Dimensions.index_point, searchFuel_eq]
    omega
  · rintro ⟨it, c⟩ ⟨k, hxk, hky, rfl, hc⟩
    obtain rfl : c = t.charNo k := hc
    simp only
    split
    · next hstart =>
        obtain rfl : k = x := t.dims.point_injective hstart
        exact .pure ⟨k, hxk, hky, .inl rfl, rfl⟩
    · next hne =>
        split
        · next hdelim => exact .pure ⟨k, hxk, hky, .inr hdelim, rfl⟩
        · have hlt : x < k := by
            refine Nat.lt_of_le_of_ne hxk fun heq => hne ?_
            rw [heq]
            rfl
          obtain ⟨cell, hcell⟩ := Grid.cellNo_isSome ht.grid (show k - 1 < t.dims.cells by omega)
          rw [iterFrom_prev ht.grid (by omega), if_pos (by omega), hcell]
          refine .pure ⟨⟨k - 1, by omega, by omega, rfl, (charNo_eq hcell).symm⟩, ?_⟩
          simp only [Grid.iterFrom, Dimensions.index_point]
          omega

/-- What is left of a match: the cells before the first bracket that is not opened, if there is
one, and otherwise the cells up to the last one that is no delimiter. -/
theorem hintPostProcessing_spec (ht : t.WF) (hxy : x ≤ y) (hy : y < t.dims.cells) :
    Returns (t.hintPostProcessing ⟨t.dims.point x, t.dims.point y⟩) fun r =>
      (∃ k ≤ y, t.Unopened x k ∧ r =
        if k = x ∧ 0 < k then none else some ⟨t.dims.point x, t.dims.point (k - 1)⟩) ∨
      Balanced (t.textFrom x (y + 1 - x)) ∧ ∃ e, x ≤ e ∧ e ≤ y ∧
        (e = x ∨ t.charNo e ∉ trailingDelimiters) ∧ r = some ⟨t.dims.point x, t.dims.point e⟩ := by
  have hvalid : t.dims.Valid := ht.grid.valid
  have hx : x < t.dims.cells := Nat.lt_of_le_of_lt hxy hy
  obtain ⟨cell, hcell⟩ := Grid.cellNo_isSome ht.grid hx
  have hfirst : (t.grid.iterFrom (t.dims.point x)).cell = some cell := hcell
  have hpoint (e : Nat) : (t.grid.iterFrom (t.dims.point e)).point = t.dims.point e := rfl
  unfold hintPostProcessing
  simp only [hfirst, Option.bind_eq_bind, Option.bind_some]
  rw [← charNo_eq hcell]
  refine (truncateBrackets_spec ht hxy hy).bind fun r hr => ?_
  rcases hr with ⟨k, hky, hk, hdelim, rfl⟩ | ⟨hbalanced, rfl⟩
  · simp only [truncateTrailing_stale _ _ hdelim, Option.bind_some, hpoint]
    refine .pure (.inl ⟨k, hky, hk, if_congr ?_ rfl rfl⟩)
    have hxk := hk.1
    rw [Dimensions.point_lt_iff hvalid (by omega) hx]
    omega
  · refine (truncateTrailing_spec ht hxy hy).bind fun it hit => .pure (.inr ⟨hbalanced, ?_⟩)
    obtain ⟨e, hxe, hey, hdelim, rfl⟩ := hit
    rw [hpoint, if_neg]
    · exact ⟨e, hxe, hey, hdelim, rfl⟩
    · rw [Dimensions.point_lt_iff hvalid (by omega) hx]
      omega

/-- What is left is the start of the match, closes only brackets that it opens, and does not end
with a delimiter, unless it is a single cell. -/
def Trimmed (t : Term) (x y : Nat) (r : Option RegexMatch) : Prop :=
  ∀ m, r = some m → ∃ e, x ≤ e ∧ e ≤ y ∧ m = ⟨t.dims.point x, t.dims.point e⟩ ∧
    Balanced (t.textFrom x (e + 1 - x)) ∧ (e = x ∨ t.charNo e ∉ trailingDelimiters)

/-- The first bracket that is not opened is on the first cell of the grid, or follows a delimiter
that is not the start of the match. -/
def Overlooked (t : Term) (x y : Nat) : Prop :=
  ∃ k ≤ y, t.Unopened x k ∧ (k = 0 ∨ x + 2 ≤ k ∧ t.charNo (k - 1) ∈ trailingDelimiters)

theorem Unopened.not_balanced (hk : t.Unopened x k) (count : Nat) (hcount : k + 1 - x ≤ count) :
    ¬ Balanced (t.textFrom x count) := by
  intro hbalanced
  have htake := hbalanced.take (k + 1 - x)
  rw [textFrom_take t hcount] at htake
  exact hk.2.2 htake

/-- No two cells are the first to close a bracket that is not opened. -/
theorem Unopened.unique {l : Nat} (hk : t.Unopened x k) (hl : t.Unopened x l) : k = l := by
  have hxk := hk.1
  have hxl := hl.1
  rcases Nat.lt_trichotomy k l with hlt | heq | hlt
  · exact absurd hl.2.1 (hk.not_balanced _ (by omega))
  · exact heq
  · exact absurd hk.2.1 (hl.not_balanced _ (by omega))

theorem trimmed_iff (ht : t.WF) (hxy : x ≤ y) (hy : y < t.dims.cells) :
    Returns (t.hintPostProcessing ⟨t.dims.point x, t.dims.point y⟩) (t.Trimmed x y) ↔
      ¬ t.Overlooked x y := by
  obtain ⟨r, hr, hspec⟩ := hintPostProcessing_spec ht hxy hy
  constructor
  · rintro htrimmed ⟨k, hky, hk, hoverlooked⟩
    have htrimmed := htrimmed.of_eq hr
    have hxk := hk.1
    rcases hspec with ⟨l, hly, hl, rfl⟩ | ⟨hbalanced, -⟩
    · obtain rfl := hk.unique hl
      rw [if_neg (by omega)] at htrimmed
      obtain ⟨e, hxe, hey, hm, hbalanced, hdelim⟩ := htrimmed _ rfl
      obtain rfl : k - 1 = e := t.dims.point_injective (congrArg RegexMatch.stop hm)
      rcases hoverlooked with rfl | ⟨hfar, hlast⟩
      · exact hk.not_balanced _ (by omega) hbalanced
      · rcases hdelim with heq | hdelim
        · omega
        · exact hdelim hlast
    · exact hk.not_balanced _ (by omega) hbalanced
  · intro hno
    refine ⟨r, hr, ?_⟩
    rintro m rfl
    rcases hspec with ⟨k, hky, hk, hm⟩ | ⟨hbalanced, e, hxe, hey, hdelim, hm⟩
    · have hxk := hk.1
      split_ifs at hm with hout
      have hpos : 0 < k := Nat.pos_of_ne_zero fun hzero => hno ⟨k, hky, hk, .inl hzero⟩
      have hlt : x < k := by omega
      refine ⟨k - 1, by omega, by omega, Option.some.inj hm, ?_, ?_⟩
      · rw [Nat.sub_add_cancel hpos]
        exact hk.2.1
      · by_cases hsingle : k - 1 = x
        · exact .inl hsingle
        · exact .inr fun hlast => hno ⟨k, hky, hk, .inr ⟨by omega, hlast⟩⟩
    · refine ⟨e, hxe, hey, Option.some.inj hm, ?_, hdelim⟩
      have htake := hbalanced.take (e + 1 - x)
      rwa [textFrom_take t (by omega)] at htake

/-- A match is trimmed, unless the first bracket that it does not open is overlooked. -/
theorem hintPostProcessing_trimmed_iff (t : Term) (ht : t.WF) (m : RegexMatch)
    (hstart : t.InGrid m.start) (hstop : t.InGrid m.stop) (hle : m.start ≤ m.stop) :
    Returns (t.hintPostProcessing m) (t.Trimmed (t.dims.index m.start) (t.dims.index m.stop)) ↔
      ¬ t.Overlooked (t.dims.index m.start) (t.dims.index m.stop) := by
  obtain ⟨start, stop⟩ := m
  obtain ⟨x, hx, rfl⟩ := InGrid.exists_index ht.grid hstart
  obtain ⟨y, hy, rfl⟩ := InGrid.exists_index ht.grid hstop
  have hxy : x ≤ y := (Dimensions.point_le_iff ht.grid.valid hx hy).mp hle
  simp only [Dimensions.index_point]
  exact trimmed_iff ht hxy hy

/-- A dot at the end of a match is left out. -/
theorem hintPostProcessing_trimmed_dot : ∃ t, Reachable .fullwidth .initial 1 4 t ∧
    t.hintPostProcessing ⟨⟨0, 0⟩, ⟨0, 1⟩⟩ = some (some ⟨⟨0, 0⟩, ⟨0, 0⟩⟩) ∧
    Returns (t.hintPostProcessing ⟨⟨0, 0⟩, ⟨0, 1⟩⟩) (t.Trimmed 0 1) := by
  have hdot : ∃ t, Reachable .fullwidth .initial 1 4 t ∧
      t.hintPostProcessing ⟨⟨0, 0⟩, ⟨0, 1⟩⟩ = some (some ⟨⟨0, 0⟩, ⟨0, 0⟩⟩) ∧
      t.textFrom 0 2 = ['a', '.'] ∧ t.dims.index ⟨0, 0⟩ = 0 ∧ t.dims.index ⟨0, 1⟩ = 1 ∧
      t.InGrid ⟨0, 0⟩ ∧ t.InGrid ⟨0, 1⟩ :=
    ⟨_, .step (.step .refl (a := .handler (.input 'a')) trivial rfl)
      (a := .handler (.input '.')) trivial rfl, rfl, rfl, rfl, rfl,
      ⟨by decide, by decide, by decide⟩, ⟨by decide, by decide, by decide⟩⟩
  obtain ⟨t, hrun, hresult, htext, hstart, hstop, hstart', hstop'⟩ := hdot
  have ht := hrun.wf (by decide) (by decide)
  refine ⟨t, hrun, hresult, ?_⟩
  have htrimmed := hintPostProcessing_trimmed_iff t ht ⟨⟨0, 0⟩, ⟨0, 1⟩⟩ hstart' hstop' (by decide)
  rw [hstart, hstop] at htrimmed
  apply htrimmed.mpr
  rintro ⟨k, hk, hunopened, -⟩
  apply hunopened.not_balanced 2 (by omega)
  rw [htext, balanced_iff]
  rfl

/-- A dot before a bracket that is not opened stays, and so does such a bracket on the first cell of
the grid. -/
theorem hintPostProcessing_not_trimmed :
    (∃ t, Reachable .fullwidth .initial 1 4 t ∧
      t.hintPostProcessing ⟨⟨0, 0⟩, ⟨0, 2⟩⟩ = some (some ⟨⟨0, 0⟩, ⟨0, 1⟩⟩) ∧
      t.textFrom 0 3 = ['a', '.', ')'] ∧
      ¬ Returns (t.hintPostProcessing ⟨⟨0, 0⟩, ⟨0, 2⟩⟩) (t.Trimmed 0 2)) ∧
    ∃ t, Reachable .fullwidth .initial 1 4 t ∧
      t.hintPostProcessing ⟨⟨0, 0⟩, ⟨0, 0⟩⟩ = some (some ⟨⟨0, 0⟩, ⟨0, 0⟩⟩) ∧
      t.textFrom 0 1 = [')'] ∧
      ¬ Returns (t.hintPostProcessing ⟨⟨0, 0⟩, ⟨0, 0⟩⟩) (t.Trimmed 0 0) := by
  constructor
  · have hdot : ∃ t, Reachable .fullwidth .initial 1 4 t ∧
        t.hintPostProcessing ⟨⟨0, 0⟩, ⟨0, 2⟩⟩ = some (some ⟨⟨0, 0⟩, ⟨0, 1⟩⟩) ∧
        t.textFrom 0 3 = ['a', '.', ')'] ∧ t.charNo 1 = '.' ∧ t.dims.index ⟨0, 1⟩ = 1 :=
      ⟨_, .step (.step (.step .refl (a := .handler (.input 'a')) trivial rfl)
        (a := .handler (.input '.')) trivial rfl) (a := .handler (.input ')')) trivial rfl,
        rfl, rfl, rfl, rfl⟩
    obtain ⟨t, hrun, hresult, htext, hchar, hindex⟩ := hdot
    refine ⟨t, hrun, hresult, htext, fun htrimmed => ?_⟩
    obtain ⟨e, -, -, hm, -, hdelim⟩ := htrimmed.of_eq hresult _ rfl
    obtain rfl : e = 1 := by
      have hstop := congrArg (fun m : RegexMatch => t.dims.index m.stop) hm
      simpa only [Dimensions.index_point, hindex] using hstop.symm
    rw [hchar] at hdelim
    exact absurd hdelim (by decide)
  · have hbracket : ∃ t, Reachable .fullwidth .initial 1 4 t ∧
        t.hintPostProcessing ⟨⟨0, 0⟩, ⟨0, 0⟩⟩ = some (some ⟨⟨0, 0⟩, ⟨0, 0⟩⟩) ∧
        t.textFrom 0 1 = [')'] :=
      ⟨_, .step .refl (a := .handler (.input ')')) trivial rfl, rfl, rfl⟩
    obtain ⟨t, hrun, hresult, htext⟩ := hbracket
    refine ⟨t, hrun, hresult, htext, fun htrimmed => ?_⟩
    obtain ⟨e, -, he, -, hbalanced, -⟩ := htrimmed.of_eq hresult _ rfl
    obtain rfl := Nat.le_zero.mp he
    rw [htext, balanced_iff] at hbalanced
    exact absurd hbalanced (by decide)

end Term
end Velacritty
