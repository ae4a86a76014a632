import Velacritty.Brackets
import Velacritty.CellOrder
import Velacritty.TermSteps

/-! The bracket that a search from another one finds. -/
namespace Velacritty
open Fallible

namespace Dimensions

/-- The cells that are passed on the way from one to another one. -/
def between (d : Dimensions) (p q : Point) : List Point :=
  if p < q then (List.range' (d.index p + 1) (d.index q - d.index p - 1)).map d.point
  else (List.range' (d.index q + 1) (d.index p - d.index q - 1)).reverse.map d.point

theorem between_reverse (d : Dimensions) {p q : Point} (h : p < q) :
    d.between q p = (d.between p q).reverse := by
  have hnot : ¬ q < p := by
    rw [Point.lt_def] at h ⊢
    omega
  rw [between, between, if_pos h, if_neg hnot, List.map_reverse]

end Dimensions

namespace Term
variable {t : Term} {p q : Point} {i d e : Nat} {forward : Bool} {start stop : Char}

def charAt (t : Term) (p : Point) : Option Char := (t.grid.cellAt p).map (·.c)

/-- The text on the way from one cell to another one. -/
def textBetween (t : Term) (p q : Point) : List Char := (t.dims.between p q).filterMap t.charAt

/-- The brackets of two cells are a pair: the second one closes the first one, in the direction
that the first one opens to. -/
def Partner (t : Term) (p q : Point) : Prop :=
  t.InGrid q ∧ ∃ start stop forward, t.charAt p = some start ∧ t.charAt q = some stop ∧
    bracketPartner start = some (forward, stop) ∧ (if forward then p < q else q < p) ∧
    Balances start stop (t.textBetween p q)

theorem bracketPartner_pair {pair : Char × Char} (h : pair ∈ bracketPairs) :
    bracketPartner pair.1 = some (true, pair.2) ∧ bracketPartner pair.2 = some (false, pair.1) ∧
      pair.1 ≠ pair.2 := by
  simp only [bracketPairs, List.mem_cons, List.not_mem_nil, or_false] at h
  rcases h with rfl | rfl | rfl | rfl <;> exact ⟨rfl, rfl, by decide⟩

theorem bracketPartner_symm (h : bracketPartner start = some (forward, stop)) :
    bracketPartner stop = some (!forward, start) ∧ start ≠ stop := by
  obtain ⟨⟨opening, closing⟩, hmem, hpair⟩ := List.exists_of_findSome?_eq_some h
  obtain ⟨hopening, hclosing, hne⟩ := bracketPartner_pair hmem
  simp only at hpair
  split at hpair
  · next heq =>
      obtain ⟨rfl, rfl⟩ := Prod.mk.inj (Option.some.inj hpair)
      exact ⟨heq ▸ hclosing, heq ▸ hne⟩
  · split at hpair
    · next heq =>
        obtain ⟨rfl, rfl⟩ := Prod.mk.inj (Option.some.inj hpair)
        exact ⟨heq ▸ hopening, heq ▸ hne.symm⟩
    · cases hpair

/-! ### The way ahead -/

/-- The cell after a number of steps. -/
def ahead (forward : Bool) (i d : Nat) : Nat := if forward then i + d else i - d

/-- How many steps there are to the end of the grid. -/
def room (t : Term) (forward : Bool) (i : Nat) : Nat := if forward then t.dims.cells - 1 - i else i

/-- The characters behind the first one, after a number of steps. -/
def scanned (t : Term) (forward : Bool) (i d : Nat) : List Char :=
  (List.range d).filterMap fun e => t.charAt (t.dims.point (ahead forward i (e + 1)))

theorem ahead_lt (hi : i < t.dims.cells) (hd : d ≤ t.room forward i) :
    ahead forward i d < t.dims.cells := by
  unfold ahead
  unfold room at hd
  split at hd <;> simp_all <;> omega

/-- A step of the search, to the next cell or at the end of the grid. -/
theorem move_eq (h : t.grid.WF) (hi : i < t.dims.cells) (hd : d ≤ t.room forward i) :
    (if forward then (t.grid.iterFrom (t.dims.point (ahead forward i d))).next
      else (t.grid.iterFrom (t.dims.point (ahead forward i d))).prev) =
    if d < t.room forward i then (t.grid.cellNo (ahead forward i (d + 1))).map fun cell =>
      (some (t.dims.point (ahead forward i (d + 1)), cell),
        t.grid.iterFrom (t.dims.point (ahead forward i (d + 1))))
    else some (none, t.grid.iterFrom (t.dims.point (ahead forward i d))) := by
  have hlt := ahead_lt hi hd
  cases forward with
  | true =>
      have hd : d ≤ t.dims.cells - 1 - i := hd
      have hroom : d < t.room true i ↔ i + d + 1 < t.dims.cells := by
        change d < t.dims.cells - 1 - i ↔ _
        omega
      rw [if_pos rfl]
      simp only [hroom]
      exact Grid.iterFrom_next h hlt
  | false =>
      have hd : d ≤ i := hd
      have hroom : d < t.room false i ↔ 0 < i - d := by
        change d < i ↔ _
        omega
      rw [if_neg Bool.false_ne_true]
      simp only [hroom]
      exact Grid.iterFrom_prev h hlt

theorem textBetween_ahead (h : t.grid.WF) (hi : i < t.dims.cells) (hd : d < t.room forward i) :
    t.textBetween (t.dims.point i) (t.dims.point (ahead forward i (d + 1))) = t.scanned forward i d := by
  have hlt : ahead forward i (d + 1) < t.dims.cells := ahead_lt hi hd
  have hbefore : t.dims.point i < t.dims.point (ahead forward i (d + 1)) ↔ i < ahead forward i (d + 1) :=
    Dimensions.point_lt_iff h.valid hi hlt
  unfold textBetween Dimensions.between scanned
  rw [Dimensions.index_point, Dimensions.index_point]
  cases forward with
  | true =>
      have hnext : ahead true i (d + 1) = i + (d + 1) := rfl
      have hcount : i + (d + 1) - i - 1 = d := by omega
      rw [if_pos (hbefore.mpr (by omega)), hnext, hcount, List.range'_eq_map_range, List.map_map,
        List.filterMap_map]
      refine List.filterMap_congr fun e _ => ?_
      have hcell : i + 1 + e = ahead true i (e + 1) := by
        change i + 1 + e = i + (e + 1)
        omega
      rw [← hcell]
      rfl
  | false =>
      have hd : d < i := hd
      have hnext : ahead false i (d + 1) = i - (d + 1) := rfl
      have hcount : i - (i - (d + 1)) - 1 = d := by omega
      rw [if_neg fun hlt => absurd (hbefore.mp hlt) (by omega), hnext, hcount, List.reverse_range',
        List.map_map, List.filterMap_map]
      refine List.filterMap_congr fun e he => ?_
      have he := List.mem_range.mp he
      have hcell : i - (d + 1) + 1 + d - 1 - e = ahead false i (e + 1) := by
        change _ = i - (e + 1)
        omega
      rw [← hcell]
      rfl

theorem charAt_ahead (h : t.grid.WF) (hi : i < t.dims.cells) (hd : d ≤ t.room forward i) :
    ∃ cell, t.grid.cellNo (ahead forward i d) = some cell ∧
      t.charAt (t.dims.point (ahead forward i d)) = some cell.c := by
  obtain ⟨cell, hcell⟩ := Grid.cellNo_isSome h (ahead_lt hi hd)
  exact ⟨cell, hcell, congrArg (Option.map Cell.c) hcell⟩

theorem scanned_succ {c : Char} (hc : t.charAt (t.dims.point (ahead forward i (d + 1))) = some c) :
    t.scanned forward i (d + 1) = t.scanned forward i d ++ [c] := by
  simp only [scanned, List.range_succ, List.filterMap_append, List.filterMap_cons, hc,
    List.filterMap_nil]

theorem scanned_le (hed : e ≤ d) : t.scanned forward i e <+: t.scanned forward i d := by
  obtain ⟨k, rfl⟩ := Nat.exists_eq_add_of_le hed
  rw [scanned, scanned, List.range_add, List.filterMap_append]
  exact List.prefix_append _ _

/-- The partner of a bracket, by the number of steps before it. -/
def PartnerAt (t : Term) (forward : Bool) (start stop : Char) (i d : Nat) : Prop :=
  d < t.room forward i ∧ t.charAt (t.dims.point (ahead forward i (d + 1))) = some stop ∧
    Balances start stop (t.scanned forward i d)

/-- Behind the partner, a bracket was closed that the scan did not open. -/
theorem PartnerAt.not_closes (hp : t.PartnerAt forward start stop i e) (hne : start ≠ stop)
    (hed : e < d) : ¬ Closes start stop 0 (t.scanned forward i d) := by
  intro hcloses
  obtain ⟨-, hstop, hbalances⟩ := hp
  refine hbalances.not_closes hne ?_
  rw [← scanned_succ hstop]
  exact fun p hp => hcloses p (hp.trans (scanned_le hed))

theorem PartnerAt.unique (hp : t.PartnerAt forward start stop i d)
    (hp' : t.PartnerAt forward start stop i e) (hne : start ≠ stop) : d = e := by
  rcases Nat.lt_trichotomy d e with hlt | heq | hgt
  · exact absurd hp'.2.2.1 (hp.not_closes hne hlt)
  · exact heq
  · exact absurd hp.2.2.1 (hp'.not_closes hne hgt)

/-- How far it is at most to the end of the grid. -/
def remaining (t : Term) (forward : Bool) (p : Point) : Nat :=
  if forward then t.dims.cells - t.dims.index p else t.dims.index p

theorem remaining_ahead (hd : d < t.room forward i) :
    t.remaining forward (t.dims.point (ahead forward i (d + 1))) <
      t.remaining forward (t.dims.point (ahead forward i d)) := by
  unfold remaining
  rw [Dimensions.index_point, Dimensions.index_point]
  unfold room at hd
  unfold ahead
  split <;> simp_all <;> omega

/-- A search is at a cell ahead, and has counted the brackets that are open there. -/
def Searched (t : Term) (forward : Bool) (start stop : Char) (i : Nat) (s : GridIterator Cell × Nat) :
    Prop :=
  ∃ d ≤ t.room forward i, s.1 = t.grid.iterFrom (t.dims.point (ahead forward i d)) ∧
    Nests start stop s.2 (t.scanned forward i d)

theorem bracketSearch_partnerAt (h : t.grid.WF) (hi : i < t.dims.cells)
    (hstart : t.charAt (t.dims.point i) = some start)
    (hpair : bracketPartner start = some (forward, stop)) :
    Returns (t.bracketSearch (t.dims.point i)) fun r =>
      r = none ∧ (∀ d, ¬ t.PartnerAt forward start stop i d) ∨ ∃ d,
        t.PartnerAt forward start stop i d ∧ r = some (t.dims.point (ahead forward i (d + 1))) := by
  obtain ⟨cell, hcell, rfl⟩ := Option.map_eq_some_iff.mp hstart
  have hne := (bracketPartner_symm hpair).2
  have hfirst : t.dims.point (ahead forward i 0) = t.dims.point i := by
    unfold ahead
    split <;> rfl
  unfold bracketSearch
  rw [hcell]
  simp only [Option.bind_eq_bind, Option.bind_some, hpair]
  refine loop_returns (fun s => t.remaining forward s.1.point) (P := t.Searched forward cell.c stop i)
    ⟨0, Nat.zero_le _, by rw [hfirst], nests_nil⟩ ?_ ?_
  · simp only [Grid.iterFrom, remaining, Dimensions.index_point, searchFuel_eq]
    split <;> omega
  · rintro ⟨it, skipPairs⟩ ⟨d, hd, heq, hnests⟩
    simp only at heq hnests
    subst heq
    simp only
    rw [move_eq h hi hd]
    by_cases hnext : d < t.room forward i
    · obtain ⟨next, hnextCell, hchar⟩ := charAt_ahead h hi hnext
      rw [if_pos hnext, hnextCell]
      simp only [Option.map_some, Option.bind_some]
      -- The search goes on with the brackets that are open behind the next cell.
      have hgo {skip : Nat} (hskip : Nests cell.c stop skip (t.scanned forward i d ++ [next.c])) :
          t.Searched forward cell.c stop i
            (t.grid.iterFrom (t.dims.point (ahead forward i (d + 1))), skip) :=
        ⟨d + 1, hnext, rfl, (scanned_succ hchar).symm ▸ hskip⟩
      split
      · next hfound =>
          rw [hfound.2] at hnests
          exact .pure (.inr ⟨d, ⟨hnext, hfound.1 ▸ hchar, hnests.balances⟩, rfl⟩)
      · next hgoes =>
          split
          · next hopen => exact .pure ⟨hgo (hopen.symm ▸ hnests.opens hne), remaining_ahead hnext⟩
          · next hnot =>
              split
              · next hclose =>
                  have hpos : skipPairs = skipPairs - 1 + 1 :=
                    (Nat.succ_pred_eq_of_ne_zero fun hzero => hgoes ⟨hclose, hzero⟩).symm
                  rw [hpos] at hnests
                  exact .pure ⟨hgo (hclose.symm ▸ hnests.closes hne), remaining_ahead hnext⟩
              · next hother => exact .pure ⟨hgo (hnests.other hnot hother), remaining_ahead hnext⟩
    · rw [if_neg hnext]
      refine .pure (.inl ⟨rfl, fun e he => ?_⟩)
      exact he.not_closes hne (Nat.lt_of_lt_of_le he.1 (Nat.le_of_not_lt hnext)) hnests.1

/-! ### Partners -/

theorem partner_iff (h : t.grid.WF) (hi : i < t.dims.cells)
    (hstart : t.charAt (t.dims.point i) = some start)
    (hpair : bracketPartner start = some (forward, stop)) : t.Partner (t.dims.point i) q ↔
      ∃ d, t.PartnerAt forward start stop i d ∧ q = t.dims.point (ahead forward i (d + 1)) := by
  constructor
  · rintro ⟨hq, start', stop', forward', hstart', hstop, hpair', hside, hbalances⟩
    obtain rfl := Option.some.inj (hstart.symm.trans hstart')
    obtain ⟨rfl, rfl⟩ := Prod.mk.inj (Option.some.inj (hpair.symm.trans hpair'))
    obtain ⟨j, hj, rfl⟩ := InGrid.exists_index h hq
    have hlt : (if forward then i < j else j < i) := by
      cases forward with
      | true => exact (Dimensions.point_lt_iff h.valid hi hj).mp hside
      | false => exact (Dimensions.point_lt_iff h.valid hj hi).mp hside
    obtain ⟨d, hd, rfl⟩ : ∃ d < t.room forward i, j = ahead forward i (d + 1) := by
      unfold room ahead
      cases forward with
      | true =>
          have hlt : i < j := hlt
          exact ⟨j - i - 1, by simp only [if_true]; omega, by simp only [if_true]; omega⟩
      | false =>
          have hlt : j < i := hlt
          refine ⟨i - j - 1, ?_, ?_⟩
          · simp only [Bool.false_eq_true, if_false]
            omega
          · simp only [Bool.false_eq_true, if_false]
            omega
    rw [textBetween_ahead h hi hd] at hbalances
    exact ⟨d, ⟨hd, hstop, hbalances⟩, rfl⟩
  · rintro ⟨d, ⟨hd, hstop, hbalances⟩, rfl⟩
    have hlt : ahead forward i (d + 1) < t.dims.cells := ahead_lt hi hd
    refine ⟨Dimensions.point_has h.valid hlt, start, stop, forward, hstart, hstop, hpair, ?_, ?_⟩
    · unfold ahead room at *
      cases forward with
      | true => exact (Dimensions.point_lt_iff h.valid hi hlt).mpr (by simp only [if_true]; omega)
      | false =>
          have hd : d < i := hd
          refine (Dimensions.point_lt_iff h.valid hlt hi).mpr ?_
          simp only [Bool.false_eq_true, if_false]
          omega
    · rw [textBetween_ahead h hi hd]
      exact hbalances

theorem Partner.symm (hp : t.InGrid p) (hpq : t.Partner p q) : t.Partner q p := by
  obtain ⟨-, start, stop, forward, hstart, hstop, hpair, hside, hbalances⟩ := hpq
  refine ⟨hp, stop, start, !forward, hstop, hstart, (bracketPartner_symm hpair).1, ?_, ?_⟩
  · cases forward with
    | true => exact hside
    | false => exact hside
  · have hreverse : t.textBetween q p = (t.textBetween p q).reverse := by
      unfold textBetween
      cases forward with
      | true => rw [Dimensions.between_reverse _ hside, List.filterMap_reverse]
      | false => rw [Dimensions.between_reverse _ hside, List.filterMap_reverse, List.reverse_reverse]
    rw [hreverse]
    exact hbalances.reverse

theorem Partner.unique (h : t.grid.WF) (hp : t.InGrid p) {q q' : Point} (hpq : t.Partner p q)
    (hpq' : t.Partner p q') : q = q' := by
  obtain ⟨i, hi, rfl⟩ := InGrid.exists_index h hp
  obtain ⟨-, start, stop, forward, hstart, -, hpair, -⟩ := id hpq
  obtain ⟨d, hd, rfl⟩ := (partner_iff h hi hstart hpair).mp hpq
  obtain ⟨e, he, rfl⟩ := (partner_iff h hi hstart hpair).mp hpq'
  rw [hd.unique he (bracketPartner_symm hpair).2]

theorem bracketSearch_spec (h : t.grid.WF) (hp : t.InGrid p) :
    Returns (t.bracketSearch p) fun r => ∀ q, r = some q ↔ t.Partner p q := by
  obtain ⟨i, hi, rfl⟩ := InGrid.exists_index h hp
  obtain ⟨cell, hcell⟩ := Grid.cellNo_isSome h hi
  have hchar : t.charAt (t.dims.point i) = some cell.c := congrArg (Option.map Cell.c) hcell
  cases hpair : bracketPartner cell.c with
  | none =>
      have hget : t.grid.cellAt (t.dims.point i) = some cell := hcell
      unfold bracketSearch
      rw [hget]
      simp only [Option.bind_eq_bind, Option.bind_some, hpair]
      refine .pure fun q => iff_of_false (fun hq => by cases hq) ?_
      rintro ⟨-, start, stop, forward, hstart, -, hpair', -⟩
      obtain rfl := Option.some.inj (hchar.symm.trans hstart)
      cases hpair.symm.trans hpair'
  | some found =>
      obtain ⟨forward, stop⟩ := found
      refine (bracketSearch_partnerAt h hi hchar hpair).mono fun r hr q => ?_
      rw [partner_iff h hi hchar hpair]
      rcases hr with ⟨rfl, hnone⟩ | ⟨d, hd, rfl⟩
      · exact iff_of_false (fun hq => by cases hq) fun ⟨d, hd, _⟩ => hnone d hd
      · constructor
        · intro hq
          exact ⟨d, hd, (Option.some.inj hq).symm⟩
        · rintro ⟨e, he, rfl⟩
          rw [hd.unique he (bracketPartner_symm hpair).2]

/-- A search for a bracket finds the one partner that it has, whose partner it is, or nothing if
there is none. -/
theorem bracketSearch_involutive (h : t.grid.WF) (hp : t.InGrid p) :
    Returns (t.bracketSearch p) fun r =>
      (∀ q, r = some q → t.Partner p q ∧ (∀ q', t.Partner p q' → q' = q) ∧
        t.bracketSearch q = some (some p)) ∧
      (r = none ↔ (t.charAt p).bind bracketPartner = none ∨ ∀ q, ¬ t.Partner p q) := by
  refine (bracketSearch_spec h hp).mono fun r hr => ⟨fun q hq => ?_, ?_⟩
  · have hpq := (hr q).mp hq
    obtain ⟨back, hsearch, hback⟩ := bracketSearch_spec h hpq.1
    refine ⟨hpq, fun q' hpq' => hpq'.unique h hp hpq, ?_⟩
    rw [hsearch, (hback p).mpr (hpq.symm hp)]
  · constructor
    · rintro rfl
      exact .inr fun q hpq => by cases (hr q).mpr hpq
    · intro hnone
      cases r with
      | none => rfl
      | some q =>
          have hpq := (hr q).mp rfl
          obtain ⟨-, start, stop, forward, hstart, -, hpair, -⟩ := id hpq
          rcases hnone with hnone | hnone
          · rw [hstart, Option.bind_some, hpair] at hnone
            cases hnone
          · exact absurd hpq (hnone q)

/-- The search for the partner of an outer bracket goes past the inner ones. -/
theorem bracketSearch_involutive_nested : ∃ t, Reachable .fullwidth .initial 1 4 t ∧
    t.textBetween ⟨0, 0⟩ ⟨0, 3⟩ = ['(', ')'] ∧ t.Partner ⟨0, 0⟩ ⟨0, 3⟩ ∧
    t.bracketSearch ⟨0, 0⟩ = some (some ⟨0, 3⟩) ∧ t.bracketSearch ⟨0, 3⟩ = some (some ⟨0, 0⟩) := by
  have hnested : ∃ t, Reachable .fullwidth .initial 1 4 t ∧ t.InGrid ⟨0, 0⟩ ∧
      t.textBetween ⟨0, 0⟩ ⟨0, 3⟩ = ['(', ')'] ∧ t.bracketSearch ⟨0, 0⟩ = some (some ⟨0, 3⟩) :=
    ⟨_, .step (.step (.step (.step .refl (a := .handler (.input '(')) trivial rfl)
      (a := .handler (.input '(')) trivial rfl) (a := .handler (.input ')')) trivial rfl)
      (a := .handler (.input ')')) trivial rfl, ⟨by decide, by decide, by decide⟩, rfl, rfl⟩
  obtain ⟨t, hrun, hp, htext, hsearch⟩ := hnested
  have ht := hrun.wf (by decide) (by decide)
  obtain ⟨hpartner, -, hback⟩ := ((bracketSearch_involutive ht.grid hp).of_eq hsearch).1 _ rfl
  exact ⟨t, hrun, htext, hpartner, hsearch, hback⟩

end Term
end Velacritty
