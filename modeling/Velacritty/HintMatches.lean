import Velacritty.HintTrimming
import Velacritty.Iterators

/-! The matches that post-processing makes of a hint's match. -/
namespace Velacritty
open Fallible

/-- Iterator over all post-processed matches inside an existing hint match. -/
structure HintPostProcessor where
  /-- Next hint match in the iterator. -/
  nextMatch : Option RegexMatch
  /-- Start point for the next search. -/
  start : Point
  /-- End point for the hint match iterator. -/
  stop : Point
  deriving DecidableEq, Repr

namespace HintPostProcessor

/-- Loop over submatches until a non-empty post-processed match is found. -/
def nextProcessedMatch (t : Term) (search : SearchRight) (fuel : Nat) (p : HintPostProcessor)
    (m : RegexMatch) : Option HintPostProcessor :=
  Fallible.loop (fun ((p, m) : HintPostProcessor × RegexMatch) => do
    match ← t.hintPostProcessing m with
    | some nextMatch =>
        some (.inl { p with
          nextMatch := some nextMatch
          start := nextMatch.stop.add t.dims .grid 1 })
    | none =>
        let p := { p with start := m.start.add t.dims .grid 1 }
        if p.stop < p.start then some (.inl p)
        else match search p.start p.stop with
          | some m => some (.inr (p, m))
          | none => some (.inl p)) fuel (p, m)

/-- Create a new iterator for an unprocessed match. -/
def new (t : Term) (search : SearchRight) (fuel : Nat) (m : RegexMatch) : Option HintPostProcessor :=
  nextProcessedMatch t search fuel ⟨none, m.start, m.stop⟩ m

/-- `Iterator::next`. -/
def next (t : Term) (search : SearchRight) (fuel : Nat) (p : HintPostProcessor) :
    Option (Option RegexMatch × HintPostProcessor) :=
  match p.nextMatch with
  | none => some (none, p)
  | some nextMatch => do
      let p := { p with nextMatch := none }
      let p ← (if p.start ≤ p.stop then
          match search p.start p.stop with
          | some m => nextProcessedMatch t search fuel p m
          | none => some p
        else some p)
      some (some nextMatch, p)

end HintPostProcessor

namespace Term
variable {t : Term} {x y : Nat}

/-- Post-processing makes a match shorter, or leaves nothing of it. -/
theorem hintPostProcessing_returns (ht : t.WF) (hxy : x ≤ y) (hy : y < t.dims.cells) :
    Returns (t.hintPostProcessing ⟨t.dims.point x, t.dims.point y⟩) fun r =>
      r = none ∨ ∃ e, x ≤ e ∧ e ≤ y ∧ r = some ⟨t.dims.point x, t.dims.point e⟩ := by
  apply (hintPostProcessing_spec ht hxy hy).mono
  rintro r (⟨k, hky, hk, rfl⟩ | ⟨-, e, hxe, hey, -, rfl⟩)
  · have hxk := hk.1
    split
    · exact .inl rfl
    · exact .inr ⟨k - 1, by omega, by omega, rfl⟩
  · exact .inr ⟨e, hxe, hey, rfl⟩

end Term

namespace HintPostProcessor
variable {t : Term} {search : SearchRight} {p : HintPostProcessor} {fuel x y b : Nat}

/-- The search finds cells of the grid in the range that is searched. -/
def Within (t : Term) (search : SearchRight) : Prop :=
  ∀ i j m, i ≤ j → j < t.dims.cells → search (t.dims.point i) (t.dims.point j) = some m →
    ∃ x y, i ≤ x ∧ x ≤ y ∧ y ≤ j ∧ m = ⟨t.dims.point x, t.dims.point y⟩

/-- The next match is one of cells before the end, and the next search starts after it, or on the
last cell. -/
def Ready (t : Term) (b : Nat) (p : HintPostProcessor) : Prop :=
  p.stop = t.dims.point b ∧ ∀ m, p.nextMatch = some m → ∃ x e, x ≤ e ∧ e ≤ b ∧
    m = ⟨t.dims.point x, t.dims.point e⟩ ∧ p.start = t.dims.point (min (e + 1) (t.dims.cells - 1))

/-- The match does not end on the last cell, or is not found there again. -/
def Leaves (t : Term) (search : SearchRight) (b : Nat) : Prop :=
  b + 1 < t.dims.cells ∨
    search (t.dims.point (t.dims.cells - 1)) (t.dims.point (t.dims.cells - 1)) = none

theorem nextProcessedMatch_returns (ht : t.WF) (hw : Within t search) (hb : b < t.dims.cells)
    (hleaves : Leaves t search b) (hxy : x ≤ y) (hyb : y ≤ b) (hp : p.stop = t.dims.point b)
    (hnone : p.nextMatch = none) (hfuel : t.dims.cells < fuel) :
    Returns (nextProcessedMatch t search fuel p ⟨t.dims.point x, t.dims.point y⟩) fun p' =>
      Ready t b p' ∧ ∀ m, p'.nextMatch = some m → x ≤ t.dims.index m.start := by
  have hvalid : t.dims.Valid := ht.grid.valid
  have hx : x < t.dims.cells := by omega
  refine loop_returns (fun s => t.dims.cells - t.dims.index s.2.start)
    (P := fun s : HintPostProcessor × RegexMatch => s.1.stop = t.dims.point b ∧
      s.1.nextMatch = none ∧ ∃ x' y', x ≤ x' ∧ x' ≤ y' ∧ y' ≤ b ∧
        s.2 = ⟨t.dims.point x', t.dims.point y'⟩) ⟨hp, hnone, x, y, Nat.le_refl x, hxy, hyb, rfl⟩ ?_ ?_
  · simp only [Dimensions.index_point]
    omega
  · rintro ⟨p, m⟩ ⟨hstop, hnone, x', y', hxx', hxy', hyb', rfl⟩
    have hstop : p.stop = t.dims.point b := hstop
    have hnone : p.nextMatch = none := hnone
    refine (Term.hintPostProcessing_returns ht hxy' (by omega)).bind fun r hr => ?_
    rcases hr with rfl | ⟨e, hxe, hey, rfl⟩
    · simp only
      rw [Dimensions.add_grid hvalid]
      split
      · refine .pure ⟨⟨hstop, fun m hm => ?_⟩, fun m hm => ?_⟩
        · exact nomatch hnone.symm.trans hm
        · exact nomatch hnone.symm.trans hm
      · next hle =>
          rw [hstop, Dimensions.point_lt_iff hvalid hb (by omega)] at hle
          simp only [hstop]
          cases hsearch : search (t.dims.point (min (x' + 1) (t.dims.cells - 1))) (t.dims.point b) with
          | none =>
              refine .pure ⟨⟨rfl, fun m hm => ?_⟩, fun m hm => ?_⟩
              · exact nomatch hnone.symm.trans hm
              · exact nomatch hnone.symm.trans hm
          | some m =>
              obtain ⟨x'', y'', hle', hxy'', hyb'', rfl⟩ := hw _ _ m (by omega) hb hsearch
              -- the search was not from the last cell again
              have hlt : x' + 1 < t.dims.cells := by
                refine Nat.lt_of_le_of_ne (by omega) fun heq => ?_
                have hmin : min (x' + 1) (t.dims.cells - 1) = t.dims.cells - 1 := by omega
                have hlast : b = t.dims.cells - 1 := by omega
                rw [hmin, hlast] at hsearch
                rcases hleaves with hb' | hno
                · omega
                · exact nomatch hno.symm.trans hsearch
              refine .pure ⟨⟨rfl, hnone, x'', y'', by omega, hxy'', hyb'', rfl⟩, ?_⟩
              simp only [Dimensions.index_point]
              omega
    · simp only
      rw [Dimensions.add_grid hvalid]
      refine .pure ⟨⟨hstop, fun m hm => ?_⟩, fun m hm => ?_⟩
      · obtain rfl := Option.some.inj hm
        exact ⟨x', e, hxe, by omega, rfl, rfl⟩
      · obtain rfl := Option.some.inj hm
        rw [Dimensions.index_point]
        exact hxx'

/-- The iterator ends, and its matches are parts of the original one, in order without overlap. -/
def Processes (t : Term) (search : SearchRight) (m : RegexMatch) : Prop :=
  ∃ fuel p items stop, new t search fuel m = some p ∧ Iterates (next t search fuel) p items stop ∧
    (∀ x ∈ items, m.start ≤ x.2.start ∧ x.2.start ≤ x.2.stop ∧ x.2.stop ≤ m.stop) ∧
    items.Pairwise fun x y => x.2.stop < y.2.start

/-- The number of cells before the next match. -/
def low (t : Term) (b : Nat) (p : HintPostProcessor) : Nat :=
  (p.nextMatch.map fun m => t.dims.index m.start).getD (b + 1)

theorem next_returns (ht : t.WF) (hw : Within t search) (hb : b < t.dims.cells)
    (hleaves : Leaves t search b) (hfuel : t.dims.cells < fuel) (hp : Ready t b p) :
    Returns (next t search fuel p) fun r => ∀ m, r.1 = some m → Ready t b r.2 ∧
      (∃ x e, x ≤ e ∧ e ≤ b ∧ m = ⟨t.dims.point x, t.dims.point e⟩) ∧
      Advances (low t b) (fun m : RegexMatch => t.dims.index m.start)
        (fun m => t.dims.index m.stop) b p m r.2 := by
  have hvalid : t.dims.Valid := ht.grid.valid
  obtain ⟨hstop, hmatch⟩ := hp
  unfold next
  cases hnext : p.nextMatch with
  | none => exact .pure fun m hm => nomatch hm
  | some m =>
      obtain ⟨x, e, hxe, heb, rfl, hstart⟩ := hmatch m hnext
      have hlow : low t b p = x := by
        unfold low
        rw [hnext, Option.map_some, Option.getD_some, Dimensions.index_point]
      have hgo : Returns (if p.start ≤ p.stop then
          match search p.start p.stop with
          | some m => nextProcessedMatch t search fuel { p with nextMatch := none } m
          | none => some { p with nextMatch := none }
        else some { p with nextMatch := none }) fun p' => Ready t b p' ∧ e < low t b p' := by
        have hend : Ready t b { p with nextMatch := none } ∧ e < low t b { p with nextMatch := none } :=
          ⟨⟨hstop, fun m hm => nomatch hm⟩, Nat.lt_succ_of_le heb⟩
        split
        · next hle =>
            rw [hstart, hstop, Dimensions.point_le_iff hvalid (by omega) hb] at hle
            cases hsearch : search p.start p.stop with
            | none => exact .pure hend
            | some m =>
                rw [hstart, hstop] at hsearch
                obtain ⟨x', y', hle', hxy', hyb', rfl⟩ := hw _ _ m hle hb hsearch
                have hlt : e + 1 < t.dims.cells := by
                  refine Nat.lt_of_le_of_ne (by omega) fun heq => ?_
                  have hmin : min (e + 1) (t.dims.cells - 1) = t.dims.cells - 1 := by omega
                  have hlast : b = t.dims.cells - 1 := by omega
                  rw [hmin, hlast] at hsearch
                  rcases hleaves with hb' | hno
                  · omega
                  · exact nomatch hno.symm.trans hsearch
                refine (nextProcessedMatch_returns ht hw hb hleaves hxy' hyb'
                  (p := { p with nextMatch := none }) hstop rfl hfuel).mono
                  fun p' ⟨hready, hlow'⟩ => ⟨hready, ?_⟩
                unfold low
                cases hnext' : p'.nextMatch with
                | none => exact Nat.lt_succ_of_le heb
                | some m' =>
                    have hge := hlow' m' hnext'
                    simp only [Option.map_some, Option.getD_some]
                    omega
        · exact .pure hend
      refine hgo.bind fun p' ⟨hready, hlt⟩ => .pure fun m hm => ⟨hready, ?_⟩
      obtain rfl := Option.some.inj hm
      refine ⟨⟨x, e, hxe, heb, rfl⟩, ?_, ?_, ?_, ?_⟩
      · simp only [hlow, Dimensions.index_point]
        exact Nat.le_refl x
      · simp only [Dimensions.index_point]
        exact hxe
      · simp only [Dimensions.index_point]
        omega
      · simp only [Dimensions.index_point]
        exact hlt

/-- If the search cannot find the last cell again, the matches are processed one after the other. -/
theorem processes_of_leaves (ht : t.WF) (hw : Within t search) {a : Nat} (hab : a ≤ b)
    (hb : b < t.dims.cells) (hleaves : Leaves t search b) :
    Processes t search ⟨t.dims.point a, t.dims.point b⟩ := by
  have hvalid : t.dims.Valid := ht.grid.valid
  obtain ⟨p, hp, hready, hfirst⟩ := nextProcessedMatch_returns ht hw hb hleaves hab (Nat.le_refl b)
    (p := ⟨none, t.dims.point a, t.dims.point b⟩) rfl rfl (Nat.lt_succ_self t.dims.cells)
  obtain ⟨items, stop, hrun, -, -, hitems, hpair⟩ := iterates_ordered (next t search _) (Ready t b)
    (fun _ m => ∃ x e, x ≤ e ∧ e ≤ b ∧ m = ⟨t.dims.point x, t.dims.point e⟩) (low t b)
    (fun m : RegexMatch => t.dims.index m.start) (fun m => t.dims.index m.stop) b hready fun p hp => next_returns ht hw hb hleaves (Nat.lt_succ_self _) hp
  have hlow : a ≤ low t b p := by
    unfold low
    cases hnext : p.nextMatch with
    | none => exact Nat.le_succ_of_le hab
    | some m => exact hfirst m hnext
  refine ⟨_, p, items, stop, hp, hrun, fun x hx => ?_, ?_⟩
  · obtain ⟨-, ⟨i, e, hie, heb, hm⟩, hmono, hstart, -, -⟩ := hitems x hx
    rw [hm, Dimensions.index_point] at hstart
    rw [hm]
    simp only
    rw [Dimensions.point_le_iff hvalid (by omega) (by omega),
      Dimensions.point_le_iff hvalid (by omega) (by omega),
      Dimensions.point_le_iff hvalid (by omega) (by omega)]
    exact ⟨by omega, hie, heb⟩
  · refine hpair.imp_of_mem fun {x y} hx hy h => ?_
    obtain ⟨-, ⟨i, e, hie, heb, hm⟩, -⟩ := hitems x hx
    obtain ⟨-, ⟨i', e', hie', heb', hm'⟩, -⟩ := hitems y hy
    have hlt := h.2
    rw [hm, hm'] at hlt ⊢
    simp only [Dimensions.index_point] at hlt ⊢
    rwa [Dimensions.point_lt_iff hvalid (by omega) (by omega)]

def findsLast (t : Term) : SearchRight := fun _ stop =>
  if stop = t.dims.point (t.dims.cells - 1) then
    some ⟨t.dims.point (t.dims.cells - 1), t.dims.point (t.dims.cells - 1)⟩
  else none

theorem findsLast_within (ht : t.WF) : Within t (findsLast t) := by
  intro i j m hij hj hm
  have hvalid : t.dims.Valid := ht.grid.valid
  unfold findsLast at hm
  split at hm
  · next heq =>
      have hindex := t.dims.point_injective heq
      exact ⟨t.dims.cells - 1, t.dims.cells - 1, by omega, Nat.le_refl _, by omega,
        (Option.some.inj hm).symm⟩
  · exact nomatch hm

/-- The next match is there, and the next search is in a range up to the last cell. -/
def Stuck (t : Term) (p : HintPostProcessor) : Prop :=
  p.nextMatch ≠ none ∧ p.start ≤ p.stop ∧ p.stop = t.dims.point (t.dims.cells - 1)

/-- Post-processing the last cell never ends, or gives it as the next match. -/
theorem nextProcessedMatch_stuck (ht : t.WF) (hp : p.stop = t.dims.point (t.dims.cells - 1))
    (hx : x < t.dims.cells) :
    Allows (nextProcessedMatch t (findsLast t) fuel p
      ⟨t.dims.point x, t.dims.point (t.dims.cells - 1)⟩) (Stuck t) := by
  have hvalid : t.dims.Valid := ht.grid.valid
  have hpos := hvalid.cells_pos
  have hle (k : Nat) : t.dims.point (min (k + 1) (t.dims.cells - 1)) ≤ t.dims.point (t.dims.cells - 1) := by
    rw [Dimensions.point_le_iff hvalid (by omega) (by omega)]
    omega
  refine loop_allows (P := fun s : HintPostProcessor × RegexMatch =>
    s.1.stop = t.dims.point (t.dims.cells - 1) ∧
      ∃ x < t.dims.cells, s.2 = ⟨t.dims.point x, t.dims.point (t.dims.cells - 1)⟩)
    ⟨hp, x, hx, rfl⟩ ?_
  rintro ⟨p, m⟩ ⟨hstop, x', hx', rfl⟩
  have hstop : p.stop = t.dims.point (t.dims.cells - 1) := hstop
  refine (Term.hintPostProcessing_returns ht (by omega) (by omega)).allows.bind fun r hr => ?_
  rcases hr with rfl | ⟨e, hxe, hey, rfl⟩
  · simp only
    rw [Dimensions.add_grid hvalid, hstop]
    split
    · next hlt =>
        rw [Dimensions.point_lt_iff hvalid (by omega) (by omega)] at hlt
        omega
    · have hfound : findsLast t (t.dims.point (min (x' + 1) (t.dims.cells - 1)))
          (t.dims.point (t.dims.cells - 1)) =
            some ⟨t.dims.point (t.dims.cells - 1), t.dims.point (t.dims.cells - 1)⟩ := by
        unfold findsLast
        rw [if_pos rfl]
      simp only [hfound]
      exact .pure ⟨rfl, t.dims.cells - 1, by omega, rfl⟩
  · simp only
    rw [Dimensions.add_grid hvalid]
    exact .pure ⟨fun h => (nomatch h), hstop ▸ hle e, hstop⟩

/-- The next match is always followed by another one. -/
theorem next_stuck (ht : t.WF) (hp : Stuck t p) :
    Allows (next t (findsLast t) fuel p) fun r => r.1 ≠ none ∧ Stuck t r.2 := by
  have hvalid : t.dims.Valid := ht.grid.valid
  have hpos := hvalid.cells_pos
  obtain ⟨hmatch, hle, hstop⟩ := hp
  unfold next
  cases hnext : p.nextMatch with
  | none => exact absurd hnext hmatch
  | some m =>
      simp only
      rw [if_pos hle]
      have hfound : findsLast t p.start p.stop =
          some ⟨t.dims.point (t.dims.cells - 1), t.dims.point (t.dims.cells - 1)⟩ := by
        unfold findsLast
        rw [if_pos hstop]
      rw [hfound]
      refine (nextProcessedMatch_stuck ht (p := { p with nextMatch := none }) hstop
        (show t.dims.cells - 1 < t.dims.cells by omega)).bind fun p' hp' => .pure ⟨?_, hp'⟩
      exact fun h => nomatch h

/-- The last cell is found again and again. -/
theorem not_processes (ht : t.WF) {a : Nat} (ha : a < t.dims.cells) :
    ¬ Processes t (findsLast t) ⟨t.dims.point a, t.dims.point (t.dims.cells - 1)⟩ := by
  rintro ⟨fuel, p, items, stop, hp, hrun, -⟩
  exact hrun.absurd (nextProcessedMatch_stuck ht rfl ha p hp) fun p hp => next_stuck ht hp

/-- If post-processing leaves nothing of the last cell, it is tried again for ever. -/
theorem new_never (ht : t.WF) {last : Point} (hlast : t.dims.point (t.dims.cells - 1) = last)
    (hnothing : t.hintPostProcessing ⟨last, last⟩ = some none) (fuel : Nat) :
    new t (findsLast t) fuel ⟨last, last⟩ = none := by
  subst hlast
  have hvalid : t.dims.Valid := ht.grid.valid
  have hpos := hvalid.cells_pos
  generalize hpoint : t.dims.point (t.dims.cells - 1) = last at hnothing ⊢
  have hadd : last.add t.dims .grid 1 = last := by
    have hmin : min (t.dims.cells - 1 + 1) (t.dims.cells - 1) = t.dims.cells - 1 := by omega
    rw [← hpoint, Dimensions.add_grid hvalid, hmin]
  have hsearch : findsLast t last last = some ⟨last, last⟩ := by
    unfold findsLast
    rw [hpoint, if_pos rfl]
  have hnever : Allows (new t (findsLast t) fuel ⟨last, last⟩) fun _ => False := by
    refine loop_allows (P := fun s => s.1.start = last ∧ s.1.stop = last ∧ s.2 = ⟨last, last⟩)
      ⟨rfl, rfl, rfl⟩ ?_
    rintro ⟨⟨nextMatch, start, stop⟩, m⟩ ⟨hstart, hstop, hm⟩
    simp only at hstart hstop hm
    subst hstart hstop hm
    simp only [hnothing, Option.bind_eq_bind, Option.bind_some, hadd, hsearch]
    rw [if_neg (by rw [Point.lt_def]; omega)]
    exact .pure ⟨rfl, rfl, rfl⟩
  exact Option.eq_none_iff_forall_ne_some.mpr fun p hp => hnever p hp

/-- Whatever the search finds in its range, the matches inside the original one are processed one
after the other, if and only if the original match does not end on the last cell. -/
theorem processes_iff (t : Term) (ht : t.WF) (m : RegexMatch) (hstart : t.InGrid m.start)
    (hstop : t.InGrid m.stop) (hle : m.start ≤ m.stop) :
    (∀ search, Within t search → Processes t search m) ↔
      m.stop ≠ ⟨t.bottommostLine, t.lastColumn⟩ := by
  have hvalid : t.dims.Valid := ht.grid.valid
  obtain ⟨start, stop⟩ := m
  obtain ⟨a, ha, rfl⟩ := Term.InGrid.exists_index ht.grid hstart
  obtain ⟨b, hb, rfl⟩ := Term.InGrid.exists_index ht.grid hstop
  rw [Dimensions.point_le_iff hvalid ha hb] at hle
  constructor
  · intro h heq
    refine not_processes ht ha ?_
    rw [Dimensions.point_last hvalid]
    exact heq ▸ h (findsLast t) (findsLast_within ht)
  · intro hne search hw
    refine processes_of_leaves ht hw hle hb (.inl ?_)
    refine Nat.lt_of_le_of_ne hb fun heq => hne ?_
    have hlast : b = t.dims.cells - 1 := by omega
    rw [hlast]
    exact Dimensions.point_last hvalid

/-- A search that finds the whole of its range. -/
def findsAll : SearchRight := fun start stop => if start ≤ stop then some ⟨start, stop⟩ else none

theorem findsAll_within (t : Term) : Within t findsAll := by
  intro i j m hij hj hm
  unfold findsAll at hm
  split at hm
  · exact ⟨i, j, Nat.le_refl i, hij, Nat.le_refl j, (Option.some.inj hm).symm⟩
  · exact nomatch hm

/-- An unopened bracket splits a match: `ab` and `c` are left of `ab)c`. -/
theorem processes_split : ∃ t, Term.Reachable .ascii .initial 2 4 t ∧
    Processes t findsAll ⟨⟨0, 0⟩, ⟨0, 3⟩⟩ ∧
    ∃ p p' p'', new t findsAll 9 ⟨⟨0, 0⟩, ⟨0, 3⟩⟩ = some p ∧
      next t findsAll 9 p = some (some ⟨⟨0, 0⟩, ⟨0, 1⟩⟩, p') ∧
      next t findsAll 9 p' = some (some ⟨⟨0, 3⟩, ⟨0, 3⟩⟩, p'') := by
  obtain ⟨t, hrun, hstart, hstop, hlast, hitems⟩ : ∃ t, Term.Reachable .ascii .initial 2 4 t ∧
      t.InGrid ⟨0, 0⟩ ∧ t.InGrid ⟨0, 3⟩ ∧ (⟨0, 3⟩ : Point) ≠ ⟨t.bottommostLine, t.lastColumn⟩ ∧
      ∃ p p' p'', new t findsAll 9 ⟨⟨0, 0⟩, ⟨0, 3⟩⟩ = some p ∧
        next t findsAll 9 p = some (some ⟨⟨0, 0⟩, ⟨0, 1⟩⟩, p') ∧
        next t findsAll 9 p' = some (some ⟨⟨0, 3⟩, ⟨0, 3⟩⟩, p'') :=
    ⟨_, .step (.step (.step (.step .refl
      (a := .handler (.input 'a')) trivial rfl)
      (a := .handler (.input 'b')) trivial rfl)
      (a := .handler (.input ')')) trivial rfl)
      (a := .handler (.input 'c')) trivial rfl, ⟨by decide, by decide, by decide⟩,
      ⟨by decide, by decide, by decide⟩, by decide, _, _, _, rfl, rfl, rfl⟩
  exact ⟨t, hrun, (processes_iff t (hrun.wf (by decide) (by decide)) ⟨⟨0, 0⟩, ⟨0, 3⟩⟩ hstart hstop
    (by decide)).mpr hlast findsAll (findsAll_within t), hitems⟩

/-- A closing bracket in the last cell is searched for ever. -/
theorem processes_not_last : ∃ t, Term.Reachable .fullwidth .initial 1 2 t ∧ Within t (findsLast t) ∧
    (∀ fuel, new t (findsLast t) fuel ⟨⟨0, 1⟩, ⟨0, 1⟩⟩ = none) ∧
    ¬ Processes t (findsLast t) ⟨⟨0, 1⟩, ⟨0, 1⟩⟩ := by
  have hbracket : ∃ t, Term.Reachable .fullwidth .initial 1 2 t ∧ t.dims.cells = 2 ∧
      t.dims.point 1 = ⟨0, 1⟩ ∧ t.hintPostProcessing ⟨⟨0, 1⟩, ⟨0, 1⟩⟩ = some none :=
    ⟨_, .step (.step .refl (a := .handler (.input 'a')) trivial rfl)
      (a := .handler (.input ')')) trivial rfl, rfl, rfl, rfl⟩
  obtain ⟨t, hrun, hcells, hpoint, hnothing⟩ := hbracket
  have ht := hrun.wf (by decide) (by decide)
  have hlast : t.dims.point (t.dims.cells - 1) = ⟨0, 1⟩ := by rw [hcells, hpoint]
  refine ⟨t, hrun, findsLast_within ht, new_never ht hlast hnothing, ?_⟩
  exact hlast ▸ not_processes ht (a := t.dims.cells - 1) (by omega)

end HintPostProcessor
end Velacritty
