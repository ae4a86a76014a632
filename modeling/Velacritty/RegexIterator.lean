import Velacritty.CellCycle
import Velacritty.HintMatches

/-! The iterator over regex matches, which starts each search after the last match. -/
namespace Velacritty
open Fallible

/-- A search in a direction, from a point up to and including another one. -/
abbrev RegexSearch := Side → Point → Point → Option RegexMatch

structure RegexIter where
  point : Point
  stop : Point
  direction : Side
  done : Bool
  deriving DecidableEq, Repr

namespace RegexIter

def new (start stop : Point) (direction : Side) : RegexIter := ⟨start, stop, direction, false⟩

/-- Skip one cell, advancing the origin point to the next one. -/
def skip (t : Term) (it : RegexIter) : Option RegexIter := do
  let point ← t.expandWide it.point it.direction
  some { it with
    point := match it.direction with
      | .right => point.add t.dims .none 1
      | .left => point.sub t.dims .none 1 }

def nextMatch (search : RegexSearch) (it : RegexIter) : Option RegexMatch :=
  search it.direction it.point it.stop

/-- `Iterator::next`. -/
def next (t : Term) (search : RegexSearch) (it : RegexIter) :
    Option (Option RegexMatch × RegexIter) :=
  if it.done then some (none, it)
  else
    let it := if it.point = it.stop then { it with done := true } else it
    match it.nextMatch search with
    | none => some (none, it)
    | some m =>
        let it := { it with point := m.stop }
        if it.point = it.stop then some (some m, { it with done := true })
        else do
          let it ← it.skip t
          some (some m, it)

end RegexIter

/-- The cell of a match that a search comes to first. -/
def RegexMatch.near (m : RegexMatch) : Side → Point
  | .right => m.start
  | .left => m.stop

/-- The cell of a match that a search comes to last. -/
def RegexMatch.far (m : RegexMatch) : Side → Point
  | .right => m.stop
  | .left => m.start

namespace Term

/-- The cell is the second half of a wide one. -/
def SpacerAt (t : Term) (p : Point) : Prop :=
  ∃ cell, t.grid.cellAt p = some cell ∧ cell.flags.wideCharSpacer = true

/-- The number of cells from a cell to the one behind its character. -/
def stride (t : Term) (p : Point) (cell : Cell) : Nat :=
  if cell.flags.leadingWideCharSpacer then t.columns - p.column + 2
  else if cell.flags.wideChar && decide (p.column < t.lastColumn) then 2
  else 1

end Term

namespace RegexIter
variable {t : Term} {search : RegexSearch} {start stop : Point} {direction : Side} {it : RegexIter}

/-- The search finds cells from its origin ahead to its end, and maybe the spacer behind it. -/
def Within (t : Term) (search : RegexSearch) (stop : Point) (direction : Side) : Prop :=
  ∀ p m, t.InGrid p → search direction p stop = some m → t.InGrid m.start ∧ t.InGrid m.stop ∧
    t.dims.ahead direction p (m.near direction) ≤ t.dims.ahead direction p (m.far direction) ∧
    t.dims.ahead direction p (m.near direction) ≤ t.dims.ahead direction p stop ∧
    (t.dims.ahead direction p (m.far direction) ≤ t.dims.ahead direction p stop ∨
      t.dims.ahead direction p (m.far direction) = t.dims.ahead direction p stop + 1 ∧
        t.SpacerAt (m.far direction))

/-- The iterator ends, its matches follow each other from the start without overlap, and no search
starts beyond the end. -/
def Ordered (t : Term) (search : RegexSearch) (start stop : Point) (direction : Side) : Prop :=
  ∃ items last, Iterates (next t search) (new start stop direction) items last ∧
    (∀ x ∈ items, t.dims.ahead direction start x.1.point ≤ t.dims.ahead direction start stop ∧
      t.dims.ahead direction start x.1.point ≤ t.dims.ahead direction start (x.2.near direction) ∧
      t.dims.ahead direction start (x.2.near direction) ≤
        t.dims.ahead direction start (x.2.far direction)) ∧
    (items.Pairwise fun x y => t.dims.ahead direction start (x.2.far direction) <
      t.dims.ahead direction start (y.2.near direction)) ∧
    (last.done = true ∨
      t.dims.ahead direction start last.point ≤ t.dims.ahead direction start stop)

/-- Behind each character between the start and the end there is a cell that is nearer to the end,
and the end is not the first half of a wide cell. -/
structure Reaches (t : Term) (start stop : Point) : Prop where
  stride : ∀ k < t.dims.ahead .right start stop, ∀ cell,
    t.grid.cellAt (t.dims.cellAhead .right start k) = some cell →
      k < (k + t.stride (t.dims.cellAhead .right start k) cell) % t.dims.cells ∧
      (k + t.stride (t.dims.cellAhead .right start k) cell) % t.dims.cells ≤
        t.dims.ahead .right start stop
  spacer : ¬ t.SpacerAt (t.dims.cellAhead .right stop 1)

/-- The cell behind a character is its stride ahead. -/
theorem expandWide_add (ht : t.WF) {i : Nat} {cell : Cell} (hcell : t.grid.cellNo i = some cell) :
    Returns (t.expandWide (t.dims.point i) .right) fun p =>
      p.add t.dims .none 1 =
        t.dims.point ((i + t.stride (t.dims.point i) cell) % t.dims.cells) := by
  have hvalid : t.dims.Valid := ht.grid.valid
  have hC : 2 ≤ t.dims.columns := ht.two_le
  have hlt : i % t.dims.columns < t.dims.columns := Nat.mod_lt i hvalid.columns_pos
  have hi := Nat.div_add_mod' i t.dims.columns
  have hcell' : t.grid.cellAt (t.dims.point i) = some cell := hcell
  have hcolumn : (t.dims.point i).column = i % t.dims.columns := rfl
  have hlast : t.lastColumn = t.dims.columns - 1 := rfl
  have hcolumns : t.columns = t.dims.columns := rfl
  unfold Term.expandWide Term.stride
  simp only [hcell', Option.bind_eq_bind, Option.bind_some, hcolumn, hlast, hcolumns]
  split
  · have hnext : (⟨(t.dims.point i).line + 1, 1⟩ : Point) =
        t.dims.point ((i / t.dims.columns + 1) * t.dims.columns + 1) := by
      rw [Dimensions.point_mul_add _ (by omega), Point.eq_iff]
      exact ⟨by simp only [Dimensions.point]; omega, rfl⟩
    have hsum : i + (t.dims.columns - i % t.dims.columns + 2) =
        (i / t.dims.columns + 1) * t.dims.columns + 1 + 1 := by
      rw [Nat.succ_mul]
      omega
    rw [hnext, hsum]
    exact .pure (Dimensions.add_none hvalid _)
  · split
    · next hwide =>
        by_cases hroom : i % t.dims.columns < t.dims.columns - 1
        · have hnext : (⟨(t.dims.point i).line, min (i % t.dims.columns + 1) (t.dims.columns - 1)⟩ :
              Point) = t.dims.point (i + 1) := by
            rw [Dimensions.point_succ hvalid, if_neg (by unfold Dimensions.lastColumn; omega), hcolumn,
              Nat.min_eq_left (by omega)]
          have hstride : (cell.flags.wideChar && decide (i % t.dims.columns < t.dims.columns - 1)) =
              true := by
            rw [hwide, Bool.true_and]
            exact decide_eq_true hroom
          rw [hnext, if_pos hstride]
          exact .pure (Dimensions.add_none hvalid _)
        · have hsame : (⟨(t.dims.point i).line, min (i % t.dims.columns + 1) (t.dims.columns - 1)⟩ :
              Point) = t.dims.point i := by
            rw [Point.eq_iff]
            exact ⟨rfl, by simp only [hcolumn]; omega⟩
          have hstride : ¬ (cell.flags.wideChar &&
              decide (i % t.dims.columns < t.dims.columns - 1)) = true := by
            rw [hwide, Bool.true_and]
            exact fun h => hroom (of_decide_eq_true h)
          rw [hsame, if_neg hstride]
          exact .pure (Dimensions.add_none hvalid _)
    · next hwide =>
        have hstride : ¬ (cell.flags.wideChar &&
            decide (i % t.dims.columns < t.dims.columns - 1)) = true :=
          fun h => hwide (Bool.and_eq_true_iff.mp h).1
        rw [if_neg hstride]
        exact .pure (Dimensions.add_none hvalid _)

/-- To the right, the origin moves behind the character. -/
theorem skip_returns (ht : t.WF) (it : RegexIter) (start : Point) (k : Nat) {cell : Cell}
    (hdirection : it.direction = .right) (hpoint : it.point = t.dims.cellAhead .right start k)
    (hcell : t.grid.cellAt it.point = some cell) :
    Returns (it.skip t) fun it' => it' =
      { it with point := t.dims.cellAhead .right start (k + t.stride it.point cell) } := by
  have hvalid : t.dims.Valid := ht.grid.valid
  have hhas : t.dims.Has it.point := hpoint ▸ Dimensions.cellAhead_has hvalid
  have hindex : t.dims.point (t.dims.index it.point) = it.point := Dimensions.point_index hhas
  have hcellNo : t.grid.cellNo (t.dims.index it.point) = some cell :=
    (congrArg t.grid.cellAt hindex).trans hcell
  have hadd := expandWide_add ht hcellNo
  rw [hindex, ← Dimensions.cellAhead_right, hpoint, Dimensions.cellAhead_add hvalid, ← hpoint] at hadd
  unfold skip
  rw [hdirection]
  refine hadd.bind fun p hp => .pure ?_
  simp only [hp]

/-- The iterator is at its end, or its next search starts at or before the end. -/
structure Bounded (t : Term) (start stop : Point) (direction : Side) (it : RegexIter) : Prop where
  direction_eq : it.direction = direction
  stop_eq : it.stop = stop
  point : it.done = true ∨ t.InGrid it.point ∧
    t.dims.ahead direction start it.point ≤ t.dims.ahead direction start stop

/-- The number of cells from the start to the next search. -/
def low (t : Term) (start : Point) (direction : Side) (it : RegexIter) : Nat :=
  if it.done then t.dims.cells else t.dims.ahead direction start it.point

/-- What is found up to the end from a point on the way is counted from the start. -/
theorem ahead_start (ht : t.WF) {p q : Point} (hp : t.InGrid p) (hq : t.InGrid q)
    (hstop : t.InGrid stop)
    (hle : t.dims.ahead direction start p ≤ t.dims.ahead direction start stop)
    (hwithin : t.dims.ahead direction p q ≤ t.dims.ahead direction p stop) :
    t.dims.ahead direction start q =
      t.dims.ahead direction start p + t.dims.ahead direction p q ∧
    t.dims.ahead direction start q ≤ t.dims.ahead direction start stop := by
  have hvalid : t.dims.Valid := ht.grid.valid
  have hlt := Dimensions.ahead_lt hvalid direction start stop
  have hsub := Dimensions.ahead_sub hvalid hp hstop hle
  have hadd := Dimensions.ahead_add hvalid (p := start) (q := p) hq
    (show t.dims.ahead direction start p + _ < _ by omega) hp
  exact ⟨hadd, by omega⟩

/-- The items of a step that comes to its end, or to a cell between the match and the end. -/
theorem advances_of_point (it : RegexIter) {it' : RegexIter} (m : RegexMatch) (ht : t.WF) (hdone : it.done = false)
    (hle : t.dims.ahead direction start it.point ≤ t.dims.ahead direction start stop)
    (hnear : t.dims.ahead direction start it.point ≤ t.dims.ahead direction start (m.near direction))
    (hfar : t.dims.ahead direction start (m.near direction) ≤
      t.dims.ahead direction start (m.far direction))
    (hdirection : it'.direction = direction) (hstop : it'.stop = stop)
    (hpoint : it'.done = true ∨ t.InGrid it'.point ∧
      t.dims.ahead direction start (m.far direction) < t.dims.ahead direction start it'.point ∧
      t.dims.ahead direction start it'.point ≤ t.dims.ahead direction start stop) :
    Bounded t start stop direction it' ∧
      (it.done = false ∧ t.dims.ahead direction start it.point ≤
        t.dims.ahead direction start stop) ∧
      Advances (low t start direction) (fun m => t.dims.ahead direction start (m.near direction))
        (fun m => t.dims.ahead direction start (m.far direction)) t.dims.cells it m it' := by
  have hvalid : t.dims.Valid := ht.grid.valid
  have hlt {p : Point} : t.dims.ahead direction start p < t.dims.cells :=
    Dimensions.ahead_lt hvalid direction start p
  refine ⟨⟨hdirection, hstop, hpoint.imp_right fun h => ⟨h.1, h.2.2⟩⟩, ⟨hdone, hle⟩, ?_, hfar,
    Nat.le_of_lt hlt, ?_⟩
  · unfold low
    rw [hdone]
    exact hnear
  · unfold low
    split
    · exact hlt
    · next hnot => exact (hpoint.resolve_left hnot).2.1

theorem next_none (t : Term) (it : RegexIter) (hm : search it.direction it.point it.stop = none) :
    ∃ it', next t search it = some (none, it') := by
  unfold next
  split
  · exact ⟨it, rfl⟩
  · have hagain : nextMatch search (if it.point = it.stop then { it with done := true } else it) =
        none := by
      split
      · exact hm
      · exact hm
    simp only [hagain]
    exact ⟨_, rfl⟩

/-- A match is yielded; the next search starts behind it, if it does not end at the end. -/
theorem next_found (it : RegexIter) {m : RegexMatch} (hdone : it.done = false)
    (hm : search it.direction it.point it.stop = some m) : next t search it =
      if m.stop = it.stop then some (some m, ⟨m.stop, it.stop, it.direction, true⟩)
      else skip t ⟨m.stop, it.stop, it.direction, decide (it.point = it.stop)⟩ >>=
        fun it' => some (some m, it') := by
  have hagain : (if it.point = it.stop then { it with done := true } else it) =
      ⟨it.point, it.stop, it.direction, decide (it.point = it.stop)⟩ := by
    split
    · next heq => rw [decide_eq_true heq]
    · next hne => rw [decide_eq_false hne, ← hdone]
  unfold next
  rw [if_neg (by rw [hdone]; exact Bool.false_ne_true)]
  simp only [hagain, nextMatch, hm]

theorem next_returns (ht : t.WF) (hw : Within t search stop direction) (hstart : t.InGrid start)
    (hstop : t.InGrid stop) (h : start = stop ∨ direction = .right ∧ Reaches t start stop)
    (hit : Bounded t start stop direction it) :
    Returns (next t search it) fun r => ∀ m, r.1 = some m → Bounded t start stop direction r.2 ∧
      (it.done = false ∧ t.dims.ahead direction start it.point ≤
        t.dims.ahead direction start stop) ∧
      Advances (low t start direction) (fun m => t.dims.ahead direction start (m.near direction))
        (fun m => t.dims.ahead direction start (m.far direction)) t.dims.cells it m r.2 := by
  have hvalid : t.dims.Valid := ht.grid.valid
  by_cases hdone : it.done = true
  · unfold next
    rw [if_pos hdone]
    exact .pure fun m hm => nomatch hm
  · obtain ⟨point, stop', direction', done⟩ := it
    obtain ⟨hdirection, hstop', hpoint⟩ := hit
    simp only at hdirection hstop' hdone hpoint
    subst hdirection hstop'
    have hdone' : done = false := Bool.eq_false_iff.mpr hdone
    obtain ⟨hgrid, hle⟩ := hpoint.resolve_left hdone
    cases hm : search direction' point stop' with
    | none =>
        obtain ⟨it', hnone⟩ := next_none t ⟨point, stop', direction', done⟩ hm
        exact ⟨_, hnone, fun m hm => nomatch hm⟩
    | some m =>
        obtain ⟨hmstart, hmstop, hnearfar, hnear, hfar⟩ := hw point m hgrid hm
        rw [next_found ⟨point, stop', direction', done⟩ hdone' hm]
        rcases h with rfl | ⟨rfl, hreach⟩
        · have hzero : t.dims.ahead direction' start start = 0 := Dimensions.ahead_self ..
          have hsame : start = point := by
            have hback : t.dims.ahead direction' start point = 0 := by omega
            exact (Dimensions.ahead_eq_zero hvalid hstart hgrid).mp hback
          subst hsame
          rw [decide_eq_true rfl]
          have hend {it' : RegexIter} (hdirection : it'.direction = direction')
              (hstop : it'.stop = start) (hdone : it'.done = true) :=
            advances_of_point ⟨start, start, direction', done⟩ m ht hdone' hle
              (by simp only [hzero]; omega) hnearfar hdirection hstop (.inl hdone)
          split
          · refine .pure fun m' hm' => ?_
            obtain rfl := Option.some.inj hm'
            exact hend rfl rfl rfl
          · next hne =>
              cases direction' with
              | left =>
                  refine absurd ?_ hne
                  have hnear' : t.dims.ahead .left start m.stop = 0 := by
                    have hle' : t.dims.ahead .left start m.stop ≤ _ := hnear
                    omega
                  exact ((Dimensions.ahead_eq_zero hvalid hstart hmstop).mp hnear').symm
              | right =>
                  obtain ⟨cell, hcell⟩ := Term.cellAt_inGrid ht hmstop
                  refine (skip_returns ht ⟨m.stop, start, .right, true⟩ m.stop 0 rfl
                    (Dimensions.cellAhead_zero hvalid hmstop).symm hcell).bind
                    fun it' hit' => .pure fun m' hm' => ?_
                  obtain rfl := Option.some.inj hm'
                  rw [hit']
                  exact hend rfl rfl rfl
        · have hinside : t.dims.ahead .right point m.stop ≤ t.dims.ahead .right point stop' := by
            refine hfar.resolve_right fun ⟨hnext, hspacer⟩ => hreach.spacer ?_
            have hbehind : t.dims.cellAhead .right stop' 1 = m.stop := by
              have hstop'' := Dimensions.cellAhead_ahead hvalid .right point hstop
              have hadd := Dimensions.cellAhead_add hvalid .right point
                (t.dims.ahead .right point stop') 1
              rw [hstop''] at hadd
              rw [hadd, ← hnext]
              exact Dimensions.cellAhead_ahead hvalid .right point hmstop
            rwa [hbehind]
          have hnearpos := ahead_start ht hgrid hmstart hstop hle hnear
          have hfarpos := ahead_start ht hgrid hmstop hstop hle hinside
          have hnear' : t.dims.ahead .right point m.start ≤ t.dims.ahead .right point m.stop := hnearfar
          have hgo {it' : RegexIter} (hdirection : it'.direction = .right) (hstop : it'.stop = stop')
              (hpoint : it'.done = true ∨ t.InGrid it'.point ∧
                t.dims.ahead .right start m.stop < t.dims.ahead .right start it'.point ∧
                t.dims.ahead .right start it'.point ≤ t.dims.ahead .right start stop') :=
            advances_of_point ⟨point, stop', .right, done⟩ m ht hdone' hle
              (by simp only [RegexMatch.near]; omega) (by simp only [RegexMatch.near, RegexMatch.far]; omega)
              hdirection hstop hpoint
          split
          · refine .pure fun m' hm' => ?_
            obtain rfl := Option.some.inj hm'
            exact hgo rfl rfl (.inl rfl)
          · next hne =>
              have hlt : t.dims.ahead .right start m.stop < t.dims.ahead .right start stop' := by
                refine Nat.lt_of_le_of_ne hfarpos.2 fun heq => hne ?_
                exact (Dimensions.ahead_inj hvalid hmstop hstop).mp heq
              have hcell : t.dims.cellAhead .right start (t.dims.ahead .right start m.stop) = m.stop :=
                Dimensions.cellAhead_ahead hvalid .right start hmstop
              obtain ⟨cell, hcell'⟩ := Term.cellAt_inGrid ht hmstop
              have hstride := hreach.stride _ hlt cell (by rw [hcell]; exact hcell')
              rw [hcell] at hstride
              refine (skip_returns ht ⟨m.stop, stop', .right, _⟩ start _ rfl hcell.symm hcell').bind
                fun it' hit' => .pure fun m' hm' => ?_
              obtain rfl := Option.some.inj hm'
              rw [hit']
              refine hgo rfl rfl (.inr ⟨Dimensions.cellAhead_has hvalid, ?_⟩)
              simp only [Dimensions.ahead_cellAhead hvalid]
              exact hstride

/-- On the way to the end, the matches follow each other. -/
theorem ordered_of_reaches (ht : t.WF) (hstart : t.InGrid start) (hstop : t.InGrid stop)
    (h : start = stop ∨ direction = .right ∧ Reaches t start stop)
    (hw : Within t search stop direction) : Ordered t search start stop direction := by
  have hinit : Bounded t start stop direction (new start stop direction) :=
    ⟨rfl, rfl, .inr ⟨hstart, by rw [new, Dimensions.ahead_self]; exact Nat.zero_le _⟩⟩
  have hrun := iterates_ordered (next t search) (Bounded t start stop direction)
    (fun it _ => it.done = false ∧
      t.dims.ahead direction start it.point ≤ t.dims.ahead direction start stop)
    (low t start direction) (fun m => t.dims.ahead direction start (m.near direction))
    (fun m => t.dims.ahead direction start (m.far direction)) t.dims.cells hinit
    fun it hit => next_returns ht hw hstart hstop h hit
  obtain ⟨items, last, hrun, hlast, -, hitems, hpair⟩ := hrun
  refine ⟨items, last, hrun, fun x hx => ?_, hpair.imp And.right, hlast.point.imp_right And.right⟩
  obtain ⟨-, ⟨hdone, hle⟩, -, hnear, hfar, -⟩ := hitems x hx
  unfold low at hnear
  rw [hdone] at hnear
  exact ⟨hle, hnear, hfar⟩

/-- A search that is not the last one begins the run with what it finds. -/
theorem iterates_first {items : List (RegexIter × RegexMatch)} {last : RegexIter} {m : RegexMatch}
    (h : Iterates (next t search) it items last) (hdone : it.done = false)
    (hm : search it.direction it.point it.stop = some m) :
    ∃ it' rest, items = (it, m) :: rest ∧ Iterates (next t search) it' rest last ∧
      (it.point ≠ it.stop → m.stop ≠ it.stop → skip t ⟨m.stop, it.stop, it.direction, false⟩ = some it') := by
  cases h with
  | stop hs =>
      rw [next_found it hdone hm] at hs
      split at hs
      · exact nomatch hs
      · obtain ⟨it', -, heq⟩ := Option.bind_eq_some_iff.mp hs
        exact nomatch heq
  | yield hs hrest =>
      rw [next_found it hdone hm] at hs
      split at hs
      · next heq =>
          cases hs
          exact ⟨_, _, rfl, hrest, fun _ hne => absurd heq hne⟩
      · obtain ⟨it', hskip, heq⟩ := Option.bind_eq_some_iff.mp hs
        cases heq
        refine ⟨_, _, rfl, hrest, fun hne _ => ?_⟩
        rwa [decide_eq_false hne] at hskip

/-- A second match is never yielded in order if it is not behind the first one. -/
theorem Ordered.second (h : Ordered t search start stop direction) (hne : start ≠ stop)
    {m : RegexMatch} (hm : search direction start stop = some m) (hend : m.stop ≠ stop)
    (hsearch : ∀ p, ∃ m, search direction p stop = some m) :
    ∃ it m', skip t ⟨m.stop, stop, direction, false⟩ = some it ∧
      search direction it.point stop = some m' ∧
      t.dims.ahead direction start it.point ≤ t.dims.ahead direction start stop ∧
      t.dims.ahead direction start it.point ≤ t.dims.ahead direction start (m'.near direction) ∧
      t.dims.ahead direction start (m'.near direction) ≤
        t.dims.ahead direction start (m'.far direction) ∧
      t.dims.ahead direction start (m.far direction) <
        t.dims.ahead direction start (m'.near direction) := by
  obtain ⟨items, last, hrun, hitems, hpair, -⟩ := h
  obtain ⟨it, rest, rfl, hrest, hskip⟩ := iterates_first hrun rfl hm
  have hskip := hskip hne hend
  have hfields : it.direction = direction ∧ it.stop = stop ∧ it.done = false := by
    obtain ⟨p, -, hit⟩ := Option.bind_eq_some_iff.mp hskip
    cases hit
    exact ⟨rfl, rfl, rfl⟩
  obtain ⟨hdirection, hstop, hdone⟩ := hfields
  obtain ⟨m', hm'⟩ := hsearch it.point
  obtain ⟨it', rest', rfl, -, -⟩ := iterates_first hrest hdone (m := m') (by
    rw [hdirection, hstop]
    exact hm')
  obtain ⟨hpoint, hnear, hfar⟩ := hitems (it, m') (by simp only [List.mem_cons, true_or, or_true])
  have hlt := (List.pairwise_cons.mp hpair).1 (it, m') (List.mem_cons_self ..)
  exact ⟨it, m', hskip, hm', hpoint, hnear, hfar, hlt⟩

/-- To the left, the search goes on at the right end of what it found. -/
theorem not_ordered_left (hne : start ≠ stop) : ¬ Ordered t (fun _ p q => some ⟨q, p⟩) start stop .left := by
  intro h
  obtain ⟨it, m, -, hm, hpoint, -, -, hlt⟩ := h.second hne (m := ⟨stop, start⟩) rfl hne
    fun p => ⟨_, rfl⟩
  cases hm
  exact absurd hpoint (Nat.not_le.mpr hlt)

theorem within_left (hstop : t.InGrid stop) :
    Within t (fun _ p q => some ⟨q, p⟩) stop .left := by
  intro p m hp hm
  cases hm
  have hzero : t.dims.ahead .left p p = 0 := Dimensions.ahead_self ..
  refine ⟨hstop, hp, ?_, ?_, .inl (Nat.le_refl _)⟩
  · simp only [RegexMatch.near, hzero, Nat.zero_le]
  · simp only [RegexMatch.near, hzero, Nat.zero_le]

/-- A search that finds the cells up to a given one first, and then one cell at a time. -/
def findsUpTo (start far : Point) : RegexSearch := fun _ p _ =>
  if p = start then some ⟨start, far⟩ else some ⟨p, p⟩

theorem findsUpTo_within (hstart : t.InGrid start) {far : Point} (hgrid : t.InGrid far)
    (hfar : t.dims.ahead .right start far ≤ t.dims.ahead .right start stop) :
    Within t (findsUpTo start far) stop .right := by
  intro p m hp hm
  unfold findsUpTo at hm
  split at hm
  · next heq =>
      subst heq
      cases hm
      have hzero : t.dims.ahead .right p p = 0 := Dimensions.ahead_self ..
      refine ⟨hp, hgrid, ?_, ?_, .inl hfar⟩
      · simp only [RegexMatch.near, hzero, Nat.zero_le]
      · simp only [RegexMatch.near, hzero, Nat.zero_le]
  · cases hm
    have hzero : t.dims.ahead .right p p = 0 := Dimensions.ahead_self ..
    refine ⟨hp, hp, Nat.le_refl _, ?_, .inl ?_⟩
    · simp only [RegexMatch.near, hzero, Nat.zero_le]
    · simp only [RegexMatch.far, hzero, Nat.zero_le]

/-- Behind a match of that search the next one starts behind it, and not beyond the end. -/
theorem stride_of_ordered (ht : t.WF) {k : Nat} {cell : Cell}
    (hk : k < t.dims.ahead .right start stop)
    (hcell : t.grid.cellAt (t.dims.cellAhead .right start k) = some cell)
    (h : Ordered t (findsUpTo start (t.dims.cellAhead .right start k)) start stop .right) :
    k < (k + t.stride (t.dims.cellAhead .right start k) cell) % t.dims.cells ∧
      (k + t.stride (t.dims.cellAhead .right start k) cell) % t.dims.cells ≤
        t.dims.ahead .right start stop := by
  have hvalid : t.dims.Valid := ht.grid.valid
  have hlt := Dimensions.ahead_lt hvalid .right start stop
  have hpos := Dimensions.ahead_cellAhead_of_lt hvalid .right start
    (show k < t.dims.cells by omega)
  have hne : start ≠ stop := by
    rintro rfl
    rw [Dimensions.ahead_self] at hk
    omega
  have hend : t.dims.cellAhead .right start k ≠ stop := by
    intro heq
    rw [heq] at hpos
    omega
  obtain ⟨it, m, hskip, hm, hpoint, -, -, hbehind⟩ := h.second hne
    (m := ⟨start, t.dims.cellAhead .right start k⟩) (if_pos rfl) hend fun p => by
      unfold findsUpTo
      split
      · exact ⟨_, rfl⟩
      · exact ⟨_, rfl⟩
  have hit := (skip_returns ht ⟨t.dims.cellAhead .right start k, stop, .right, false⟩
    start k rfl rfl hcell).of_eq hskip
  have hahead : t.dims.ahead .right start it.point =
      (k + t.stride (t.dims.cellAhead .right start k) cell) % t.dims.cells := by
    rw [hit, Dimensions.ahead_cellAhead hvalid]
  have hfar : t.dims.ahead .right start (t.dims.cellAhead .right start k) <
      t.dims.ahead .right start m.start := hbehind
  have hnear : m.start = it.point := by
    unfold findsUpTo at hm
    split at hm
    · next heq =>
        cases hm
        exact heq.symm
    · cases hm
      rfl
  rw [hnear, hpos, hahead] at hfar
  rw [hahead] at hpoint
  exact ⟨hfar, hpoint⟩

/-- A search that finds the cell behind the end, too. -/
def findsBehind (t : Term) : RegexSearch := fun _ p q =>
  if t.dims.ahead .right p q + 1 < t.dims.cells then some ⟨p, t.dims.cellAhead .right q 1⟩
  else some ⟨p, p⟩

theorem ahead_behind (ht : t.WF) (hstop : t.InGrid stop) (p : Point) :
    t.dims.ahead .right p (t.dims.cellAhead .right stop 1) =
      (t.dims.ahead .right p stop + 1) % t.dims.cells := by
  have hvalid : t.dims.Valid := ht.grid.valid
  have hadd := Dimensions.cellAhead_add hvalid .right p
    (t.dims.ahead .right p stop) 1
  rw [Dimensions.cellAhead_ahead hvalid .right p hstop] at hadd
  rw [hadd, Dimensions.ahead_cellAhead hvalid]

theorem findsBehind_within (ht : t.WF) (hstop : t.InGrid stop)
    (hspacer : t.SpacerAt (t.dims.cellAhead .right stop 1)) :
    Within t (findsBehind t) stop .right := by
  intro p m hp hm
  have hzero : t.dims.ahead .right p p = 0 := Dimensions.ahead_self ..
  unfold findsBehind at hm
  split at hm
  · next hlt =>
      cases hm
      have hnext := ahead_behind ht hstop p
      rw [Nat.mod_eq_of_lt hlt] at hnext
      refine ⟨hp, Dimensions.cellAhead_has ht.grid.valid, ?_, ?_, .inr ⟨hnext, hspacer⟩⟩
      · simp only [RegexMatch.near, hzero, Nat.zero_le]
      · simp only [RegexMatch.near, hzero, Nat.zero_le]
  · cases hm
    refine ⟨hp, hp, Nat.le_refl _, ?_, .inl ?_⟩
    · simp only [RegexMatch.near, hzero, Nat.zero_le]
    · simp only [RegexMatch.far, hzero, Nat.zero_le]

/-- That search goes on beyond the end. -/
theorem not_ordered_behind (ht : t.WF) (hstart : t.InGrid start) (hstop : t.InGrid stop)
    (hne : start ≠ stop) : ¬ Ordered t (findsBehind t) start stop .right := by
  intro h
  have hvalid : t.dims.Valid := ht.grid.valid
  have hlt := Dimensions.ahead_lt hvalid .right start stop
  have hpos : t.dims.ahead .right start stop ≠ 0 :=
    fun hzero => hne ((Dimensions.ahead_eq_zero hvalid hstart hstop).mp hzero)
  have hsome (p : Point) : ∃ m, findsBehind t .right p stop = some m := by
    unfold findsBehind
    split
    · exact ⟨_, rfl⟩
    · exact ⟨_, rfl⟩
  have hnear {p : Point} {m : RegexMatch} (hm : findsBehind t .right p stop = some m) :
      m.start = p := by
    unfold findsBehind at hm
    split at hm
    · cases hm
      rfl
    · cases hm
      rfl
  by_cases hroom : t.dims.ahead .right start stop + 1 < t.dims.cells
  · have hbehind := ahead_behind ht hstop start
    rw [Nat.mod_eq_of_lt hroom] at hbehind
    have hend : t.dims.cellAhead .right stop 1 ≠ stop := by
      intro heq
      rw [heq] at hbehind
      omega
    obtain ⟨it, m, -, hm, hpoint, -, -, hafter⟩ := h.second hne
      (m := ⟨start, t.dims.cellAhead .right stop 1⟩) (if_pos hroom) hend hsome
    have hafter : t.dims.ahead .right start (t.dims.cellAhead .right stop 1) <
      t.dims.ahead .right start m.start := hafter
    rw [hnear hm] at hafter
    omega
  · -- the cell behind the end is the start
    have hbehind := ahead_behind ht hstop start
    have hcells : t.dims.ahead .right start stop + 1 = t.dims.cells := by omega
    rw [hcells, Nat.mod_self] at hbehind
    obtain ⟨it, m, hskip, hm, hpoint, -, hfar, hafter⟩ := h.second hne (m := ⟨start, start⟩)
      (if_neg hroom) hne hsome
    have hafter : t.dims.ahead .right start start < t.dims.ahead .right start m.start := hafter
    have hfar : t.dims.ahead .right start m.start ≤ t.dims.ahead .right start m.stop := hfar
    obtain ⟨cell, hcell⟩ := Term.cellAt_inGrid ht hstart
    have hit := (skip_returns ht ⟨start, stop, .right, false⟩ start 0 rfl
      (Dimensions.cellAhead_zero hvalid hstart).symm hcell).of_eq hskip
    have hgrid : t.InGrid it.point := by
      rw [hit]
      exact Dimensions.cellAhead_has hvalid
    have hsub := Dimensions.ahead_sub hvalid hgrid hstop hpoint
    rw [hnear hm, Dimensions.ahead_self] at hafter
    rw [hnear hm] at hfar
    have hfound : m = ⟨it.point, t.dims.cellAhead .right stop 1⟩ := by
      unfold findsBehind at hm
      rw [if_pos (by omega)] at hm
      exact (Option.some.inj hm).symm
    rw [hfound] at hfar
    simp only [hbehind] at hfar
    omega

/-- Whatever the search finds, the matches follow each other from the start to the end, if and only
if that is one cell, or the search is to the right, no cell behind a character is nearer to the
start or beyond the end, and no wide cell begins at the end. -/
theorem ordered_iff (t : Term) (ht : t.WF) (start stop : Point) (hstart : t.InGrid start)
    (hstop : t.InGrid stop) (direction : Side) :
    (∀ search, Within t search stop direction → Ordered t search start stop direction) ↔
      start = stop ∨ direction = .right ∧ Reaches t start stop := by
  have hvalid : t.dims.Valid := ht.grid.valid
  constructor
  · intro h
    by_cases hne : start = stop
    · exact .inl hne
    · cases direction with
      | left => exact absurd (h _ (within_left hstop)) (not_ordered_left hne)
      | right =>
          refine .inr ⟨rfl, fun k hk cell hcell => ?_, fun hspacer => ?_⟩
          · have hlt := Dimensions.ahead_lt hvalid .right start stop
            refine stride_of_ordered ht hk hcell (h _ (findsUpTo_within hstart ?_ ?_))
            · exact Dimensions.cellAhead_has hvalid
            · rw [Dimensions.ahead_cellAhead_of_lt hvalid .right start (by omega)]
              exact Nat.le_of_lt hk
          · exact not_ordered_behind ht hstart hstop hne (h _ (findsBehind_within ht hstop hspacer))
  · exact fun h search hw => ordered_of_reaches ht hstart hstop h hw

/-- Two cells, which are found one at a time. -/
theorem ordered_two : Ordered (Term.new .initial 2 2) (fun _ p _ => some ⟨p, p⟩) ⟨0, 0⟩ ⟨0, 1⟩ .right := by
  have ht : (Term.new .initial 2 2).WF := Term.new_wf .initial (by decide) (by decide)
  refine (ordered_iff (Term.new .initial 2 2) ht ⟨0, 0⟩ ⟨0, 1⟩ ⟨by decide, by decide, by decide⟩
    ⟨by decide, by decide, by decide⟩ .right).mpr (.inr ⟨rfl, fun k hk cell hcell => ?_, ?_⟩) _
    fun p m hp hm => ?_
  · have hk : k < 1 := hk
    obtain rfl : k = 0 := by omega
    cases hcell
    decide
  · rintro ⟨cell, hcell, hspacer⟩
    cases hcell
    exact nomatch hspacer
  · cases hm
    have hzero : (Term.new .initial 2 2).dims.ahead .right p p = 0 := Dimensions.ahead_self ..
    refine ⟨hp, hp, Nat.le_refl _, ?_, .inl ?_⟩
    · simp only [RegexMatch.near, hzero, Nat.zero_le]
    · simp only [RegexMatch.far, hzero, Nat.zero_le]

/-- To the left, parts of a match are found again. To the right, a wide cell that begins at the end
leads beyond it. -/
theorem ordered_not : (Within (Term.new .initial 2 2) (fun _ p q => some ⟨q, p⟩) ⟨0, 0⟩ .left ∧
      ¬ Ordered (Term.new .initial 2 2) (fun _ p q => some ⟨q, p⟩) ⟨0, 1⟩ ⟨0, 0⟩ .left) ∧
    ∃ t, Term.Reachable .fullwidth .initial 1 4 t ∧ Within t (findsBehind t) ⟨0, 1⟩ .right ∧
      ¬ Ordered t (findsBehind t) ⟨0, 0⟩ ⟨0, 1⟩ .right := by
  refine ⟨⟨within_left ⟨by decide, by decide, by decide⟩, not_ordered_left (by decide)⟩, ?_⟩
  have hwide : ∃ t, Term.Reachable .fullwidth .initial 1 4 t ∧ t.InGrid ⟨0, 0⟩ ∧ t.InGrid ⟨0, 1⟩ ∧
      t.SpacerAt (t.dims.cellAhead .right ⟨0, 1⟩ 1) := by
    refine ⟨_, .step (.step .refl (a := .handler (.input 'a')) trivial rfl)
      (a := .handler (.input '漢')) trivial rfl, ?_, ?_, _, rfl, rfl⟩
    · exact ⟨by decide, by decide, by decide⟩
    · exact ⟨by decide, by decide, by decide⟩
  obtain ⟨t, hrun, hstart, hstop, hspacer⟩ := hwide
  have ht := hrun.wf (by decide) (by decide)
  exact ⟨t, hrun, findsBehind_within ht hstop hspacer, not_ordered_behind ht hstart hstop (by decide)⟩

end RegexIter
end Velacritty
