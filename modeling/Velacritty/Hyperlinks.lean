import Velacritty.GridIteration
import Velacritty.HintState

/-! Hyperlinks of the cells: the one at a point with its cells, and those that are visible. -/
namespace Velacritty
open Fallible

namespace Grid
variable {g : Grid Cell} {p q : Point} {i j k m : Nat} {link : Hyperlink}

def followLink (step : GridIterator Cell → Option (Option (Point × Cell) × GridIterator Cell))
    (link : Hyperlink) : Nat → GridIterator Cell → Point → Option Point
  | 0, _, _ => none
  | fuel + 1, it, last => do
      let (item, it) ← step it
      match item with
      | some (point, cell) =>
          if cell.hyperlink = some link then followLink step link fuel it point else some last
      | none => some last

/-- Retrieve the hyperlink with its range, if there is one at the specified point. The fuel of the
two loops is the number of cells. -/
def hyperlinkAt (g : Grid Cell) (point : Point) : Option (Option (Hyperlink × RegexMatch)) := do
  let cell ← g.cellAt point
  match cell.hyperlink with
  | none => some none
  | some hyperlink =>
      let matchEnd ← followLink GridIterator.next hyperlink (g.dims.cells + 1) (g.iterFrom point) point
      let matchStart ← followLink GridIterator.prev hyperlink (g.dims.cells + 1) (g.iterFrom point) point
      some (some (hyperlink, ⟨matchStart, matchEnd⟩))

def linkOf (g : Grid Cell) (i : Nat) : Option Hyperlink := (g.cellAt (g.dims.point i)).bind Cell.hyperlink

def Linked (g : Grid Cell) (link : Hyperlink) (i j : Nat) : Prop :=
  ∀ k, i ≤ k → k ≤ j → g.linkOf k = some link

theorem linkOf_cell {cell : Cell} (h : g.cellAt (g.dims.point i) = some cell) :
    g.linkOf i = cell.hyperlink := by
  rw [linkOf, h]
  rfl

variable (link) in
/-- Forwards, the last cell is the one before the first that has not the hyperlink. -/
theorem followLink_next (h : g.WF) (fuel : Nat) (hi : i < g.dims.cells)
    (hfuel : g.dims.cells - i < fuel) :
    Returns (followLink GridIterator.next link fuel (g.iterFrom (g.dims.point i)) (g.dims.point i))
      fun last => ∃ j, last = g.dims.point j ∧ i ≤ j ∧ j < g.dims.cells ∧
        (∀ k, i < k → k ≤ j → g.linkOf k = some link) ∧
        (j + 1 < g.dims.cells → g.linkOf (j + 1) ≠ some link) := by
  have hlast : g.iterFrom (g.dims.point i) = ⟨g, g.dims.point i, g.dims.point (g.dims.cells - 1)⟩ := by
    rw [Dimensions.point_last h.valid]
    rfl
  induction fuel generalizing i with
  | zero => omega
  | succ fuel ih =>
      rw [followLink, hlast, next_eq h (.cell hi) (Nat.sub_lt (by omega) Nat.one_pos)]
      split
      · rename_i hle
        have hnext : i + 1 < g.dims.cells := by omega
        obtain ⟨cell, hcell⟩ := cellAt_isSome h hnext
        simp only [hcell, Option.map_some, Option.bind_eq_bind, Option.bind_some]
        split
        · rename_i hlink
          have hlast' : g.iterFrom (g.dims.point (i + 1)) =
              ⟨g, g.dims.point (i + 1), g.dims.point (g.dims.cells - 1)⟩ := by
            rw [Dimensions.point_last h.valid]
            rfl
          rw [← hlast']
          refine (ih hnext (by omega) hlast').mono ?_
          rintro last ⟨j, rfl, hij, hj, hrun, hstop⟩
          refine ⟨j, rfl, by omega, hj, fun k hk hkj => ?_, hstop⟩
          rcases Nat.eq_or_lt_of_le hk with rfl | hk
          · rw [linkOf_cell hcell]
            exact hlink
          · exact hrun k hk hkj
        · rename_i hlink
          refine .pure ⟨i, rfl, Nat.le_refl _, hi, fun k hk hki => by omega, fun _ => ?_⟩
          rw [linkOf_cell hcell]
          exact hlink
      · rename_i hle
        exact .pure ⟨i, rfl, Nat.le_refl _, hi, fun k hk hki => by omega, fun hlt => by omega⟩

variable (link) in
theorem followLink_prev (h : g.WF) (stop : Point) (fuel : Nat) (hi : i < g.dims.cells)
    (hfuel : i < fuel) :
    Returns (followLink GridIterator.prev link fuel ⟨g, g.dims.point i, stop⟩ (g.dims.point i))
      fun first => ∃ j, first = g.dims.point j ∧ j ≤ i ∧
        (∀ k, j ≤ k → k < i → g.linkOf k = some link) ∧
        (0 < j → g.linkOf (j - 1) ≠ some link) := by
  induction fuel generalizing i with
  | zero => omega
  | succ fuel ih =>
      rw [followLink, prev_cell h hi]
      split
      · rename_i hpos
        have hprev : i - 1 < g.dims.cells := by omega
        obtain ⟨cell, hcell⟩ := cellAt_isSome h hprev
        simp only [hcell, Option.map_some, Option.bind_eq_bind, Option.bind_some]
        split
        · rename_i hlink
          refine (ih hprev (by omega)).mono ?_
          rintro first ⟨j, rfl, hji, hrun, hstop⟩
          refine ⟨j, rfl, by omega, fun k hk hki => ?_, hstop⟩
          rcases Nat.eq_or_lt_of_le (Nat.le_sub_one_of_lt hki) with rfl | hki
          · rw [linkOf_cell hcell]
            exact hlink
          · exact hrun k hk hki
        · rename_i hlink
          refine .pure ⟨i, rfl, Nat.le_refl _, fun k hk hki => by omega, fun _ => ?_⟩
          rw [linkOf_cell hcell]
          exact hlink
      · rename_i hpos
        exact .pure ⟨i, rfl, Nat.le_refl _, fun k hk hki => by omega, fun hlt => by omega⟩

def HasLink (g : Grid Cell) (link : Hyperlink) (q : Point) : Prop :=
  (g.cellAt q).bind Cell.hyperlink = some link

theorem linkOf_index (hq : g.dims.Has q) : g.linkOf (g.dims.index q) = (g.cellAt q).bind Cell.hyperlink := by
  rw [linkOf, Dimensions.point_index hq]

theorem linked_iff (h : g.WF) (hi : i < g.dims.cells) (hj : j < g.dims.cells) :
    g.Linked link i j ↔
      ∀ q, g.dims.Has q → g.dims.point i ≤ q → q ≤ g.dims.point j → g.HasLink link q := by
  constructor
  · intro hlinked q hq hstart hstop
    have hqi := Dimensions.index_lt h.valid hq
    rw [← Dimensions.point_index hq] at hstart hstop
    rw [HasLink, ← linkOf_index hq]
    exact hlinked _ ((Dimensions.point_le_iff h.valid hi hqi).mp hstart)
      ((Dimensions.point_le_iff h.valid hqi hj).mp hstop)
  · intro hall k hik hkj
    have hk : k < g.dims.cells := Nat.lt_of_le_of_lt hkj hj
    have hhas := Dimensions.point_has h.valid hk
    have hlink := hall (g.dims.point k) hhas ((Dimensions.point_le_iff h.valid hi hk).mpr hik)
      ((Dimensions.point_le_iff h.valid hk hj).mpr hkj)
    rwa [HasLink, ← linkOf_index hhas, Dimensions.index_point] at hlink

theorem linked_of_runs (hbackward : ∀ k, i ≤ k → k < m → g.linkOf k = some link)
    (hself : g.linkOf m = some link) (hforward : ∀ k, m < k → k ≤ j → g.linkOf k = some link) :
    g.Linked link i j := by
  intro k hik hkj
  rcases Nat.lt_trichotomy k m with hlt | rfl | hgt
  · exact hbackward k hik hlt
  · exact hself
  · exact hforward k hgt hkj

/-- Linked cells do not reach over a cell without the hyperlink. -/
theorem Linked.within {a b : Nat} (h : g.Linked link a b) (ha : a ≤ m) (hb : m ≤ b)
    (hcells : b < g.dims.cells) (hi : i ≤ m) (hj : m ≤ j)
    (hbefore : 0 < i → g.linkOf (i - 1) ≠ some link)
    (hbehind : j + 1 < g.dims.cells → g.linkOf (j + 1) ≠ some link) : i ≤ a ∧ b ≤ j := by
  constructor
  · by_contra hlt
    exact hbefore (by omega) (h (i - 1) (by omega) (by omega))
  · by_contra hlt
    exact hbehind (by omega) (h (j + 1) (by omega) (by omega))

/-- At a point of the grid there is a hyperlink exactly if its cell has one, and then the range is
the largest one around the point whose cells all have it. -/
theorem hyperlinkAt_largest (h : g.WF) (hp : g.dims.Has p) :
    Returns (g.hyperlinkAt p) fun found =>
      (found.map Prod.fst = (g.cellAt p).bind Cell.hyperlink) ∧
      ∀ link range, found = some (link, range) →
        g.dims.Has range.start ∧ g.dims.Has range.stop ∧ range.start ≤ p ∧ p ≤ range.stop ∧
        (∀ q, g.dims.Has q → range.start ≤ q → q ≤ range.stop → g.HasLink link q) ∧
        ∀ a b, g.dims.Has a → g.dims.Has b → a ≤ p → p ≤ b →
          (∀ q, g.dims.Has q → a ≤ q → q ≤ b → g.HasLink link q) →
          range.start ≤ a ∧ b ≤ range.stop := by
  have hi := Dimensions.index_lt h.valid hp
  have hpoint := Dimensions.point_index hp
  obtain ⟨cell, hcell⟩ := cellAt_isSome h hi
  rw [hpoint] at hcell
  unfold hyperlinkAt
  rw [hcell, Option.bind_eq_bind, Option.bind_some]
  cases hlink : cell.hyperlink with
  | none => exact .pure ⟨by rw [Option.bind_some, hlink]; rfl, fun link range hf => nomatch hf⟩
  | some link =>
      have hnext := followLink_next link h (g.dims.cells + 1) hi (by omega)
      have hprev := followLink_prev link h ⟨g.dims.bottommostLine, g.dims.lastColumn⟩
        (g.dims.cells + 1) hi (by omega)
      rw [hpoint] at hnext hprev
      refine hnext.bind ?_
      rintro _ ⟨last, rfl, hlast, hcells, hforward, hbehind⟩
      refine Returns.bind hprev ?_
      rintro _ ⟨first, rfl, hfirst, hbackward, hbefore⟩
      have hfirst' : first < g.dims.cells := Nat.lt_of_le_of_lt hfirst hi
      have hself : g.linkOf (g.dims.index p) = some link := by
        rw [linkOf_index hp, hcell]
        exact hlink
      have hlinked : g.Linked link first last := linked_of_runs hbackward hself hforward
      have hstart := (Dimensions.point_le_iff h.valid hfirst' hi).mpr hfirst
      have hstop := (Dimensions.point_le_iff h.valid hi hcells).mpr hlast
      rw [hpoint] at hstart hstop
      refine .pure ⟨by rw [Option.bind_some, hlink]; rfl, ?_⟩
      rintro _ _ hf
      obtain ⟨rfl, rfl⟩ := Prod.mk.inj (Option.some.inj hf)
      refine ⟨Dimensions.point_has h.valid hfirst', Dimensions.point_has h.valid hcells, hstart, hstop,
        (linked_iff h hfirst' hcells).mp hlinked, ?_⟩
      intro a b ha hb hap hpb hall
      have hai := Dimensions.index_lt h.valid ha
      have hbi := Dimensions.index_lt h.valid hb
      rw [← Dimensions.point_index ha, ← Dimensions.point_index hb] at hall ⊢
      obtain ⟨hfa, hbl⟩ := ((linked_iff h hai hbi).mpr hall).within
        ((Dimensions.index_le_iff ha hp).mpr hap) ((Dimensions.index_le_iff hp hb).mpr hpb) hbi hfirst hlast
        hbefore hbehind
      exact ⟨(Dimensions.point_le_iff h.valid hfirst' hai).mpr hfa,
        (Dimensions.point_le_iff h.valid hbi hcells).mpr hbl⟩

/-- A hyperlink of two cells, over the end of a line. -/
def linkedGrid : Option (Grid Cell) := do
  let g ← (new 2 2 0).modifyCell ⟨0, 1⟩ (Cell.setHyperlink · (some ⟨"1", "file:///"⟩))
  g.modifyCell ⟨1, 0⟩ (Cell.setHyperlink · (some ⟨"1", "file:///"⟩))

theorem linkedGrid_wf : Returns linkedGrid Grid.WF := by
  have hwf := new_wf (T := Cell) (show 1 ≤ 2 by decide) (show 1 ≤ 2 by decide) 0
  have hlo : (new 2 2 0 : Grid Cell).dims.topmostLine ≤ (⟨0, 1⟩ : Point).line := by decide
  refine (modifyCell_returns hwf hlo (by decide) (by decide) _).bind fun g hg => ?_
  refine (modifyCell_returns hg.wf ?_ ?_ ?_ _).mono fun g' hg' => hg'.wf
  · exact Int.le_trans (Int.neg_nonpos_of_nonneg (Int.natCast_nonneg _)) (by decide)
  · rw [hg.lines]
    decide
  · rw [hg.columns]
    decide

/-- The hyperlink is found from its second cell, with both. -/
theorem hyperlinkAt_largest_written : ∃ g : Grid Cell, linkedGrid = some g ∧
    ∃ range, g.hyperlinkAt ⟨1, 0⟩ = some (some (⟨"1", "file:///"⟩, range)) ∧
      range.start = ⟨0, 1⟩ ∧ (⟨1, 0⟩ : Point) ≤ range.stop := by
  obtain ⟨g, hg, hwf⟩ := linkedGrid_wf
  refine ⟨g, hg, ?_⟩
  obtain rfl : _ = g := Option.some.inj (Eq.trans rfl hg)
  obtain ⟨found, hfound, -, hrange⟩ := hyperlinkAt_largest hwf (p := ⟨1, 0⟩)
    (show (0 : Int) ≤ 1 ∧ (1 : Int) ≤ 1 ∧ 0 < 2 by decide)
  obtain rfl : _ = found := Option.some.inj (Eq.trans rfl hfound)
  exact ⟨_, hfound, rfl, (hrange _ _ rfl).2.2.2.1⟩

end Grid

/-! ### Visible hyperlinks -/

/-- The items of an iterator, in at most as many steps. -/
def GridIterator.collect {T : Type} [GridCell T] :
    Nat → GridIterator T → Option (List (Point × T))
  | 0, _ => none
  | fuel + 1, it => do
      let (item, it) ← it.next
      match item with
      | some item => (collect fuel it).map (item :: ·)
      | none => some []

/-- Find the end bound of a hyperlink that was just found: its last cell, and the cells behind. -/
def linkEnd (hyperlink : Hyperlink) : Point → List (Point × Cell) → Point × List (Point × Cell)
  | last, [] => (last, [])
  | last, (point, cell) :: rest =>
      if cell.hyperlink = some hyperlink then linkEnd hyperlink point rest
      else (last, (point, cell) :: rest)

theorem linkEnd_length (hyperlink : Hyperlink) (last : Point) (items : List (Point × Cell)) :
    (linkEnd hyperlink last items).2.length ≤ items.length := by
  induction items generalizing last with
  | nil => exact Nat.le_refl _
  | cons item rest ih =>
      rw [linkEnd]
      split
      · exact Nat.le_succ_of_le (ih item.1)
      · exact Nat.le_refl _

/-- The cells of each hyperlink where it is met first, but for those that are known. -/
def uniqueLinks (known : List Hyperlink) (items : List (Point × Cell)) : List RegexMatch :=
  match items with
  | [] => []
  | (point, cell) :: rest =>
      match cell.hyperlink with
      | none => uniqueLinks known rest
      | some hyperlink =>
          if hyperlink ∈ known then uniqueLinks known rest
          else
            ⟨point, (linkEnd hyperlink point rest).1⟩ ::
              uniqueLinks (hyperlink :: known) (linkEnd hyperlink point rest).2
termination_by items.length
decreasing_by
  · exact Nat.lt_succ_self _
  · exact Nat.lt_succ_self _
  · exact Nat.lt_succ_of_le (linkEnd_length hyperlink point rest)

/-- Iterate over all visible hyperlinks, yanking only unique ones. -/
def Grid.visibleUniqueHyperlinks (g : Grid Cell) : Option (List RegexMatch) :=
  (g.displayIter.collect (g.dims.cells + 1)).map (uniqueLinks [])

/-- The match is the first place of the hyperlink among the items: none before it has it, all from
its start to its end do, and the one behind it does not. -/
def FirstPlace (items : List (Point × Cell)) (m : RegexMatch) (link : Hyperlink) : Prop :=
  ∃ before first run after, items = before ++ first :: (run ++ after) ∧
    (∀ x ∈ before, x.2.hyperlink ≠ some link) ∧
    (∀ x ∈ first :: run, x.2.hyperlink = some link) ∧
    (∀ x, after.head? = some x → x.2.hyperlink ≠ some link) ∧
    m.start = first.1 ∧ m.stop = ((first :: run).getLast (List.cons_ne_nil _ _)).1

theorem FirstPlace.behind {items : List (Point × Cell)} {m : RegexMatch} {link : Hyperlink}
    (h : FirstPlace items m link) (passed : List (Point × Cell))
    (hpassed : ∀ x ∈ passed, x.2.hyperlink ≠ some link) : FirstPlace (passed ++ items) m link := by
  obtain ⟨before, first, run, after, rfl, hbefore, hrun⟩ := h
  refine ⟨passed ++ before, first, run, after, by simp, fun x hx => ?_, hrun⟩
  rcases List.mem_append.mp hx with hx | hx
  · exact hpassed x hx
  · exact hbefore x hx

theorem linkEnd_spec (hyperlink : Hyperlink) (first : Point × Cell) (items : List (Point × Cell)) :
    ∃ run, items = run ++ (linkEnd hyperlink first.1 items).2 ∧
      (∀ x ∈ run, x.2.hyperlink = some hyperlink) ∧
      (∀ x, (linkEnd hyperlink first.1 items).2.head? = some x → x.2.hyperlink ≠ some hyperlink) ∧
      (linkEnd hyperlink first.1 items).1 = ((first :: run).getLast (List.cons_ne_nil _ _)).1 := by
  induction items generalizing first with
  | nil => exact ⟨[], rfl, fun x hx => (nomatch hx), fun x hx => (nomatch hx), rfl⟩
  | cons item rest ih =>
      rw [linkEnd]
      split
      · rename_i hlink
        obtain ⟨run, hrest, hrun, hafter, hlast⟩ := ih item
        refine ⟨item :: run, by rw [List.cons_append, ← hrest], fun x hx => ?_, hafter, hlast⟩
        rcases List.mem_cons.mp hx with rfl | hx
        · exact hlink
        · exact hrun x hx
      · rename_i hlink
        refine ⟨[], rfl, fun x hx => (nomatch hx), fun x hx => ?_, rfl⟩
        obtain rfl := Option.some.inj hx
        exact hlink

theorem uniqueLinks_spec (known : List Hyperlink) (items : List (Point × Cell)) :
    ∃ links : List Hyperlink, links.Nodup ∧
      (∀ link, link ∈ links ↔ link ∉ known ∧ ∃ x ∈ items, x.2.hyperlink = some link) ∧
      List.Forall₂ (fun m link => FirstPlace items m link ∧ link ∉ known)
        (uniqueLinks known items) links := by
  induction known, items using uniqueLinks.induct with
  | case1 known =>
      refine ⟨[], .nil, fun link => ?_, ?_⟩
      · simp
      · rw [uniqueLinks]
        exact .nil
  | case2 known point cell rest hnone ih =>
      obtain ⟨links, hnodup, hmem, hplaces⟩ := ih
      rw [uniqueLinks, hnone]
      refine ⟨links, hnodup, fun link => ?_, hplaces.imp fun m link hm => ?_⟩
      · rw [hmem]
        simp [hnone]
      · refine ⟨hm.1.behind [(point, cell)] fun x hx => ?_, hm.2⟩
        rw [List.mem_singleton.mp hx, hnone]
        simp
  | case3 known point cell rest hyperlink hlink hknown ih =>
      obtain ⟨links, hnodup, hmem, hplaces⟩ := ih
      rw [uniqueLinks, hlink]
      dsimp only
      rw [if_pos hknown]
      refine ⟨links, hnodup, fun link => ?_, hplaces.imp fun m link hm => ?_⟩
      · rw [hmem]
        constructor
        · rintro ⟨hnew, x, hx, hxl⟩
          exact ⟨hnew, x, List.mem_cons_of_mem _ hx, hxl⟩
        · rintro ⟨hnew, x, hx, hxl⟩
          refine ⟨hnew, x, (List.mem_cons.mp hx).resolve_left ?_, hxl⟩
          rintro rfl
          rw [hlink] at hxl
          exact hnew (Option.some.inj hxl ▸ hknown)
      · refine ⟨hm.1.behind [(point, cell)] fun x hx => ?_, hm.2⟩
        rw [List.mem_singleton.mp hx, hlink]
        exact fun h => hm.2 (Option.some.inj h ▸ hknown)
  | case4 known point cell rest hyperlink hlink hnew ih =>
      obtain ⟨links, hnodup, hmem, hplaces⟩ := ih
      obtain ⟨run, hrest, hrun, hafter, hlast⟩ := linkEnd_spec hyperlink (point, cell) rest
      have hall (x : Point × Cell) (hx : x ∈ (point, cell) :: run) : x.2.hyperlink = some hyperlink := by
        rcases List.mem_cons.mp hx with rfl | hx
        · exact hlink
        · exact hrun x hx
      have hitems : (point, cell) :: rest =
          ((point, cell) :: run) ++ (linkEnd hyperlink point rest).2 := by
        rw [List.cons_append, ← hrest]
      rw [uniqueLinks, hlink]
      dsimp only
      rw [if_neg hnew]
      refine ⟨hyperlink :: links, List.nodup_cons.mpr ⟨fun h => ?_, hnodup⟩, fun link => ?_,
        .cons ⟨?_, hnew⟩ (hplaces.imp fun m link hm => ⟨?_, fun h => hm.2 (List.mem_cons_of_mem _ h)⟩)⟩
      · exact ((hmem hyperlink).mp h).1 List.mem_cons_self
      · rw [List.mem_cons, hmem]
        constructor
        · rintro (rfl | ⟨hnot, x, hx, hxl⟩)
          · exact ⟨hnew, _, List.mem_cons_self, hlink⟩
          · refine ⟨fun h => hnot (List.mem_cons_of_mem _ h), x, ?_, hxl⟩
            rw [hitems]
            exact List.mem_append_right _ hx
        · rintro ⟨hnot, x, hx, hxl⟩
          by_cases heq : link = hyperlink
          · exact .inl heq
          · rw [hitems] at hx
            rcases List.mem_append.mp hx with hx | hx
            · rw [hall x hx] at hxl
              exact absurd (Option.some.inj hxl).symm heq
            · exact .inr ⟨fun h => (List.mem_cons.mp h).elim heq hnot, x, hx, hxl⟩
      · refine ⟨[], (point, cell), run, (linkEnd hyperlink point rest).2, ?_, fun x hx => (nomatch hx),
          hall, hafter, rfl, hlast⟩
        rw [List.nil_append, ← List.cons_append]
        exact hitems
      · rw [hitems]
        refine hm.1.behind _ fun x hx => ?_
        rw [hall x hx]
        exact fun h => hm.2 (Option.some.inj h ▸ List.mem_cons_self)

/-! ### On the grid -/

theorem collect_of_iterates {T : Type} [GridCell T] {it last : GridIterator T}
    {items : List (GridIterator T × (Point × T))} (h : Iterates GridIterator.next it items last) {fuel : Nat}
    (hfuel : items.length < fuel) : it.collect fuel = some (items.map Prod.snd) := by
  induction h generalizing fuel with
  | stop hnext =>
      obtain ⟨n, rfl⟩ := Nat.exists_eq_succ_of_ne_zero (Nat.ne_of_gt hfuel)
      rw [GridIterator.collect, hnext]
      rfl
  | yield hnext _ ih =>
      obtain ⟨n, rfl⟩ := Nat.exists_eq_succ_of_ne_zero (Nat.ne_of_gt (Nat.lt_of_le_of_lt (Nat.zero_le _) hfuel))
      rw [GridIterator.collect, hnext, Option.bind_eq_bind, Option.bind_some]
      dsimp only
      rw [ih (Nat.lt_of_succ_lt_succ hfuel)]
      rfl

/-- In a list in reading order, nothing lies behind the last item. -/
theorem le_getLast {T : Type} {items : List (Point × T)} (hne : items ≠ [])
    (hsorted : items.Pairwise fun x y => x.1 < y.1) {x : Point × T} (hx : x ∈ items) :
    x.1 ≤ (items.getLast hne).1 := by
  rw [← List.dropLast_append_getLast hne] at hsorted hx
  rcases List.mem_append.mp hx with hx | hx
  · exact Point.le_of_lt ((List.pairwise_append.mp hsorted).2.2 x hx _ List.mem_cons_self)
  · rw [List.mem_singleton.mp hx]
    exact Point.le_refl _

namespace Grid
variable {g : Grid Cell} {m : RegexMatch} {link : Hyperlink} {items : List (Point × Cell)}

def Shown (g : Grid Cell) (q : Point) : Prop :=
  g.dims.Has q ∧ -(g.displayOffset : Int) ≤ q.line ∧ q.line < (g.lines : Int) - g.displayOffset

/-- The match is the hyperlink's first place among the displayed cells, as large as it can be. -/
structure ShownFirst (g : Grid Cell) (m : RegexMatch) (link : Hyperlink) : Prop where
  start : g.Shown m.start
  stop : g.Shown m.stop
  ordered : m.start ≤ m.stop
  first : ∀ q, g.Shown q → g.HasLink link q → m.start ≤ q
  linked : ∀ q, g.Shown q → m.start ≤ q → q ≤ m.stop → g.HasLink link q
  largest : ∀ b, g.Shown b → (∀ q, g.Shown q → m.start ≤ q → q ≤ b → g.HasLink link q) → b ≤ m.stop

/-- The items are the displayed cells in reading order. -/
structure Displays (g : Grid Cell) (items : List (Point × Cell)) : Prop where
  sorted : items.Pairwise fun x y => x.1 < y.1
  mem : ∀ q cell, (q, cell) ∈ items ↔ g.Shown q ∧ g.cellAt q = some cell

theorem displayIter_displays (hoffset : g.OffsetBounded) (hitems : g.displayIter.Remaining items) :
    g.Displays items := by
  obtain ⟨hsorted, hmem⟩ := hitems
  refine ⟨hsorted, fun q cell => ?_⟩
  have hhistory : g.displayOffset ≤ g.dims.historySize := hoffset
  have hlast : g.dims.bottommostLine = (g.lines : Int) - 1 := rfl
  have hcolumn : g.dims.lastColumn = g.dims.columns - 1 := rfl
  rw [hmem]
  simp only [displayIter, Point.lt_def, Point.le_def, Shown, Dimensions.Has, hlast]
  constructor
  · rintro ⟨hbehind, hstop, hhas, hcell⟩
    exact ⟨⟨hhas, by omega, by omega⟩, hcell⟩
  · rintro ⟨⟨hhas, htop, hbottom⟩, hcell⟩
    exact ⟨by omega, by omega, hhas, hcell⟩

theorem Displays.hasLink_iff (h : g.Displays items) {x : Point × Cell} (hx : x ∈ items) :
    g.HasLink link x.1 ↔ x.2.hyperlink = some link := by
  rw [HasLink, ((h.mem x.1 x.2).mp hx).2]
  rfl

theorem Displays.cell (h : g.Displays items) (hg : g.WF) {q : Point} (hq : g.Shown q) :
    ∃ cell, (q, cell) ∈ items := by
  obtain ⟨cell, hcell⟩ := cellAt_isSome hg (Dimensions.index_lt hg.valid hq.1)
  rw [Dimensions.point_index hq.1] at hcell
  exact ⟨cell, (h.mem q cell).mpr ⟨hq, hcell⟩⟩

theorem FirstPlace.shown (hg : g.WF) (h : g.Displays items) (hm : FirstPlace items m link) :
    g.ShownFirst m link := by
  obtain ⟨before, first, run, after, hitems, hbefore, hrun, hafter, hstart, hstop⟩ := hm
  have hsorted := h.sorted
  rw [hitems, ← List.cons_append] at hsorted
  obtain ⟨-, hrest, hbeforeLt⟩ := List.pairwise_append.mp hsorted
  obtain ⟨hruns, hafters, hrunLt⟩ := List.pairwise_append.mp hrest
  have hmem (x : Point × Cell) : x ∈ items ↔ x ∈ before ∨ x ∈ first :: run ∨ x ∈ after := by
    rw [hitems, ← List.cons_append, List.mem_append, List.mem_append]
  have hlastMem := List.getLast_mem (List.cons_ne_nil first run)
  have hle (x : Point × Cell) (hx : x ∈ first :: run) : m.start ≤ x.1 ∧ x.1 ≤ m.stop := by
    refine ⟨?_, hstop ▸ le_getLast (List.cons_ne_nil first run) hruns hx⟩
    rw [hstart]
    rcases List.mem_cons.mp hx with rfl | hx
    · exact Point.le_refl _
    · exact Point.le_of_lt ((List.pairwise_cons.mp hruns).1 x hx)
  have hbehind (x : Point × Cell) (hx : x ∈ after) : m.stop < x.1 := by
    rw [hstop]
    exact hrunLt _ hlastMem x hx
  have hahead (x : Point × Cell) (hx : x ∈ before) : x.1 < m.start := by
    rw [hstart]
    exact hbeforeLt x hx first (List.mem_append_left _ List.mem_cons_self)
  have hfirst : first ∈ items := (hmem first).mpr (.inr (.inl List.mem_cons_self))
  have hlast : (first :: run).getLast (List.cons_ne_nil _ _) ∈ items := (hmem _).mpr (.inr (.inl hlastMem))
  have hordered : m.start ≤ m.stop := by
    rw [hstart]
    exact (hle first List.mem_cons_self).2
  refine ⟨?_, ?_, hordered, fun q hq hlink => ?_, fun q hq hlo hhi => ?_, fun b hb hall => ?_⟩
  · rw [hstart]
    exact ((h.mem first.1 first.2).mp hfirst).1
  · rw [hstop]
    exact ((h.mem _ _).mp hlast).1
  · obtain ⟨cell, hcell⟩ := h.cell hg hq
    rcases (hmem _).mp hcell with hx | hx | hx
    · exact absurd ((h.hasLink_iff hcell).mp hlink) (hbefore _ hx)
    · exact (hle _ hx).1
    · exact Point.le_trans hordered (Point.le_of_lt (hbehind _ hx))
  · obtain ⟨cell, hcell⟩ := h.cell hg hq
    rcases (hmem _).mp hcell with hx | hx | hx
    · exact absurd hlo (Point.not_le.mpr (hahead _ hx))
    · exact (h.hasLink_iff hcell).mpr (hrun _ hx)
    · exact absurd hhi (Point.not_le.mpr (hbehind _ hx))
  · obtain ⟨cell, hcell⟩ := h.cell hg hb
    rcases (hmem _).mp hcell with hx | hx | hx
    · exact Point.le_trans (Point.le_of_lt (hahead _ hx)) hordered
    · exact (hle _ hx).2
    · obtain ⟨next, rest, rfl⟩ := List.exists_cons_of_ne_nil (List.ne_nil_of_mem hx)
      have hnext : next ∈ items := (hmem next).mpr (.inr (.inr List.mem_cons_self))
      have hnextLe : next.1 ≤ b := by
        rcases List.mem_cons.mp hx with rfl | hx
        · exact Point.le_refl _
        · exact Point.le_of_lt ((List.pairwise_cons.mp hafters).1 _ hx)
      have := hall next.1 ((h.mem next.1 next.2).mp hnext).1
        (Point.le_trans hordered (Point.le_of_lt (hbehind next List.mem_cons_self))) hnextLe
      exact absurd ((h.hasLink_iff hnext).mp this) (hafter next rfl)

theorem display_iterates (hg : g.WF) (hoffset : g.OffsetBounded) :
    ∃ items last, Iterates GridIterator.next g.displayIter items last ∧
      g.displayIter.Remaining (items.map Prod.snd) ∧ items.length ≤ g.dims.cells := by
  have hit := (Starts.display hoffset).iterating hg
  generalize g.displayIter = it at hit
  cases hit with
  | mk hplaced hlt _ =>
      obtain ⟨items, last, hrun, hitems, hlength⟩ := iterates_remaining hg hplaced hlt
      exact ⟨items, last, hrun, hitems, by omega⟩

/-- The visible hyperlinks are found exactly, each of them once, at the first of its places and to
the end of it. -/
theorem visibleUniqueHyperlinks_first (hg : g.WF) (hoffset : g.OffsetBounded) :
    Returns g.visibleUniqueHyperlinks fun ms => ∃ links : List Hyperlink, links.Nodup ∧
      (∀ link, link ∈ links ↔ ∃ q, g.Shown q ∧ g.HasLink link q) ∧
      List.Forall₂ g.ShownFirst ms links := by
  obtain ⟨items, last, hrun, hitems, hlength⟩ := display_iterates hg hoffset
  have hdisplays := displayIter_displays hoffset hitems
  obtain ⟨links, hnodup, hmem, hplaces⟩ := uniqueLinks_spec [] (items.map Prod.snd)
  rw [visibleUniqueHyperlinks, collect_of_iterates hrun (Nat.lt_succ_of_le hlength)]
  refine .pure ⟨links, hnodup, fun link => ?_, hplaces.imp fun m link hm => FirstPlace.shown hg hdisplays hm.1⟩
  rw [hmem]
  constructor
  · rintro ⟨-, x, hx, hlink⟩
    exact ⟨x.1, ((hdisplays.mem x.1 x.2).mp hx).1, (hdisplays.hasLink_iff hx).mpr hlink⟩
  · rintro ⟨q, hq, hlink⟩
    obtain ⟨cell, hcell⟩ := hdisplays.cell hg hq
    exact ⟨List.not_mem_nil, _, hcell, (hdisplays.hasLink_iff hcell).mp hlink⟩

/-- The two cells of one hyperlink are one match. -/
theorem visibleUniqueHyperlinks_first_written : ∃ g : Grid Cell, linkedGrid = some g ∧
    g.visibleUniqueHyperlinks = some [⟨⟨0, 1⟩, ⟨1, 0⟩⟩] ∧
    ∃ links : List Hyperlink, links.Nodup ∧ List.Forall₂ g.ShownFirst [⟨⟨0, 1⟩, ⟨1, 0⟩⟩] links := by
  obtain ⟨g, hg, hwf⟩ := linkedGrid_wf
  refine ⟨g, hg, ?_⟩
  obtain rfl : _ = g := Option.some.inj (Eq.trans rfl hg)
  obtain ⟨ms, hms, links, hnodup, -, hplaces⟩ :=
    visibleUniqueHyperlinks_first hwf (Nat.zero_le _)
  obtain rfl : [⟨⟨0, 1⟩, ⟨1, 0⟩⟩] = ms := Option.some.inj (Eq.trans (by decide +kernel) hms)
  exact ⟨hms, links, hnodup, hplaces⟩

end Grid
end Velacritty
