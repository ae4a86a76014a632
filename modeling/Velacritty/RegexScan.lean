import Mathlib.Logic.Relation
import Velacritty.CellCycle

/-! The scan of the grid's text for a regex, one character in a round. -/
namespace Velacritty
open Fallible

/-- An automaton that reads bytes. -/
structure Dfa (σ : Type) where
  start : σ
  nextState : σ → UInt8 → σ
  /-- The state at the end of the input. -/
  nextEoiState : σ → σ
  isMatch : σ → Bool
  isDead : σ → Bool

/-- The state of the automaton, the bytes it consumed, and the last match. -/
structure Parser (σ : Type) where
  state : σ
  consumedBytes : Nat
  regexMatch : Option Point

/-- What becomes of a character: it is read, tried again, or ends the scan. -/
inductive Fed (σ : Type) where
  | read (p : Parser σ)
  | retry (p : Parser σ)
  | abort (p : Parser σ)

namespace Dfa
variable {σ : Type}

/-- Reset the regex state to restart the search. -/
def resetState (dfa : Dfa σ) : Parser σ := ⟨dfa.start, 0, none⟩

/-- Pass one byte of a character to the automaton. -/
def readByte (dfa : Dfa σ) (lastPoint : Point) (first : Bool) (byte : UInt8) (p : Parser σ) : Fed σ :=
  let p := { p with state := dfa.nextState p.state byte, consumedBytes := p.consumedBytes + 1 }
  if first && dfa.isMatch p.state then .read { p with regexMatch := some lastPoint }
  else if dfa.isDead p.state then
    if p.consumedBytes = 2 then
      if first then .retry dfa.resetState else .read dfa.resetState
    else .abort p
  else .read p

/-- Pass a character to the automaton as individual bytes. -/
def readBytes (dfa : Dfa σ) (lastPoint : Point) : Bool → List UInt8 → Parser σ → Fed σ
  | _, [], p => .read p
  | first, byte :: bytes, p =>
      match dfa.readByte lastPoint first byte p with
      | .read p => dfa.readBytes lastPoint false bytes p
      | .retry p => .retry p
      | .abort p => .abort p

end Dfa

/-- The bytes of a character, inverted when going left. -/
def charBytes (direction : Side) (c : Char) : List UInt8 :=
  match direction with
  | .right => String.utf8EncodeChar c
  | .left => (String.utf8EncodeChar c).reverse

/-- The state of the scan between two characters. -/
structure Scan (σ : Type) where
  parser : Parser σ
  it : GridIterator Cell
  done : Bool
  c : Char
  lastWrapped : Bool
  point : Point
  lastPoint : Point

namespace Term

/-- The next cell, around the ends of the scrollback buffer. -/
def nextCell (t : Term) (direction : Side) (point : Point) (it : GridIterator Cell) :
    Option (GridIterator Cell × Cell) := do
  let (item, it) ← (match direction with
    | .right => it.next
    | .left => it.prev)
  match item with
  | some (_, cell) => some (it, cell)
  | none =>
      let line := t.topmostLine - point.line + t.screenLines - 1
      let column ← usub t.lastColumn point.column
      let it := t.grid.iterFrom ⟨line, column⟩
      let cell ← it.cell
      some (it, cell)

def skipFullwidth (t : Term) (direction : Side) (it : GridIterator Cell) (cell : Cell) :
    Option (GridIterator Cell × Cell) :=
  match direction with
  | .right =>
      if cell.flags.wideChar && decide (it.point.column < t.lastColumn) then do
        let (_, it) ← it.next
        some (it, cell)
      else if cell.flags.leadingWideCharSpacer then do
        let (item, it) ← it.next
        let (_, it) ← it.next
        some (it, (item.map Prod.snd).getD cell)
      else some (it, cell)
  | .left =>
      if cell.flags.wideCharSpacer then do
        let (item, it) ← it.prev
        let prevCell ← t.grid.cellAt (it.point.sub t.dims .grid 1)
        let it ← (if prevCell.flags.leadingWideCharSpacer then it.prev.map Prod.snd else some it)
        some (it, (item.map Prod.snd).getD cell)
      else some (it, cell)

section
variable {σ : Type} (dfa : Dfa σ) (direction : Side) (stop : Point)

def scanStart (t : Term) (start : Point) : Option (Scan σ) := do
  let it := t.grid.iterFrom start
  let cell ← it.cell
  let (it, cell) ← t.skipFullwidth direction it cell
  let wrapped ← it.cell
  some ⟨dfa.resetState, it, false, cell.c, wrapped.flags.wrapline, it.point, it.point⟩

/-- There is a linebreak between two cells of the scan. -/
def isLinebreak (t : Term) (lastPoint point : Point) (lastWrapped wrapped : Bool) : Bool :=
  (lastPoint.column = t.lastColumn ∧ point.column = 0 ∧ lastWrapped = false) ∨
    (lastPoint.column = 0 ∧ point.column = t.lastColumn ∧ wrapped = false)

def scanAdvance (t : Term) (s : Scan σ) (p : Parser σ) : Option (Option Point ⊕ Scan σ) := do
  let (it, cell) ← t.nextCell direction s.point s.it
  let done := decide (it.point = stop)
  let (it, cell) ← t.skipFullwidth direction it cell
  let wrapped ← it.cell
  let next : Scan σ := ⟨p, it, done, cell.c, wrapped.flags.wrapline, it.point, s.point⟩
  if t.isLinebreak s.point it.point s.lastWrapped wrapped.flags.wrapline then
    let state := dfa.nextEoiState p.state
    let regexMatch := if dfa.isMatch state then some s.point else p.regexMatch
    if regexMatch.isSome ∧ (dfa.isDead state = false ∨ 1 < p.consumedBytes) ∧ p.consumedBytes ≠ 0 then
      some (.inl regexMatch)
    else some (.inr { next with parser := dfa.resetState })
  else some (.inr next)

def scanRound (t : Term) (s : Scan σ) : Option (Option Point ⊕ Scan σ) :=
  match dfa.readBytes s.lastPoint true (charBytes direction s.c) s.parser with
  | .abort p => some (.inl p.regexMatch)
  | .retry p => some (.inr { s with parser := p })
  | .read p =>
      if s.point = stop ∨ s.done = true then
        let state := dfa.nextEoiState p.state
        some (.inl (
          if dfa.isMatch state then some s.point
          else if dfa.isDead state && p.consumedBytes == 1 then none
          else p.regexMatch))
      else t.scanAdvance dfa direction stop s p

/-- Find the next regex match. -/
def regexSearchInternal (t : Term) (fuel : Nat) (start : Point) : Option (Option Point) := do
  let s ← t.scanStart dfa direction start
  Fallible.loop (t.scanRound dfa direction stop) fuel s

end

/-- The number of cells that are skipped as parts of the character at a point. -/
def skipLength (t : Term) (direction : Side) (p : Point) : Nat :=
  match t.grid.cellAt p with
  | none => 0
  | some cell =>
      match direction with
      | .right =>
          if cell.flags.wideChar && decide (p.column < t.lastColumn) then 1
          else if cell.flags.leadingWideCharSpacer then min 2 (t.dims.cells - 1 - t.dims.index p)
          else 0
      | .left =>
          if cell.flags.wideCharSpacer then
            min (t.dims.index p)
              (if (t.grid.cellAt (t.dims.cellAhead .left p 2)).any (·.flags.leadingWideCharSpacer)
                then 2 else 1)
          else 0

section
variable {t : Term} {direction : Side} {p : Point}

/-- The wrap to the other end leads to the cell ahead. -/
theorem nextCell_returns (ht : t.WF) (direction : Side) (hp : t.InGrid p) :
    Returns (t.nextCell direction p (t.grid.iterFrom p)) fun r =>
      r.1 = t.grid.iterFrom (t.dims.cellAhead direction p 1) ∧
        t.grid.cellAt (t.dims.cellAhead direction p 1) = some r.2 := by
  have hvalid : t.dims.Valid := ht.grid.valid
  have hpos := hvalid.cells_pos
  have hwrap (i j : Nat) (hi : i < t.dims.cells) (hj : j < t.dims.cells)
      (hpoint : (⟨t.topmostLine - (t.dims.point i).line + t.screenLines - 1,
        t.lastColumn - (t.dims.point i).column⟩ : Point) = t.dims.point j) :
      Returns (do
        let column ← usub t.lastColumn (t.dims.point i).column
        let it := t.grid.iterFrom
          ⟨t.topmostLine - (t.dims.point i).line + t.screenLines - 1, column⟩
        let cell ← it.cell
        some (it, cell)) fun r =>
      r.1 = t.grid.iterFrom (t.dims.point j) ∧ t.grid.cellAt (t.dims.point j) = some r.2 := by
    obtain ⟨cell, hcell⟩ := Grid.cellNo_isSome ht.grid hj
    have hcolumn : (t.dims.point i).column ≤ t.lastColumn :=
      Nat.le_sub_one_of_lt (Dimensions.point_has hvalid hi).2.2
    simp only [usub_of_le hcolumn, Option.bind_eq_bind, Option.bind_some, hpoint]
    have hit : (t.grid.iterFrom (t.dims.point j)).cell = some cell := hcell
    rw [hit]
    exact .pure ⟨rfl, hcell⟩
  obtain ⟨i, hi, rfl⟩ := InGrid.exists_index ht.grid hp
  unfold nextCell
  cases direction with
  | right =>
      simp only [iterFrom_next ht.grid hi]
      by_cases hnext : i + 1 < t.dims.cells
      · obtain ⟨cell, hcell⟩ := Grid.cellNo_isSome ht.grid hnext
        rw [if_pos hnext, hcell, Dimensions.cellAhead_right_of_lt hnext]
        exact .pure ⟨rfl, hcell⟩
      · obtain rfl : i = t.dims.cells - 1 := by omega
        rw [if_neg hnext, Dimensions.cellAhead_right_last hvalid]
        refine hwrap _ 0 hi hpos ?_
        rw [Dimensions.point_last hvalid, Dimensions.point_zero, Point.eq_iff]
        refine ⟨?_, Nat.sub_self _⟩
        have hbottom : t.dims.bottommostLine = t.screenLines - 1 := rfl
        have htop : t.topmostLine = t.dims.topmostLine := rfl
        simp only [hbottom, htop]
        omega
  | left =>
      simp only [iterFrom_prev ht.grid hi]
      by_cases hprev : 0 < i
      · obtain ⟨cell, hcell⟩ := Grid.cellNo_isSome ht.grid (show i - 1 < t.dims.cells by omega)
        rw [if_pos hprev, hcell, Dimensions.cellAhead_left_of_le hi hprev]
        exact .pure ⟨rfl, hcell⟩
      · obtain rfl : i = 0 := by omega
        rw [if_neg hprev, Dimensions.cellAhead_left_zero hvalid]
        refine hwrap _ (t.dims.cells - 1) hi (by omega) ?_
        rw [Dimensions.point_last hvalid, Dimensions.point_zero, Point.eq_iff]
        refine ⟨?_, Nat.sub_zero _⟩
        have hbottom : t.dims.bottommostLine = t.screenLines - 1 := rfl
        have htop : t.topmostLine = t.dims.topmostLine := rfl
        simp only [hbottom, htop]
        omega

/-- One step of an iterator to the right, which stays on the last cell. -/
theorem iterFrom_next_min (ht : t.WF) {i : Nat} (hi : i < t.dims.cells) :
    ∃ item, (t.grid.iterFrom (t.dims.point i)).next =
      some (item, t.grid.iterFrom (t.dims.point (min (i + 1) (t.dims.cells - 1)))) := by
  rw [iterFrom_next ht.grid hi]
  split
  · next hnext =>
      obtain ⟨cell, hcell⟩ := Grid.cellNo_isSome ht.grid hnext
      rw [hcell, Nat.min_eq_left (by omega)]
      exact ⟨_, rfl⟩
  · next hnext =>
      have hlast : i = t.dims.cells - 1 := by omega
      rw [Nat.min_eq_right (by omega), ← hlast]
      exact ⟨_, rfl⟩

/-- One step of an iterator to the left, which stays on the first cell. -/
theorem iterFrom_prev_sub (ht : t.WF) {i : Nat} (hi : i < t.dims.cells) :
    ∃ item, (t.grid.iterFrom (t.dims.point i)).prev =
      some (item, t.grid.iterFrom (t.dims.point (i - 1))) := by
  rw [iterFrom_prev ht.grid hi]
  split
  · obtain ⟨cell, hcell⟩ := Grid.cellNo_isSome ht.grid (show i - 1 < t.dims.cells by omega)
    rw [hcell]
    exact ⟨_, rfl⟩
  · next hprev =>
      have hfirst : i - 1 = i := by omega
      rw [hfirst]
      exact ⟨_, rfl⟩

/-- The iterator ends on the last cell of the character, counted in the direction of the scan. -/
theorem skipFullwidth_returns (ht : t.WF) (direction : Side) (hp : t.InGrid p) {cell : Cell}
    (hcell : t.grid.cellAt p = some cell) :
    Returns (t.skipFullwidth direction (t.grid.iterFrom p) cell) fun r =>
      r.1 = t.grid.iterFrom (t.dims.cellAhead direction p (t.skipLength direction p)) := by
  have hvalid : t.dims.Valid := ht.grid.valid
  have hpos := hvalid.cells_pos
  obtain ⟨i, hi, rfl⟩ := InGrid.exists_index ht.grid hp
  have hpoint : (t.grid.iterFrom (t.dims.point i)).point = t.dims.point i := rfl
  unfold skipFullwidth skipLength
  simp only [hcell, hpoint]
  cases direction with
  | right =>
      simp only [Dimensions.index_point]
      split
      · next hwide =>
          obtain ⟨-, hroom⟩ := Bool.and_eq_true_iff.mp hwide
          have hroom := of_decide_eq_true hroom
          have hnext : i + 1 < t.dims.cells := by
            refine Nat.lt_of_le_of_ne hi fun heq => ?_
            have hlast : (t.dims.point i).column = t.lastColumn := by
              obtain rfl : i = t.dims.cells - 1 := by omega
              rw [Dimensions.point_last hvalid]
              rfl
            omega
          obtain ⟨item, hitem⟩ := iterFrom_next_min ht hi
          simp only [hitem, Option.bind_eq_bind, Option.bind_some]
          refine .pure ?_
          rw [Dimensions.cellAhead_right_of_lt hnext, Nat.min_eq_left (by omega)]
      · split
        · next hleading =>
            obtain ⟨item, hnext⟩ := iterFrom_next_min ht hi
            obtain ⟨item', hnext'⟩ := iterFrom_next_min ht
              (show min (i + 1) (t.dims.cells - 1) < t.dims.cells by omega)
            simp only [hnext, hnext', Option.bind_eq_bind, Option.bind_some]
            refine .pure ?_
            rw [Dimensions.cellAhead_right_of_lt (by omega)]
            have hmin : min (min (i + 1) (t.dims.cells - 1) + 1) (t.dims.cells - 1) =
                i + min 2 (t.dims.cells - 1 - i) := by omega
            rw [hmin]
        · refine .pure ?_
          rw [Dimensions.cellAhead_zero hvalid hp]
  | left =>
      simp only [Dimensions.index_point]
      split
      · next hspacer =>
          obtain ⟨item, hprev⟩ := iterFrom_prev_sub ht hi
          have hpoint' : (t.grid.iterFrom (t.dims.point (i - 1))).point = t.dims.point (i - 1) := rfl
          simp only [hprev, Option.bind_eq_bind, Option.bind_some, hpoint',
            Dimensions.sub_grid hvalid (show i - 1 < t.dims.cells by omega)]
          obtain ⟨prevCell, hprevCell⟩ := Grid.cellNo_isSome ht.grid
            (show i - 1 - 1 < t.dims.cells by omega)
          have hcellAt : t.grid.cellAt (t.dims.point (i - 1 - 1)) = some prevCell := hprevCell
          obtain ⟨item', hprev'⟩ := iterFrom_prev_sub ht (show i - 1 < t.dims.cells by omega)
          rw [hcellAt, Dimensions.cellAhead_left_of_le hi (Nat.min_le_left ..)]
          simp only [hprev', Option.map_some, Option.bind_some]
          have hleading : 2 ≤ i → ((t.grid.cellAt (t.dims.cellAhead .left (t.dims.point i) 2)).any
              fun cell => cell.flags.leadingWideCharSpacer) = prevCell.flags.leadingWideCharSpacer := by
            intro htwo
            rw [Dimensions.cellAhead_left_of_le hi htwo, ← Nat.sub_sub i 1 1, hcellAt, Option.any_some]
          by_cases hback : prevCell.flags.leadingWideCharSpacer = true
          · rw [if_pos hback]
            refine .pure ?_
            have hcount : i - 1 - 1 = i - min i (if ((t.grid.cellAt (t.dims.cellAhead .left
                (t.dims.point i) 2)).any fun cell => cell.flags.leadingWideCharSpacer) = true then 2
                else 1) := by
              by_cases htwo : 2 ≤ i
              · rw [hleading htwo, if_pos hback]
                omega
              · split
                · omega
                · omega
            rw [hcount]
          · rw [if_neg hback]
            refine .pure ?_
            have hcount : i - 1 = i - min i (if ((t.grid.cellAt (t.dims.cellAhead .left
                (t.dims.point i) 2)).any fun cell => cell.flags.leadingWideCharSpacer) = true then 2
                else 1) := by
              by_cases htwo : 2 ≤ i
              · rw [hleading htwo, if_neg hback]
                omega
              · split
                · omega
                · omega
            rw [hcount]
      · refine .pure ?_
        rw [Dimensions.cellAhead_zero hvalid hp]

theorem skipLength_le (t : Term) (direction : Side) (p : Point) : t.skipLength direction p ≤ 2 := by
  unfold skipLength
  split
  · exact Nat.zero_le 2
  · cases direction with
    | right =>
        simp only
        split
        · exact Nat.le_succ 1
        · split
          · exact Nat.min_le_left ..
          · exact Nat.zero_le 2
    | left =>
        simp only
        split
        · refine Nat.le_trans (Nat.min_le_right ..) ?_
          split
          · exact Nat.le_refl 2
          · exact Nat.le_succ 1
        · exact Nat.zero_le 2

end

end Term
end Velacritty
