import Velacritty.HintTyping
import Velacritty.Hyperlinks
import Velacritty.MachineInts
import Velacritty.MatchTracking

/-! What the visible cells show of the labels of hints, which are drawn in reading order. -/
namespace Velacritty
open Fallible

namespace Content

/-- Regex hints for keyboard shortcuts. -/
structure Hint where
  hintMatches : HintMatches
  labels : List (List Char)
  deriving DecidableEq, Repr

namespace Hint

/-- Where a match starts on the screen that begins at `viewportStart`. -/
def startFrom (bounds : RegexMatch) (viewportStart : Point) : Point :=
  if bounds.start < viewportStart then viewportStart else bounds.start

/-- What is shown at the next point, if it is within a hint: a character of the label, unless
the point is behind it, and whether that is the first one. -/
def advance (h : Hint) (viewportStart : Point) (numCols : Nat) (point : Point) :
    Option (Option (Option Char × Bool) × Hint) := do
  let (found, hintMatches) := h.hintMatches.advance point
  let h := { h with hintMatches }
  if found = false then some (none, h)
  else
    match hintMatches.hintMatches[hintMatches.index]? with
    | none => some (none, h)
    | some bounds =>
        let start := startFrom bounds viewportStart
        let lineDelta := i32 (point.line - start.line)
        let colDelta := i32 (i32 point.column - i32 start.column)
        let labelPosition := (i32 (i32 (lineDelta * i32 numCols) + colDelta)).toNat
        let label ← h.labels[hintMatches.index]?
        match label[labelPosition]? with
        | some c => some (some (some c, decide (labelPosition = 0)), h)
        | none => some (some (none, false), h)

def advanceAll (h : Hint) (viewportStart : Point) (numCols : Nat) :
    List Point → Option (List (Option (Option Char × Bool)))
  | [] => some []
  | point :: points => do
      let (shown, h) ← h.advance viewportStart numCols point
      let rest ← h.advanceAll viewportStart numCols points
      some (shown :: rest)

end Hint

/-- The match with the number `i` is the first one that has the point, which is `distance` cells
behind where the match starts on the screen. -/
structure FirstMatch (g : Grid Cell) (found : List RegexMatch) (point : Point) (i distance : Nat) :
    Prop where
  first : found.findIdx? (fun bounds => decide (bounds.Contains point)) = some i
  distance : ∃ bounds, found[i]? = some bounds ∧ g.dims.number point =
    g.dims.number (Hint.startFrom bounds ⟨-(g.displayOffset : Int), 0⟩) + distance

/-- What is shown at a point: of the first match that has it, the character of the label. -/
inductive ShowsLabel (g : Grid Cell) (found : List RegexMatch) (label : Nat → List Char) (point : Point) :
    Option (Option Char × Bool) → Prop
  | outside (none : ∀ bounds ∈ found, ¬ bounds.Contains point) : ShowsLabel g found label point .none
  | label {i distance : Nat} {c : Char} (first : FirstMatch g found point i distance)
      (char : (label i)[distance]? = some c) :
      ShowsLabel g found label point (some (some c, decide (distance = 0)))
  | behind {i distance : Nat} (first : FirstMatch g found point i distance)
      (short : (label i).length ≤ distance) : ShowsLabel g found label point (some (none, false))

variable {g : Grid Cell} {found : List RegexMatch} {label : Nat → List Char} {point : Point}

/-! ### One cell -/

theorem startFrom_le {bounds : RegexMatch} {top : Point} (h : bounds.Contains point) (htop : top ≤ point) :
    Hint.startFrom bounds top ≤ point := by
  unfold Hint.startFrom
  split
  · exact htop
  · exact h.1

theorem le_startFrom (bounds : RegexMatch) (top : Point) : top ≤ Hint.startFrom bounds top := by
  unfold Hint.startFrom
  split
  · exact Point.le_refl _
  · next h => exact Point.not_lt.mp h

/-- On a screen with less than 2³¹ cells, the label's position is the distance. -/
theorem labelPosition_eq {start : Point} (hshown : g.Shown point) (hle : start ≤ point)
    (htop : -(g.displayOffset : Int) ≤ start.line) (hcolumn : start.column < g.columns)
    (hcells : g.lines * g.columns < 2 ^ 31) : ∃ distance : Nat,
      g.dims.number point = g.dims.number start + distance ∧
      (i32 (i32 (i32 (point.line - start.line) * i32 g.columns) +
        i32 (i32 point.column - i32 start.column))).toNat = distance := by
  obtain ⟨⟨-, -, hpoint⟩, -, hbottom⟩ := hshown
  have hpoint : point.column < g.columns := hpoint
  rw [Point.le_def] at hle
  have hlines : 1 ≤ g.lines := by omega
  have hcolumns : g.columns ≤ g.lines * g.columns := Nat.le_mul_of_pos_left _ hlines
  have hheight : g.lines ≤ g.lines * g.columns := Nat.le_mul_of_pos_right _ (by omega)
  have hdims : g.dims.columns = g.columns := rfl
  obtain ⟨delta, hdelta⟩ := Int.eq_ofNat_of_zero_le (show 0 ≤ point.line - start.line by omega)
  have hlt : delta + 1 ≤ g.lines := by omega
  have hmul : (delta + 1) * g.columns ≤ g.lines * g.columns := Nat.mul_le_mul_right _ hlt
  rw [Nat.add_one_mul] at hmul
  have hnumber : g.dims.number point = g.dims.number start + (delta * g.columns : Nat) +
      (point.column - start.column : Int) := by
    have hline : point.line - g.dims.topmostLine = start.line - g.dims.topmostLine + delta := by omega
    unfold Dimensions.number
    rw [hline, Int.add_mul, hdims, Int.natCast_mul]
    omega
  have hpos : start.column ≤ delta * g.columns + point.column := by
    rcases Nat.eq_zero_or_pos delta with hzero | hpos
    · omega
    · have := Nat.le_mul_of_pos_left g.columns hpos
      omega
  refine ⟨delta * g.columns + point.column - start.column, by omega, ?_⟩
  have hfits : i32 (point.line - start.line) = delta := by
    rw [hdelta]
    exact i32_natCast (by omega)
  rw [hfits, i32_natCast (by omega), i32_natCast (by omega), i32_natCast (by omega), ← Int.natCast_mul,
    i32_natCast (by omega), i32_of_fits (x := point.column - start.column) (by omega) (by omega),
    i32_of_fits (by omega) (by omega)]
  omega

/-- The hints are drawn up to a point. -/
structure Hint.Ready (found : List RegexMatch) (label : Nat → List Char) (point : Point) (h : Hint) :
    Prop where
  matches_eq : h.hintMatches.hintMatches = found
  labels : ∀ i < found.length, h.labels[i]? = some (label i)
  passed : h.hintMatches.Passed point

theorem Hint.Ready.advance {h : Hint} (hready : h.Ready found label point) (hsorted : SortedByStart found)
    (hcolumns : ∀ bounds ∈ found, bounds.start.column < g.columns) (hshown : g.Shown point)
    (hcells : g.lines * g.columns < 2 ^ 31) :
    Returns (h.advance ⟨-(g.displayOffset : Int), 0⟩ g.columns point) fun r =>
      ShowsLabel g found label point r.1 ∧ r.2.Ready found label point := by
  obtain ⟨rfl, hlabels, hpassed⟩ := hready
  obtain ⟨hfound, hsame, hnext⟩ := HintMatches.advance_spec hsorted hpassed
  have hready : Hint.Ready h.hintMatches.hintMatches label point
      { h with hintMatches := (h.hintMatches.advance point).2 } := ⟨hsame, hlabels, hnext⟩
  simp only [Hint.advance]
  split
  · next hno =>
      refine .pure ⟨.outside fun bounds hbounds hcontains => ?_, hready⟩
      rw [hfound.mpr ⟨bounds, hbounds, hcontains⟩] at hno
      cases hno
  · next hyes =>
      obtain ⟨bounds, hat, hcontains, hfirst⟩ := HintMatches.advance_first hsorted hpassed (Bool.eq_true_of_not_eq_false hyes)
      have hlt := (List.getElem?_eq_some_iff.mp hat).1
      have htop : (⟨-(g.displayOffset : Int), 0⟩ : Point) ≤ point := by
        rw [Point.le_def]
        have := hshown.2.1
        simp only
        omega
      have hle := startFrom_le hcontains htop
      have hge := le_startFrom bounds ⟨-(g.displayOffset : Int), 0⟩
      obtain ⟨distance, hdistance, hposition⟩ := labelPosition_eq hshown hle
        (by rw [Point.le_def] at hge; simp only at hge; omega)
        (by
          unfold Hint.startFrom
          split
          · exact Nat.zero_lt_of_lt hshown.1.2.2
          · exact hcolumns bounds (List.mem_of_getElem? hat))
        hcells
      have hmatch : FirstMatch g h.hintMatches.hintMatches point (h.hintMatches.advance point).2.index
          distance := ⟨hfirst, bounds, hat, hdistance⟩
      rw [hsame, hat]
      simp only [hlabels _ hlt, hposition, Option.bind_eq_bind, Option.bind_some]
      split
      · next hchar => exact .pure ⟨.label hmatch hchar, hready⟩
      · next hchar => exact .pure ⟨.behind hmatch (List.getElem?_eq_none_iff.mp hchar), hready⟩

/-! ### A frame -/

theorem Hint.Ready.advanceAll {h : Hint} {points : List Point} (hsorted : SortedByStart found)
    (hcolumns : ∀ bounds ∈ found, bounds.start.column < g.columns) (hcells : g.lines * g.columns < 2 ^ 31)
    (hshown : ∀ point ∈ points, g.Shown point) (hpoints : points.Pairwise (· ≤ ·))
    (hready : ∀ point ∈ points, h.Ready found label point) :
    Returns (h.advanceAll ⟨-(g.displayOffset : Int), 0⟩ g.columns points) fun shown =>
      List.Forall₂ (ShowsLabel g found label) points shown := by
  induction points generalizing h with
  | nil => exact .pure .nil
  | cons point points ih =>
      obtain ⟨hfirst, hrest⟩ := List.pairwise_cons.mp hpoints
      obtain ⟨hat, hlater⟩ := List.forall_mem_cons.mp hshown
      have hstep := (List.forall_mem_cons.mp hready).1.advance hsorted hcolumns hat hcells
      refine hstep.bind fun r ⟨hshows, hmoved⟩ => ?_
      have hready' : ∀ p ∈ points, r.2.Ready found label p := fun p hp =>
        ⟨hmoved.matches_eq, hmoved.labels, hmoved.passed.mono (hfirst p hp)⟩
      exact (ih hlater hrest hready').bind fun shown hall => .pure (.cons hshows hall)

variable {Regex : Type} {search : VisibleSearch Regex} {t : Term} {s : HintState Regex}
  {hint : Velacritty.Hint Regex}

end Content
end Velacritty
