import Velacritty.HintTrimming

/-! The matches that are highlighted while the visible cells are drawn in reading order. -/
namespace Velacritty

structure HintMatches where
  /-- All visible matches. -/
  hintMatches : List RegexMatch
  /-- Index of the last match checked. -/
  index : Nat
  deriving DecidableEq, Repr

def RegexMatch.Contains (m : RegexMatch) (point : Point) : Prop := m.start ≤ point ∧ point ≤ m.stop

instance (m : RegexMatch) (point : Point) : Decidable (m.Contains point) :=
  inferInstanceAs (Decidable (_ ∧ _))

/-- The matches are in the order of their starts, which may overlap. -/
def SortedByStart (found : List RegexMatch) : Prop := found.Pairwise fun m n => m.start ≤ n.start

instance (found : List RegexMatch) : Decidable (SortedByStart found) :=
  inferInstanceAs (Decidable (found.Pairwise _))

namespace HintMatches

/-- Create new renderable matches iterator. -/
def new (hintMatches : List RegexMatch) : HintMatches := ⟨hintMatches, 0⟩

/-- Go on from the match at an index, which is the first one of the remaining matches. -/
def advanceFrom (point : Point) : List RegexMatch → Nat → Bool × Nat
  | [], index => (false, index)
  | bounds :: rest, index =>
      if point < bounds.start then (false, index)
      else if bounds.stop < point then advanceFrom point rest (index + 1)
      else (true, index)

/-- Advance the regex tracker to the next point; `true` if it is part of a match. -/
def advance (s : HintMatches) (point : Point) : Bool × HintMatches :=
  let (found, index) := advanceFrom point (s.hintMatches.drop s.index) s.index
  (found, { s with index })

def advanceAll (s : HintMatches) : List Point → List Bool
  | [] => []
  | point :: points =>
      let (found, s) := s.advance point
      found :: s.advanceAll points

variable {s : HintMatches} {rest found : List RegexMatch} {point : Point} {points : List Point}

/-- The matches that are passed have ended, and the point is in one of the others if it is in the
one that the tracker stops at. -/
theorem advanceFrom_spec (hsorted : SortedByStart rest) (point : Point) (index : Nat) :
    ∃ k, (advanceFrom point rest index).2 = index + k ∧ (∀ m ∈ rest.take k, m.stop < point) ∧
      ((advanceFrom point rest index).1 = true ↔ ∃ m ∈ rest, m.Contains point) := by
  induction rest generalizing index with
  | nil =>
      refine ⟨0, rfl, (fun m hm => nomatch hm), iff_of_false Bool.false_ne_true ?_⟩
      rintro ⟨m, hm, -⟩
      cases hm
  | cons bounds rest ih =>
      obtain ⟨hfirst, hrest⟩ := List.pairwise_cons.mp hsorted
      rw [advanceFrom]
      split
      · next hbefore =>
          -- The other matches start later.
          refine ⟨0, rfl, (fun m hm => nomatch hm), iff_of_false Bool.false_ne_true ?_⟩
          rintro ⟨m, hm, hstart, -⟩
          have hle : bounds.start ≤ m.start := by
            rcases List.mem_cons.mp hm with rfl | hm
            · exact Point.le_refl _
            · exact hfirst m hm
          exact Point.not_lt.mpr (Point.le_trans hle hstart) hbefore
      · next hstarted =>
          split
          · next hended =>
              obtain ⟨k, hindex, hpassed, hfound⟩ := ih hrest (index + 1)
              refine ⟨k + 1, by rw [hindex]; omega, ?_, ?_⟩
              · rintro m (_ | ⟨_, hm⟩)
                · exact hended
                · exact hpassed m hm
              · rw [hfound, List.exists_mem_cons_iff, or_iff_right]
                exact fun hc => Point.not_lt.mpr hc.2 hended
          · next hgoes =>
              refine ⟨0, rfl, (fun m hm => nomatch hm), iff_of_true rfl ?_⟩
              exact ⟨bounds, List.mem_cons_self, Point.not_lt.mp hstarted, Point.not_lt.mp hgoes⟩

def Passed (s : HintMatches) (point : Point) : Prop :=
  ∀ m ∈ s.hintMatches.take s.index, m.stop < point

theorem Passed.mono (h : s.Passed point) {point' : Point} (hle : point ≤ point') :
    s.Passed point' := by
  intro m hm
  have hlt := h m hm
  rw [Point.lt_def] at hlt ⊢
  rw [Point.le_def] at hle
  omega

theorem advance_spec (hsorted : SortedByStart s.hintMatches) (hpassed : s.Passed point) :
    ((s.advance point).1 = true ↔ ∃ m ∈ s.hintMatches, m.Contains point) ∧
      (s.advance point).2.hintMatches = s.hintMatches ∧ (s.advance point).2.Passed point := by
  obtain ⟨k, hindex, hmore, hfound⟩ :=
    advanceFrom_spec (hsorted.sublist (List.drop_sublist s.index _)) point s.index
  refine ⟨?_, rfl, ?_⟩
  · refine hfound.trans ⟨?_, ?_⟩
    · rintro ⟨m, hm, hc⟩
      exact ⟨m, List.mem_of_mem_drop hm, hc⟩
    · rintro ⟨m, hm, hc⟩
      rw [← List.take_append_drop s.index s.hintMatches] at hm
      rcases List.mem_append.mp hm with hm | hm
      · exact absurd (hpassed m hm) (Point.not_lt.mpr hc.2)
      · exact ⟨m, hm, hc⟩
  · intro m hm
    have htake : m ∈ s.hintMatches.take (s.index + k) := hindex ▸ hm
    rw [List.take_add] at htake
    rcases List.mem_append.mp htake with hm | hm
    · exact hpassed m hm
    · exact hmore m hm

theorem advanceFrom_found {index : Nat}
    (h : (advanceFrom point rest index).1 = true) : ∃ k bounds,
      (advanceFrom point rest index).2 = index + k ∧ rest[k]? = some bounds ∧
        bounds.Contains point := by
  induction rest generalizing index with
  | nil => cases h
  | cons bounds rest ih =>
      rw [advanceFrom] at h ⊢
      split at h
      · cases h
      · next hstarted =>
          rw [if_neg hstarted]
          split at h
          · next hended =>
              rw [if_pos hended]
              obtain ⟨k, found, hindex, hfound, hcontains⟩ := ih h
              exact ⟨k + 1, found, by omega, hfound, hcontains⟩
          · next hgoes =>
              rw [if_neg hgoes]
              exact ⟨0, bounds, rfl, rfl, Point.not_lt.mp hstarted, Point.not_lt.mp hgoes⟩

/-- The tracker stops at the first match that contains the point. -/
theorem advance_first (hsorted : SortedByStart s.hintMatches)
    (hpassed : s.Passed point) (h : (s.advance point).1 = true) : ∃ bounds,
      s.hintMatches[(s.advance point).2.index]? = some bounds ∧ bounds.Contains point ∧
      s.hintMatches.findIdx? (fun bounds => decide (bounds.Contains point)) =
        some (s.advance point).2.index := by
  obtain ⟨-, -, hnext⟩ := advance_spec hsorted hpassed
  obtain ⟨k, bounds, hindex, hbounds, hcontains⟩ := advanceFrom_found h
  rw [List.getElem?_drop] at hbounds
  have hat : s.hintMatches[(s.advance point).2.index]? = some bounds := by
    rw [← hbounds]
    exact congrArg (s.hintMatches[·]?) hindex
  refine ⟨bounds, hat, hcontains, ?_⟩
  obtain ⟨hlt, heq⟩ := List.getElem?_eq_some_iff.mp hat
  refine List.findIdx?_eq_some_iff_getElem.mpr ⟨hlt, decide_eq_true (heq ▸ hcontains), fun j hj hc => ?_⟩
  have hmem : s.hintMatches[j] ∈ s.hintMatches.take (s.advance point).2.index :=
    List.mem_take_iff_getElem.mpr ⟨j, Nat.lt_min.mpr ⟨hj, Nat.lt_trans hj hlt⟩, rfl⟩
  exact Point.not_lt.mpr (of_decide_eq_true hc).2 (hnext _ hmem)

/-- A tracker that has passed no match of the first point finds the matches of all. -/
theorem advanceAll_passed (hsorted : SortedByStart s.hintMatches)
    (hpoints : points.Pairwise (· ≤ ·)) (hpassed : ∀ point ∈ points, s.Passed point) :
    s.advanceAll points = points.map fun point => decide (∃ m ∈ s.hintMatches, m.Contains point) := by
  induction points generalizing s with
  | nil => rfl
  | cons point points ih =>
      obtain ⟨hfirst, hrest⟩ := List.pairwise_cons.mp hpoints
      obtain ⟨hfound, hsame, hnext⟩ := advance_spec hsorted (hpassed point List.mem_cons_self)
      have hlater := ih (s := (s.advance point).2) (hsame ▸ hsorted) hrest fun p hp =>
        hnext.mono (hfirst p hp)
      rw [hsame] at hlater
      rw [advanceAll, List.map_cons]
      exact congrArg₂ List.cons (Bool.eq_iff_iff.mpr (hfound.trans decide_eq_true_iff.symm)) hlater

theorem new_passed (found : List RegexMatch) (point : Point) : (new found).Passed point :=
  fun _ hm => nomatch hm

/-- The tracker finds, at each of the points in reading order, whether a match contains it. -/
theorem advanceAll_contains (hsorted : SortedByStart found) (hpoints : points.Pairwise (· ≤ ·)) :
    (new found).advanceAll points = points.map fun point => decide (∃ m ∈ found, m.Contains point) :=
  advanceAll_passed (s := new found) hsorted hpoints fun point _ => new_passed found point

/-- Behind a match that is nested in another one, the outer one goes on. -/
theorem advanceAll_contains_nested :
    (new [⟨⟨0, 0⟩, ⟨0, 4⟩⟩, ⟨⟨0, 1⟩, ⟨0, 2⟩⟩, ⟨⟨0, 6⟩, ⟨1, 0⟩⟩]).advanceAll
      [⟨0, 0⟩, ⟨0, 3⟩, ⟨0, 3⟩, ⟨0, 5⟩, ⟨0, 6⟩, ⟨1, 1⟩] = [true, true, true, false, true, false] :=
  advanceAll_contains (by decide) (by decide)

end HintMatches

end Velacritty
