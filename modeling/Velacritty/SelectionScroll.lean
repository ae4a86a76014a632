import Velacritty.Selection

/-! A selection moves along with the text of a region that scrolls. -/
namespace Velacritty
namespace Selection
variable {s s' : Selection} {d : Dimensions} {top bottom delta line : Int}

/-- The line scrolls with the region `top..bottom`, which includes the history if it starts
at the top of the screen. -/
def Scrolls (top bottom line : Int) : Prop := (top ≤ line ∨ top = 0) ∧ line < bottom

instance (top bottom line : Int) : Decidable (Scrolls top bottom line) :=
  inferInstanceAs (Decidable (_ ∧ _))

instance (s : Selection) (line : Int) : Decidable (s.Covers line) :=
  inferInstanceAs (Decidable (_ ∧ _))

def upper (s : Selection) : Anchor := if s.isReversed then s.stop else s.start

def lower (s : Selection) : Anchor := if s.isReversed then s.start else s.stop

/-- Where an anchor of the region goes: by `delta` lines up, but not out of the region. Held
back at an edge it is at the end of the line there, unless the selection is a block. -/
def movedAnchor (ty : SelectionType) (d : Dimensions) (top bottom delta : Int) (a : Anchor) : Anchor :=
  if Scrolls top bottom a.point.line then
    let line := a.point.line - delta
    if line < top ∧ top ≠ 0 then
      if ty = .block then { a with point.line := top } else ⟨⟨top, 0⟩, .left⟩
    else if bottom ≤ line then
      if ty = .block then { a with point.line := bottom - 1 } else ⟨⟨bottom - 1, d.lastColumn⟩, .right⟩
    else { a with point.line := line }
  else a

/-- All lines of the selection are in the region, and leave it. -/
def Lost (top bottom delta : Int) (s : Selection) : Prop :=
  ∀ line, s.Covers line → Scrolls top bottom line ∧ ¬ Scrolls top bottom (line - delta)

/-- Each end has moved. The selection covers the lines of the region that come from it, the
same other lines, and nothing else if both ends are in the region. -/
structure Follows (d : Dimensions) (top bottom delta : Int) (s s' : Selection) : Prop where
  ty : s'.ty = s.ty
  start : s'.start = movedAnchor s.ty d top bottom delta s.start
  stop : s'.stop = movedAnchor s.ty d top bottom delta s.stop
  kept : ∀ line, Scrolls top bottom line → Scrolls top bottom (line + delta) →
    s.Covers (line + delta) → s'.Covers line
  other : ∀ line, ¬ Scrolls top bottom line → (s'.Covers line ↔ s.Covers line)
  only : Scrolls top bottom s.upper.point.line → Scrolls top bottom s.lower.point.line →
    ∀ line, Scrolls top bottom line → s'.Covers line →
      Scrolls top bottom (line + delta) ∧ s.Covers (line + delta)

/-- An end is moved past the bottom of the screen, or out of the region on the side where
the other end is. -/
def Slips (d : Dimensions) (top bottom delta : Int) (s : Selection) : Prop :=
  Scrolls top bottom s.lower.point.line ∧ bottom = d.screenLines ∧
      bottom ≤ s.lower.point.line - delta ∨
    Scrolls top bottom s.upper.point.line ∧ ¬ Scrolls top bottom s.lower.point.line ∧
      bottom ≤ s.upper.point.line - delta ∨
    ¬ Scrolls top bottom s.upper.point.line ∧ Scrolls top bottom s.lower.point.line ∧
      s.lower.point.line - delta < top

instance (d : Dimensions) (top bottom delta : Int) (s : Selection) :
    Decidable (s.Slips d top bottom delta) :=
  inferInstanceAs (Decidable (_ ∨ _))

theorem upper_le_lower (s : Selection) : s.upper.point.line ≤ s.lower.point.line := by
  unfold upper lower isReversed
  split
  · next h =>
      have hlt := Point.lt_def.mp (of_decide_eq_true h)
      omega
  · next h =>
      have hle : ¬ s.stop.point < s.start.point := fun hlt => h (decide_eq_true hlt)
      rw [Point.lt_def, not_or] at hle
      exact Int.not_lt.mp hle.1

theorem covers_iff (s : Selection) (line : Int) :
    s.Covers line ↔ s.upper.point.line ≤ line ∧ line ≤ s.lower.point.line := by
  have hle := s.upper_le_lower
  unfold Covers
  unfold upper lower at *
  split
  · next h =>
      rw [if_pos h, if_pos h] at hle
      rw [min_eq_right hle, max_eq_left hle]
  · next h =>
      rw [if_neg h, if_neg h] at hle
      rw [min_eq_left hle, max_eq_right hle]

/-- A selection inside of the region is lost if its lower end leaves at the top, or its upper
one at the bottom. -/
theorem lost_iff (s : Selection) : s.Lost top bottom delta ↔
    Scrolls top bottom s.upper.point.line ∧ Scrolls top bottom s.lower.point.line ∧
      (s.lower.point.line - delta < top ∧ top ≠ 0 ∨ bottom ≤ s.upper.point.line - delta) := by
  have hle := s.upper_le_lower
  constructor
  · intro hlost
    obtain ⟨hupper, hupper'⟩ := hlost _ ((covers_iff _ _).mpr ⟨Int.le_refl _, hle⟩)
    obtain ⟨hlower, hlower'⟩ := hlost _ ((covers_iff _ _).mpr ⟨hle, Int.le_refl _⟩)
    refine ⟨hupper, hlower, ?_⟩
    by_contra hnot
    have htop := hlost (top + delta) ((covers_iff _ _).mpr (by unfold Scrolls at *; omega))
    unfold Scrolls at *
    omega
  · rintro ⟨hupper, hlower, hout⟩ line hline
    rw [covers_iff] at hline
    unfold Scrolls at *
    omega

/-- The upper end moves, or the selection is lost at the bottom. -/
theorem rotateStart_eq (hbottom : bottom ≤ d.screenLines) (hslip : ¬ s.Slips d top bottom delta) :
    rotateStart s.ty d top bottom delta s.upper s.lower =
      if Scrolls top bottom s.upper.point.line ∧ bottom ≤ s.upper.point.line - delta then none
      else some (movedAnchor s.ty d top bottom delta s.upper) := by
  have hle := s.upper_le_lower
  unfold Slips at hslip
  by_cases hin : Scrolls top bottom s.upper.point.line
  · have hin' := hin
    unfold Scrolls at hin' hslip
    unfold rotateStart movedAnchor
    rw [if_pos hin', if_pos hin]
    by_cases hout : bottom ≤ s.upper.point.line - delta
    · have hlower : s.lower.point.line < bottom := by omega
      have hmin : bottom ≤ min (s.upper.point.line - delta) d.bottommostLine := by
        unfold Dimensions.bottommostLine
        omega
      exact (if_pos ⟨hmin, hlower⟩).trans (if_pos ⟨hin, hout⟩).symm
    · have hmin : min (s.upper.point.line - delta) d.bottommostLine = s.upper.point.line - delta := by
        unfold Dimensions.bottommostLine
        omega
      simp only [hmin, hin, hout, and_false, false_and, if_false, ne_eq, ite_not]
      split
      · split
        · rfl
        · rfl
      · rfl
  · rw [if_neg (not_and_of_not_left _ hin)]
    unfold rotateStart movedAnchor
    rw [if_neg hin]
    exact if_neg hin

/-- The line of an anchor: as before outside of the region, else moved or at an edge. -/
theorem movedAnchor_line (ty : SelectionType) (d : Dimensions) (top bottom delta : Int) (a : Anchor) :
    ¬ Scrolls top bottom a.point.line ∧
        (movedAnchor ty d top bottom delta a).point.line = a.point.line ∨
      Scrolls top bottom a.point.line ∧
        (a.point.line - delta < top ∧ top ≠ 0 ∧ (movedAnchor ty d top bottom delta a).point.line = top ∨
          (top ≤ a.point.line - delta ∨ top = 0) ∧
            (movedAnchor ty d top bottom delta a).point.line = min (a.point.line - delta) (bottom - 1)) := by
  unfold movedAnchor
  by_cases hin : Scrolls top bottom a.point.line
  · rw [if_pos hin]
    refine .inr ⟨hin, ?_⟩
    simp only
    split
    · next htop =>
        refine .inl ⟨htop.1, htop.2, ?_⟩
        split
        · rfl
        · rfl
    · next htop =>
        refine .inr ⟨by omega, ?_⟩
        split
        · next hout =>
            have hmin : min (a.point.line - delta) (bottom - 1) = bottom - 1 := by omega
            rw [hmin]
            split
            · rfl
            · rfl
        · next hout =>
            have hmin : min (a.point.line - delta) (bottom - 1) = a.point.line - delta := by omega
            exact hmin.symm
  · rw [if_neg hin]
    exact .inl ⟨hin, rfl⟩

/-- The lower end moves, or the selection is lost at the top. -/
theorem rotateStop_eq (hbottom : bottom ≤ d.screenLines) (hslip : ¬ s.Slips d top bottom delta)
    (hstay : ¬ (Scrolls top bottom s.upper.point.line ∧ bottom ≤ s.upper.point.line - delta)) :
    rotateStop s.ty d top bottom delta (movedAnchor s.ty d top bottom delta s.upper) s.lower =
      if Scrolls top bottom s.upper.point.line ∧ Scrolls top bottom s.lower.point.line ∧
          s.lower.point.line - delta < top ∧ top ≠ 0 then none
      else some (movedAnchor s.ty d top bottom delta s.lower) := by
  have hle := s.upper_le_lower
  unfold Slips at hslip
  by_cases hin : Scrolls top bottom s.lower.point.line
  · have hin' := hin
    have hline : s.lower.point.line - delta < bottom ∧
          min (s.lower.point.line - delta) d.bottommostLine = s.lower.point.line - delta ∨
        bottom ≤ s.lower.point.line - delta ∧
          bottom ≤ min (s.lower.point.line - delta) d.bottommostLine := by
      unfold Scrolls at hslip hin'
      unfold Dimensions.bottommostLine
      omega
    have hupper := movedAnchor_line s.ty d top bottom delta s.upper
    unfold Scrolls at hin' hslip hupper hstay
    unfold rotateStop
    rw [if_pos hin']
    simp only
    generalize min (s.lower.point.line - delta) d.bottommostLine = n at hline ⊢
    generalize (movedAnchor s.ty d top bottom delta s.upper).point.line = m at hupper ⊢
    by_cases hlost : Scrolls top bottom s.upper.point.line ∧ Scrolls top bottom s.lower.point.line ∧
      s.lower.point.line - delta < top ∧ top ≠ 0
    · rw [if_pos hlost]
      unfold Scrolls at hlost
      exact if_pos (by omega)
    · rw [if_neg hlost]
      unfold Scrolls at hlost
      have hstays : ¬ n < m ∧ ¬ (s.lower.point.line - delta < top ∧ top ≠ 0) := by omega
      unfold movedAnchor
      rw [if_neg hstays.1, if_pos hin]
      simp only [if_neg hstays.2, ne_eq, ite_not]
      rcases hline with ⟨hout, rfl⟩ | ⟨hout, hn⟩
      · rw [if_neg (Int.not_le.mpr hout), if_neg (Int.not_le.mpr hout)]
      · rw [if_pos hn, if_pos hout]
        split
        · rfl
        · rfl
  · rw [if_neg fun h => hin h.2.1]
    unfold rotateStop movedAnchor
    rw [if_neg hin]
    exact if_neg hin

/-- Unless an end slips, the selection is lost, or both ends move. -/
theorem rotate_eq (hbottom : bottom ≤ d.screenLines) (hslip : ¬ s.Slips d top bottom delta) :
    s.Lost top bottom delta ∧ s.rotate d top bottom delta = none ∨
      ¬ s.Lost top bottom delta ∧ s.rotate d top bottom delta =
        some ⟨s.ty, movedAnchor s.ty d top bottom delta s.start,
          movedAnchor s.ty d top bottom delta s.stop⟩ := by
  have hle := s.upper_le_lower
  have hrotate : s.rotate d top bottom delta =
      (rotateStart s.ty d top bottom delta s.upper s.lower >>= fun upper =>
        rotateStop s.ty d top bottom delta upper s.lower >>= fun lower =>
          some (if s.isReversed then ⟨s.ty, lower, upper⟩ else ⟨s.ty, upper, lower⟩)) := by
    unfold rotate upper lower
    cases s.isReversed with
    | true => rfl
    | false => rfl
  rw [hrotate, rotateStart_eq hbottom hslip, lost_iff]
  by_cases hout : Scrolls top bottom s.upper.point.line ∧ bottom ≤ s.upper.point.line - delta
  · rw [if_pos hout]
    refine .inl ⟨⟨hout.1, ?_, .inr hout.2⟩, rfl⟩
    by_contra hlower
    exact hslip (.inr (.inl ⟨hout.1, hlower, hout.2⟩))
  · rw [if_neg hout, Option.bind_eq_bind, Option.bind_some, rotateStop_eq hbottom hslip hout]
    by_cases hlost : Scrolls top bottom s.upper.point.line ∧ Scrolls top bottom s.lower.point.line ∧
      s.lower.point.line - delta < top ∧ top ≠ 0
    · rw [if_pos hlost]
      exact .inl ⟨⟨hlost.1, hlost.2.1, .inl hlost.2.2⟩, rfl⟩
    · rw [if_neg hlost]
      refine .inr ⟨fun ⟨hupper, hlower, hleaves⟩ => ?_, ?_⟩
      · rcases hleaves with htop | hbot
        · exact hlost ⟨hupper, hlower, htop⟩
        · exact hout ⟨hupper, hbot⟩
      · unfold upper lower
        split
        · rfl
        · rfl

theorem moved_follows (d : Dimensions) (hlost : ¬ s.Lost top bottom delta) : s.Follows d top bottom delta
      ⟨s.ty, movedAnchor s.ty d top bottom delta s.start, movedAnchor s.ty d top bottom delta s.stop⟩ := by
  have hle := s.upper_le_lower
  have hcovers : ∀ line, Covers ⟨s.ty, movedAnchor s.ty d top bottom delta s.start,
      movedAnchor s.ty d top bottom delta s.stop⟩ line ↔
      min (movedAnchor s.ty d top bottom delta s.upper).point.line
          (movedAnchor s.ty d top bottom delta s.lower).point.line ≤ line ∧
        line ≤ max (movedAnchor s.ty d top bottom delta s.upper).point.line
          (movedAnchor s.ty d top bottom delta s.lower).point.line := by
    intro line
    unfold upper lower Covers
    split
    · rw [min_comm, max_comm]
    · rfl
  have hupper := movedAnchor_line s.ty d top bottom delta s.upper
  have hlower := movedAnchor_line s.ty d top bottom delta s.lower
  rw [lost_iff] at hlost
  refine ⟨rfl, rfl, rfl, fun line hin hfrom hcover => ?_, fun line hout => ?_,
    fun hup hlow line hin hcover => ?_⟩
  · rw [hcovers]
    rw [covers_iff] at hcover
    unfold Scrolls at *
    omega
  · rw [hcovers, covers_iff]
    unfold Scrolls at *
    omega
  · obtain ⟨-, hupper⟩ := hupper.resolve_left fun hno => hno.1 hup
    obtain ⟨-, hlower⟩ := hlower.resolve_left fun hno => hno.1 hlow
    rw [hcovers] at hcover
    rw [covers_iff]
    have hstays : ¬ (s.lower.point.line - delta < top ∧ top ≠ 0) ∧
        s.upper.point.line - delta < bottom := by
      constructor
      · exact fun hleft => hlost ⟨hup, hlow, .inl hleft⟩
      · exact Int.not_le.mp fun hleft => hlost ⟨hup, hlow, .inr hleft⟩
    clear hlost
    unfold Scrolls at *
    omega

/-- A selection is lost exactly if all of its lines leave the region, and follows its text
otherwise, unless an end slips. -/
theorem rotate_follows (hbottom : bottom ≤ d.screenLines) (hslip : ¬ s.Slips d top bottom delta) :
    (s.rotate d top bottom delta = none ↔ s.Lost top bottom delta) ∧
      ∀ s', s.rotate d top bottom delta = some s' → s.Follows d top bottom delta s' := by
  rcases rotate_eq hbottom hslip with ⟨hlost, hnone⟩ | ⟨hkept, hsome⟩
  · rw [hnone]
    exact ⟨iff_of_true rfl hlost, fun s' hs' => nomatch hs'⟩
  · rw [hsome]
    refine ⟨iff_of_false (fun hnone => nomatch hnone) hkept, fun s' hs' => ?_⟩
    cases hs'
    exact moved_follows d hkept

theorem rotate_follows_up :
    (rotate ⟨.simple, ⟨⟨1, 0⟩, .left⟩, ⟨⟨2, 1⟩, .right⟩⟩ ⟨3, 3, 2⟩ 0 3 1 = none ↔
      Lost 0 3 1 ⟨.simple, ⟨⟨1, 0⟩, .left⟩, ⟨⟨2, 1⟩, .right⟩⟩) ∧
    ∀ s', rotate ⟨.simple, ⟨⟨1, 0⟩, .left⟩, ⟨⟨2, 1⟩, .right⟩⟩ ⟨3, 3, 2⟩ 0 3 1 = some s' →
      Follows ⟨3, 3, 2⟩ 0 3 1 ⟨.simple, ⟨⟨1, 0⟩, .left⟩, ⟨⟨2, 1⟩, .right⟩⟩ s' :=
  rotate_follows (by decide) (by decide)

/-- A selection that goes on below the region covers the blank line at the end of the region.
One whose lines all leave the screen at the bottom stays on the last line. One that starts
above the region is dropped, with a line that is not in the region. -/
theorem rotate_covers_others :
    (∃ s', rotate ⟨.simple, ⟨⟨0, 0⟩, .left⟩, ⟨⟨2, 1⟩, .right⟩⟩ ⟨3, 3, 2⟩ 0 2 1 = some s' ∧
      s'.Covers 1 ∧ Scrolls 0 2 1 ∧ ¬ Scrolls 0 2 (1 + 1)) ∧
    (Lost 0 3 (-2) ⟨.simple, ⟨⟨1, 0⟩, .left⟩, ⟨⟨2, 1⟩, .right⟩⟩ ∧
      rotate ⟨.simple, ⟨⟨1, 0⟩, .left⟩, ⟨⟨2, 1⟩, .right⟩⟩ ⟨3, 3, 2⟩ 0 3 (-2) =
        some ⟨.simple, ⟨⟨2, 0⟩, .left⟩, ⟨⟨2, 1⟩, .right⟩⟩) ∧
    (rotate ⟨.simple, ⟨⟨0, 0⟩, .left⟩, ⟨⟨1, 1⟩, .right⟩⟩ ⟨3, 3, 2⟩ 1 3 2 = none ∧
      ¬ Lost 1 3 2 ⟨.simple, ⟨⟨0, 0⟩, .left⟩, ⟨⟨1, 1⟩, .right⟩⟩) := by
  refine ⟨⟨_, rfl, by decide, by decide, by decide⟩, ⟨?_, rfl⟩, ⟨rfl, ?_⟩⟩
  · rw [lost_iff]
    decide
  · rw [lost_iff]
    decide

end Selection
end Velacritty
