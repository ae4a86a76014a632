import Velacritty.FrameDamage
import Velacritty.HintMatches

/-! Which highlights of hints a frame's damage clears. -/
namespace Velacritty
open Fallible

namespace FrameDamage
variable {f : FrameDamage} {start stop : Nat × Nat} {line column : Nat} {b : LineDamageBounds}

def Damages (f : FrameDamage) (line column : Nat) : Prop :=
  ∃ b, f.lines[line]? = some b ∧ b.left ≤ column ∧ column ≤ b.right

/-- The cell is in the range, in reading order. -/
def Between (start stop : Nat × Nat) (line column : Nat) : Prop :=
  (start.1 < line ∨ start.1 = line ∧ start.2 ≤ column) ∧
    (line < stop.1 ∨ line = stop.1 ∧ column ≤ stop.2)

/-- The frame is fully damaged, or a cell of the range is. -/
def Touches (f : FrameDamage) (start stop : Nat × Nat) : Prop :=
  f.full ∨ ∃ line column, Between start stop line column ∧ f.Damages line column

/-- Neither the end points of the range nor a line between them is damaged, but its first or its
last line is, inside of the range. -/
structure Misses (f : FrameDamage) (start stop : Nat × Nat) : Prop where
  part : ¬ f.full
  first : ¬ f.Damages start.1 start.2
  last : ¬ f.Damages stop.1 stop.2
  lines : ∀ line column, start.1 < line → line < stop.1 → ¬ f.Damages line column
  inside : ∃ b, b.left ≤ b.right ∧
    (f.lines[start.1]? = some b ∧ start.2 < b.left ∧ (start.1 = stop.1 → b.right < stop.2) ∨
      f.lines[stop.1]? = some b ∧ b.right < stop.2 ∧ start.1 < stop.1)

theorem damages_iff (hb : f.lines[line]? = some b) :
    f.Damages line column ↔ b.left ≤ column ∧ column ≤ b.right := by
  constructor
  · rintro ⟨c, hc, hin⟩
    obtain rfl := Option.some.inj (hb.symm.trans hc)
    exact hin
  · exact fun hin => ⟨b, hb, hin⟩

theorem isDamaged_iff (f : FrameDamage) (line : Nat) :
    f.lines[line]?.any LineDamageBounds.isDamaged = true ↔ ∃ column, f.Damages line column := by
  unfold Damages
  cases f.lines[line]? with
  | none => simp only [Option.any_none, Bool.false_eq_true, reduceCtorEq, false_and, exists_false]
  | some b =>
      simp only [Option.any_some, LineDamageBounds.isDamaged, decide_eq_true_eq, Option.some.injEq]
      constructor
      · exact fun hle => ⟨b.left, b, rfl, Nat.le_refl _, hle⟩
      · rintro ⟨column, c, rfl, hleft, hright⟩
        exact Nat.le_trans hleft hright

/-- What is tested: the end points of the range, and the lines between them. -/
theorem intersects_returns (hle : start.1 ≤ stop.1) (hstop : stop.1 < f.lines.length) :
    Returns (f.intersects start stop) fun hit => hit = true ↔ f.full ∨ f.Damages start.1 start.2 ∨
      f.Damages stop.1 stop.2 ∨ ∃ line column, start.1 < line ∧ line < stop.1 ∧
        f.Damages line column := by
  obtain ⟨a, ha⟩ : ∃ a, f.lines[start.1]? = some a :=
    ⟨_, List.getElem?_eq_getElem (Nat.lt_of_le_of_lt hle hstop)⟩
  obtain ⟨b, hb⟩ : ∃ b, f.lines[stop.1]? = some b := ⟨_, List.getElem?_eq_getElem hstop⟩
  simp only [intersects, ha, hb, Option.bind_eq_bind, Option.bind_some]
  apply Returns.pure
  rw [damages_iff ha, damages_iff hb, Bool.or_eq_true, Bool.or_eq_true, Bool.or_eq_true,
    decide_eq_true_eq, decide_eq_true_eq, List.any_eq_true, or_assoc, or_assoc]
  apply or_congr_right
  apply or_congr_right
  apply or_congr_right
  constructor
  · rintro ⟨line, hline, hdamaged⟩
    obtain ⟨column, hcell⟩ := (f.isDamaged_iff line).mp hdamaged
    rw [List.mem_range'_1] at hline
    exact ⟨line, column, hline.1, by omega, hcell⟩
  · rintro ⟨line, column, hlow, hhigh, hcell⟩
    refine ⟨line, ?_, (f.isDamaged_iff line).mpr ⟨column, hcell⟩⟩
    rw [List.mem_range'_1]
    omega

theorem Misses.touches (h : f.Misses start stop) (hle : start.1 ≤ stop.1) :
    f.Touches start stop := by
  right
  obtain ⟨b, hb, ⟨hline, hleft, hright⟩ | ⟨hline, hright, hlt⟩⟩ := h.inside
  · refine ⟨start.1, b.left, ⟨.inr ⟨rfl, Nat.le_of_lt hleft⟩, ?_⟩, b, hline, Nat.le_refl _, hb⟩
    rcases Nat.lt_or_eq_of_le hle with hlt | heq
    · exact .inl hlt
    · exact .inr ⟨heq, Nat.le_of_lt (Nat.lt_of_le_of_lt hb (hright heq))⟩
  · exact ⟨stop.1, b.right, ⟨.inl hlt, .inr ⟨rfl, Nat.le_of_lt hright⟩⟩, b, hline, hb,
      Nat.le_refl _⟩

/-- A range that is touched is missed if its damage has none of the tested places. -/
theorem Touches.misses (h : f.Touches start stop) (hpart : ¬ f.full)
    (hfirst : ¬ f.Damages start.1 start.2) (hlast : ¬ f.Damages stop.1 stop.2)
    (hlines : ∀ line column, start.1 < line → line < stop.1 → ¬ f.Damages line column) :
    f.Misses start stop := by
  refine ⟨hpart, hfirst, hlast, hlines, ?_⟩
  obtain ⟨line, column, ⟨hafter, hbefore⟩, hcell⟩ := h.resolve_left hpart
  obtain ⟨b, hb, hleft, hright⟩ := hcell
  refine ⟨b, Nat.le_trans hleft hright, ?_⟩
  rcases hafter with hafter | ⟨heq, hcolumn⟩
  · rcases hbefore with hbefore | ⟨heq, hcolumn⟩
    · exact absurd ⟨b, hb, hleft, hright⟩ (hlines line column hafter hbefore)
    · rw [heq] at hb hafter
      rw [damages_iff hb] at hlast
      exact .inr ⟨hb, by omega, hafter⟩
  · rw [← heq] at hb hbefore
    rw [damages_iff hb] at hfirst
    refine .inl ⟨hb, by omega, fun hsame => ?_⟩
    rw [hsame] at hb
    rw [damages_iff hb] at hlast
    omega

/-- The range ends at or after its start, in reading order. -/
def InOrder (start stop : Nat × Nat) : Prop :=
  start.1 < stop.1 ∨ start.1 = stop.1 ∧ start.2 ≤ stop.2

theorem InOrder.lines (h : InOrder start stop) : start.1 ≤ stop.1 := by
  rcases h with hlt | ⟨heq, -⟩
  · exact Nat.le_of_lt hlt
  · exact heq.le

theorem InOrder.first (h : InOrder start stop) : Between start stop start.1 start.2 :=
  ⟨.inr ⟨rfl, Nat.le_refl _⟩, h⟩

theorem InOrder.last (h : InOrder start stop) : Between start stop stop.1 stop.2 :=
  ⟨h, .inr ⟨rfl, Nat.le_refl _⟩⟩

/-- Where the test misses no damage, it is exact. -/
theorem intersects_touches (hle : InOrder start stop) (hstop : stop.1 < f.lines.length)
    (hno : ¬ f.Misses start stop) :
    Returns (f.intersects start stop) fun hit => hit = true ↔ f.Touches start stop := by
  apply (intersects_returns hle.lines hstop).mono
  intro hit htested
  rw [htested]
  constructor
  · rintro (h | h | h | ⟨line, column, hlow, hhigh, h⟩)
    · exact .inl h
    · exact .inr ⟨_, _, hle.first, h⟩
    · exact .inr ⟨_, _, hle.last, h⟩
    · exact .inr ⟨line, column, ⟨.inl hlow, .inl hhigh⟩, h⟩
  · intro htouches
    by_contra hnone
    rw [not_or, not_or, not_or] at hnone
    obtain ⟨hpart, hfirst, hlast, hlines⟩ := hnone
    refine hno (htouches.misses hpart hfirst hlast fun line column hlow hhigh hcell => ?_)
    exact hlines ⟨line, column, hlow, hhigh, hcell⟩

/-- Where the test misses damage, it does not report it. -/
theorem Misses.intersects (h : f.Misses start stop) (hle : InOrder start stop)
    (hstop : stop.1 < f.lines.length) : f.intersects start stop = some false := by
  obtain ⟨hit, hhit, htested⟩ := intersects_returns hle.lines hstop
  rw [hhit, Option.some.injEq]
  apply Bool.eq_false_of_not_eq_true
  intro htrue
  rcases htested.mp htrue with hfull | hfirst | hlast | ⟨line, column, hlow, hhigh, hcell⟩
  · exact h.part hfull
  · exact h.first hfirst
  · exact h.last hlast
  · exact h.lines line column hlow hhigh hcell

end FrameDamage

/-- A highlighted hint, and the number of frames since it was found. -/
structure HintHighlight where
  hint : Option RegexMatch
  age : Nat
  deriving DecidableEq, Repr

namespace HintHighlight
variable {f : FrameDamage} {h : HintHighlight} {m : RegexMatch} {lastColumn displayOffset : Nat}

def viewportStart (numLines displayOffset : Nat) (m : RegexMatch) : Nat × Nat :=
  ((pointToViewport displayOffset m.start).filter fun p => decide (p.1 < numLines)).getD (0, 0)

/-- The end of a match in the viewport; that of the viewport if the match ends out of it. -/
def viewportStop (numLines lastColumn displayOffset : Nat) (m : RegexMatch) : Nat × Nat :=
  ((pointToViewport displayOffset m.stop).filter fun p => decide (p.1 < numLines)).getD
    (numLines - 1, lastColumn)

/-- Check whether one hint highlight needs to be cleared. -/
def validate (numLines lastColumn displayOffset : Nat) (f : FrameDamage) (h : HintHighlight) :
    Option (FrameDamage × HintHighlight) :=
  match h.hint with
  | none => some (f, h)
  | some m =>
      let age := h.age + 1
      if age = 1 then some (f, ⟨some m, age⟩)
      else do
        let hit ← f.intersects (viewportStart numLines displayOffset m)
          (viewportStop numLines lastColumn displayOffset m)
        some (if hit then (f.markFullyDamaged, ⟨none, age⟩) else (f, ⟨some m, age⟩))

/-- Check whether a hint highlight needs to be cleared. -/
def validateHintHighlights (numLines lastColumn displayOffset : Nat) (f : FrameDamage)
    (highlightedHint viHighlightedHint : HintHighlight) :
    Option (FrameDamage × HintHighlight × HintHighlight) := do
  let (f, highlightedHint) ← highlightedHint.validate numLines lastColumn displayOffset f
  let (f, viHighlightedHint) ← viHighlightedHint.validate numLines lastColumn displayOffset f
  some (f, highlightedHint, viHighlightedHint)

def Visible (numLines displayOffset : Nat) (m : RegexMatch) : Prop :=
  ∃ line < numLines, m.start.line + displayOffset ≤ line ∧ line ≤ m.stop.line + displayOffset

/-- The frame is fully damaged, or a visible cell of the match is. -/
def Changed (f : FrameDamage) (lastColumn displayOffset : Nat) (m : RegexMatch) : Prop :=
  f.full ∨ ∃ (p : Point) (line : Nat), m.start ≤ p ∧ p ≤ m.stop ∧ p.column ≤ lastColumn ∧
    p.line + displayOffset = line ∧ f.Damages line p.column

section
variable {numLines : Nat} (hvisible : Visible numLines displayOffset m)
include hvisible

omit hvisible in
theorem Visible.bounds (h : Visible numLines displayOffset m) :
    m.start.line + displayOffset < numLines ∧ 0 ≤ m.stop.line + displayOffset := by
  obtain ⟨line, hlt, hstart, hstop⟩ := h
  omega

theorem viewportStart_eq : viewportStart numLines displayOffset m =
    if m.start.line + displayOffset < 0 then (0, 0)
    else ((m.start.line + displayOffset).toNat, m.start.column) := by
  have hlow := hvisible.bounds.1
  unfold viewportStart pointToViewport toUsize
  by_cases habove : m.start.line + displayOffset < 0
  · rw [if_pos habove, if_neg (Int.not_le.mpr habove)]
    rfl
  · have hin : (m.start.line + displayOffset).toNat < numLines := by omega
    rw [if_neg habove, if_pos (Int.not_lt.mp habove)]
    simp only [Option.bind_eq_bind, Option.bind_some, Option.filter_some, hin, decide_true, if_true,
      Option.getD_some]

theorem viewportStop_eq : viewportStop numLines lastColumn displayOffset m =
    if m.stop.line + displayOffset < numLines then
      ((m.stop.line + displayOffset).toNat, m.stop.column)
    else (numLines - 1, lastColumn) := by
  have hhigh := hvisible.bounds.2
  unfold viewportStop pointToViewport
  rw [toUsize_of_nonneg hhigh]
  simp only [Option.bind_eq_bind, Option.bind_some]
  by_cases hbelow : m.stop.line + displayOffset < numLines
  · have hin : (m.stop.line + displayOffset).toNat < numLines := by omega
    rw [if_pos hbelow]
    simp only [Option.filter_some, hin, decide_true, if_true, Option.getD_some]
  · have hout : ¬ (m.stop.line + displayOffset).toNat < numLines := by omega
    rw [if_neg hbelow]
    simp only [Option.filter_some, hout, decide_false, Bool.false_eq_true, if_false,
      Option.getD_none]

theorem viewport_inOrder (hle : m.start ≤ m.stop) (hcolumn : m.start.column ≤ lastColumn) :
    FrameDamage.InOrder (viewportStart numLines displayOffset m)
      (viewportStop numLines lastColumn displayOffset m) := by
  have hbounds := hvisible.bounds
  rw [Point.le_def] at hle
  rw [viewportStart_eq hvisible, viewportStop_eq hvisible]
  unfold FrameDamage.InOrder
  split_ifs
  · simp only
    omega
  · simp only
    omega
  · simp only
    omega
  · simp only
    omega

/-- The cells of the match in the viewport are those of the range that is tested. -/
theorem viewport_between {line column : Nat} (hline : line < numLines)
    (hcolumn : column ≤ lastColumn) {p : Point} (hp : p.line + displayOffset = line)
    (hpcolumn : p.column = column) :
    FrameDamage.Between (viewportStart numLines displayOffset m)
      (viewportStop numLines lastColumn displayOffset m) line column ↔
        m.start ≤ p ∧ p ≤ m.stop := by
  have hbounds := hvisible.bounds
  rw [Point.le_def, Point.le_def, viewportStart_eq hvisible, viewportStop_eq hvisible, hpcolumn]
  unfold FrameDamage.Between
  split_ifs
  · simp only
    omega
  · simp only
    omega
  · simp only
    omega
  · simp only
    omega

end

theorem changed_iff (hvisible : Visible f.lines.length displayOffset m)
    (hgrid : ∀ line column, f.Damages line column → column ≤ lastColumn) :
    Changed f lastColumn displayOffset m ↔
      f.Touches (viewportStart f.lines.length displayOffset m)
        (viewportStop f.lines.length lastColumn displayOffset m) := by
  apply or_congr_right
  constructor
  · rintro ⟨p, line, hstart, hstop, hcolumn, hline, hcell⟩
    have hlt : line < f.lines.length := by
      obtain ⟨b, hb, -⟩ := hcell
      exact (List.getElem?_eq_some_iff.mp hb).1
    exact ⟨line, p.column, (viewport_between hvisible hlt hcolumn hline rfl).mpr ⟨hstart, hstop⟩, hcell⟩
  · rintro ⟨line, column, hbetween, hcell⟩
    have hlt : line < f.lines.length := by
      obtain ⟨b, hb, -⟩ := hcell
      exact (List.getElem?_eq_some_iff.mp hb).1
    have hcolumn := hgrid line column hcell
    obtain ⟨hstart, hstop⟩ := (viewport_between (p := ⟨line - displayOffset, column⟩) hvisible hlt
      hcolumn (Int.sub_add_cancel _ _) rfl).mp hbetween
    exact ⟨_, line, hstart, hstop, hcolumn, Int.sub_add_cancel _ _, hcell⟩

/-- A highlight that was not found in this frame is dropped if its cells changed. -/
def DropsChanged (f : FrameDamage) (lastColumn displayOffset : Nat) (m : RegexMatch) : Prop :=
  ∀ age, age ≠ 0 → Returns (validate f.lines.length lastColumn displayOffset f ⟨some m, age⟩)
    fun r => Changed f lastColumn displayOffset m → r.2.hint = none

theorem dropsChanged_iff (hvisible : Visible f.lines.length displayOffset m)
    (hle : m.start ≤ m.stop) (hcolumn : m.start.column ≤ lastColumn)
    (hgrid : ∀ line column, f.Damages line column → column ≤ lastColumn) :
    DropsChanged f lastColumn displayOffset m ↔
      ¬ f.Misses (viewportStart f.lines.length displayOffset m)
        (viewportStop f.lines.length lastColumn displayOffset m) := by
  have horder := viewport_inOrder hvisible hle hcolumn
  have hstop : (viewportStop f.lines.length lastColumn displayOffset m).1 < f.lines.length := by
    have hbounds := hvisible.bounds
    rw [viewportStop_eq hvisible]
    obtain ⟨line, hlt, -⟩ := hvisible
    split
    · simp only
      omega
    · exact Nat.sub_one_lt_of_lt hlt
  unfold DropsChanged
  rw [changed_iff hvisible hgrid]
  constructor
  · intro hdrops hmisses
    have hdrops := hdrops 1 Nat.one_ne_zero
    simp only [validate, hmisses.intersects horder hstop, Option.bind_eq_bind, Option.bind_some]
      at hdrops
    exact nomatch hdrops.of_eq rfl (hmisses.touches horder.lines)
  · intro hno age hage
    obtain ⟨hit, hhit, htouches⟩ := FrameDamage.intersects_touches horder hstop hno
    have hold : age + 1 ≠ 1 := fun heq => hage (Nat.succ.inj heq)
    simp only [validate, if_neg hold, hhit, Option.bind_eq_bind, Option.bind_some]
    apply Returns.pure
    intro hchanged
    rw [if_pos (htouches.mpr hchanged)]

theorem intersects_marked {start stop : Nat × Nat} {hit : Bool}
    (h : f.intersects start stop = some hit) :
    f.markFullyDamaged.intersects start stop = some true := by
  unfold FrameDamage.intersects at h ⊢
  cases hstart : f.lines[start.1]? with
  | none =>
      rw [hstart] at h
      exact nomatch h
  | some a =>
      cases hstop : f.lines[stop.1]? with
      | none =>
          rw [hstart, hstop] at h
          exact nomatch h
      | some b =>
          simp only [FrameDamage.markFullyDamaged, hstart, hstop, Option.bind_eq_bind,
            Option.bind_some, Bool.true_or]

def Valid (f : FrameDamage) (lastColumn displayOffset : Nat) (h : HintHighlight) : Prop :=
  ∀ m, h.hint = some m → h.age ≠ 0 → DropsChanged f lastColumn displayOffset m

def Dropped (f : FrameDamage) (lastColumn displayOffset : Nat) (h h' : HintHighlight) : Prop :=
  ∀ m, h.hint = some m → h.age ≠ 0 → Changed f lastColumn displayOffset m → h'.hint = none

/-- A round keeps the frame, or marks it as fully damaged. -/
theorem Valid.validate (hvalid : Valid f lastColumn displayOffset h) :
    Returns (h.validate f.lines.length lastColumn displayOffset f) fun r =>
      (r.1 = f ∨ r.1 = f.markFullyDamaged) ∧ Dropped f lastColumn displayOffset h r.2 := by
  obtain ⟨hint, age⟩ := h
  cases hint with
  | none =>
      refine .pure ⟨.inl rfl, ?_⟩
      exact fun m hm => nomatch hm
  | some m =>
      by_cases hage : age = 0
      · subst hage
        refine .pure ⟨.inl rfl, ?_⟩
        exact fun m _ hage => absurd rfl hage
      · obtain ⟨r, hr, hdrops⟩ := hvalid m rfl hage age hage
        refine ⟨r, hr, ?_, ?_⟩
        · have hold : age + 1 ≠ 1 := fun heq => hage (Nat.succ.inj heq)
          simp only [HintHighlight.validate, if_neg hold, Option.bind_eq_bind,
            Option.bind_eq_some_iff] at hr
          obtain ⟨hit, -, hr⟩ := hr
          obtain rfl := Option.some.inj hr
          split
          · exact .inr rfl
          · exact .inl rfl
        · intro m' hm' _ hchanged
          obtain rfl := Option.some.inj hm'
          exact hdrops hchanged

/-- In a fully damaged frame every highlight is dropped. -/
theorem Valid.validate_marked (hvalid : Valid f lastColumn displayOffset h) :
    Returns (h.validate f.lines.length lastColumn displayOffset f.markFullyDamaged) fun r =>
      ∀ m, h.hint = some m → h.age ≠ 0 → r.2.hint = none := by
  obtain ⟨hint, age⟩ := h
  cases hint with
  | none =>
      apply Returns.pure
      exact fun m hm => nomatch hm
  | some m =>
      by_cases hage : age = 0
      · subst hage
        apply Returns.pure
        exact fun m _ hage => absurd rfl hage
      · obtain ⟨r, hr, -⟩ := hvalid m rfl hage age hage
        have hold : age + 1 ≠ 1 := fun heq => hage (Nat.succ.inj heq)
        simp only [HintHighlight.validate, if_neg hold, Option.bind_eq_bind,
          Option.bind_eq_some_iff] at hr ⊢
        obtain ⟨hit, hhit, -⟩ := hr
        rw [intersects_marked hhit]
        exact .pure fun _ _ _ => rfl

theorem validateHintHighlights_drops {v : HintHighlight}
    (hvalid : Valid f lastColumn displayOffset h) (hvi : Valid f lastColumn displayOffset v) :
    Returns (validateHintHighlights f.lines.length lastColumn displayOffset f h v) fun r =>
      Dropped f lastColumn displayOffset h r.2.1 ∧ Dropped f lastColumn displayOffset v r.2.2 := by
  refine hvalid.validate.bind fun r ⟨hframe, hdropped⟩ => ?_
  obtain ⟨f', h'⟩ := r
  rcases hframe with rfl | rfl
  · exact hvi.validate.bind fun r hr => .pure ⟨hdropped, hr.2⟩
  · refine hvi.validate_marked.bind fun r hr => .pure ⟨hdropped, ?_⟩
    exact fun m hm hage _ => hr m hm hage

/-- The test of a range is exact, and a highlight is dropped if its cells changed, unless the damage
is where the test does not look. -/
theorem intersects_exact_iff (f : FrameDamage) :
    (∀ start stop, FrameDamage.InOrder start stop → stop.1 < f.lines.length →
      ((Returns (f.intersects start stop) fun hit => hit = true ↔ f.Touches start stop) ↔
        ¬ f.Misses start stop)) ∧
    ∀ lastColumn displayOffset m, Visible f.lines.length displayOffset m → m.start ≤ m.stop →
      m.start.column ≤ lastColumn → (∀ line column, f.Damages line column → column ≤ lastColumn) →
      (DropsChanged f lastColumn displayOffset m ↔
        ¬ f.Misses (viewportStart f.lines.length displayOffset m)
          (viewportStop f.lines.length lastColumn displayOffset m)) := by
  constructor
  · intro start stop hle hstop
    constructor
    · intro hexact hmisses
      exact nomatch (hexact.of_eq (hmisses.intersects hle hstop)).mpr (hmisses.touches hle.lines)
    · exact FrameDamage.intersects_touches hle hstop
  · intro lastColumn displayOffset m hvisible hle hcolumn hgrid
    exact dropsChanged_iff hvisible hle hcolumn hgrid

/-- Damage that covers the start of a range is seen, and a highlight that starts there dropped. -/
theorem intersects_exact_start :
    let f : FrameDamage := ⟨false, [⟨0, 2, 4⟩, ⟨1, 10, 0⟩], []⟩
    (Returns (f.intersects (0, 3) (1, 5)) fun hit => hit = true ↔ f.Touches (0, 3) (1, 5)) ∧
      DropsChanged f 9 2 ⟨⟨-2, 3⟩, ⟨-1, 5⟩⟩ := by
  intro f
  have hexact := intersects_exact_iff f
  have hno : ¬ f.Misses (0, 3) (1, 5) :=
    fun hmisses => hmisses.first ⟨_, rfl, by decide, by decide⟩
  constructor
  · exact (hexact.1 (0, 3) (1, 5) (.inl (by decide)) (by decide)).mpr hno
  · refine (hexact.2 9 2 ⟨⟨-2, 3⟩, ⟨-1, 5⟩⟩ ⟨0, by decide, by decide, by decide⟩ (.inl (by decide))
      (by decide) ?_).mpr hno
    rintro line column ⟨b, hb, -, hright⟩
    have hmem : b = ⟨0, 2, 4⟩ ∨ b = ⟨1, 10, 0⟩ := by
      simpa only [f, List.mem_cons, List.not_mem_nil, or_false] using List.mem_of_getElem? hb
    rcases hmem with rfl | rfl
    · exact Nat.le_trans hright (by decide)
    · exact Nat.le_trans hright (by decide)

/-- Damage between the two ends of a range on one line is not seen, and a highlight of these cells
stays. -/
theorem intersects_misses_middle :
    let f : FrameDamage := ⟨false, [⟨0, 3, 5⟩], []⟩
    f.intersects (0, 0) (0, 9) = some false ∧ f.Touches (0, 0) (0, 9) ∧
      ¬ DropsChanged f 9 0 ⟨⟨0, 0⟩, ⟨0, 9⟩⟩ := by
  intro f
  refine ⟨rfl, .inr ⟨0, 3, ?_, _, rfl, by decide, by decide⟩, fun hdrops => ?_⟩
  · constructor
    · exact .inr ⟨rfl, by decide⟩
    · exact .inr ⟨rfl, by decide⟩
  · have hchanged : Changed f 9 0 ⟨⟨0, 0⟩, ⟨0, 9⟩⟩ :=
      .inr ⟨⟨0, 3⟩, 0, .inr ⟨rfl, by decide⟩, .inr ⟨rfl, by decide⟩, by decide, rfl,
        ⟨0, 3, 5⟩, rfl, by decide, by decide⟩
    exact nomatch (hdrops 1 (by decide)).of_eq rfl hchanged

end HintHighlight
end Velacritty
