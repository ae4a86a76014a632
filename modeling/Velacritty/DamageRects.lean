import Velacritty.FrameDamage

/-! The rectangles of the window that damaged lines make. -/
namespace Velacritty

namespace RenderDamageIterator

def rectForLine (sizeInfo : SizeInfo) (lineDamage : LineDamageBounds) : Rect :=
  let yTop := sizeInfo.height - sizeInfo.paddingY
  let x := u32 (sizeInfo.paddingX + u32 (u32 lineDamage.left * sizeInfo.cellWidth))
  let lineOffset := u32 (u32 (lineDamage.line + 1) * sizeInfo.cellHeight)
  -- `saturating_sub`, as the subtraction of natural numbers.
  let y := yTop - lineOffset
  let width := u32 (u32 (lineDamage.right - lineDamage.left + 1) * sizeInfo.cellWidth)
  ⟨i32 x, i32 y, i32 width, i32 sizeInfo.cellHeight⟩

/-- Make sure to damage near cells to include wide chars. -/
def overdamage (sizeInfo : SizeInfo) (rect : Rect) : Rect :=
  let x := max (i32 (rect.x - i32 sizeInfo.cellWidth)) 0
  let width := min (max (i32 (i32 sizeInfo.width - x)) 0)
    (i32 (rect.width + i32 (2 * i32 sizeInfo.cellWidth)))
  let y := max (i32 (rect.y - (i32 sizeInfo.cellHeight).tdiv 2)) 0
  let height := min (max (i32 (i32 sizeInfo.height - y)) 0)
    (i32 (rect.height + i32 sizeInfo.cellHeight))
  ⟨x, y, width, height⟩

/-- Check if two given rectangles overlap. -/
def rectsOverlap (lhs rhs : Rect) : Bool :=
  decide ¬ (
    i32 (lhs.x + lhs.width) < rhs.x
    ∨ i32 (rhs.x + rhs.width) < lhs.x
    ∨ i32 (lhs.y + lhs.height) < rhs.y
    ∨ i32 (rhs.y + rhs.height) < lhs.y)

/-- Merge two rectangles by producing the smallest rectangle that contains both. -/
def mergeRects (lhs rhs : Rect) : Rect :=
  let leftX := min lhs.x rhs.x
  let rightX := max (i32 (lhs.x + lhs.width)) (i32 (rhs.x + rhs.width))
  let yTop := max (i32 (lhs.y + lhs.height)) (i32 (rhs.y + rhs.height))
  let yBottom := min lhs.y rhs.y
  ⟨leftX, yBottom, i32 (rightX - leftX), i32 (yTop - yBottom)⟩

def mergeOverlapping (sizeInfo : SizeInfo) (total : Rect) :
    List LineDamageBounds → Rect × List LineDamageBounds
  | [] => (total, [])
  | line :: lines =>
      let nextRect := overdamage sizeInfo (rectForLine sizeInfo line)
      if rectsOverlap total nextRect then
        mergeOverlapping sizeInfo (mergeRects total nextRect) lines
      else (total, line :: lines)

/-- `Iterator::next`. -/
def next (sizeInfo : SizeInfo) : List LineDamageBounds → Option (Rect × List LineDamageBounds)
  | [] => none
  | line :: lines =>
      some (mergeOverlapping sizeInfo (overdamage sizeInfo (rectForLine sizeInfo line)) lines)

theorem length_mergeOverlapping (sizeInfo : SizeInfo) (total : Rect)
    (lines : List LineDamageBounds) :
    (mergeOverlapping sizeInfo total lines).2.length ≤ lines.length := by
  induction lines generalizing total with
  | nil => exact Nat.le_refl _
  | cons line lines ih =>
      rw [mergeOverlapping]
      generalize overdamage sizeInfo (rectForLine sizeInfo line) = nextRect
      cases rectsOverlap total nextRect with
      | true => exact Nat.le_succ_of_le (ih _)
      | false => exact Nat.le_refl _

theorem length_next {sizeInfo : SizeInfo} {lines rest : List LineDamageBounds} {rect : Rect}
    (h : next sizeInfo lines = some (rect, rest)) : rest.length < lines.length := by
  cases lines with
  | nil => exact nomatch h
  | cons line lines =>
      have hrest := congrArg Prod.snd (Option.some.inj h)
      have hrest : (mergeOverlapping ..).2 = rest := hrest
      rw [← hrest]
      exact Nat.lt_succ_of_le (length_mergeOverlapping ..)

def collect (sizeInfo : SizeInfo) (lines : List LineDamageBounds) : List Rect :=
  match _h : next sizeInfo lines with
  | none => []
  | some (rect, rest) => rect :: collect sizeInfo rest
termination_by lines.length
decreasing_by
  apply length_next
  assumption

theorem collect_nil (sizeInfo : SizeInfo) : collect sizeInfo [] = [] := by
  rw [collect]
  rfl

theorem collect_next {sizeInfo : SizeInfo} {lines rest : List LineDamageBounds} {rect : Rect}
    (h : next sizeInfo lines = some (rect, rest)) :
    collect sizeInfo lines = rect :: collect sizeInfo rest := by
  rw [collect]
  split
  · next hnone => exact nomatch hnone.symm.trans h
  · next hsome =>
      obtain ⟨rfl, rfl⟩ := Prod.mk.inj (Option.some.inj (hsome.symm.trans h))
      rfl

end RenderDamageIterator

namespace SizeInfo
variable {s : SizeInfo} {screenLines columns line column : Nat} {b : LineDamageBounds} {r t : Rect}

/-- The cells have pixels, and the grid fits the window. -/
structure GridFits (screenLines columns : Nat) (s : SizeInfo) : Prop where
  cellWidth : 1 ≤ s.cellWidth
  cellHeight : 1 ≤ s.cellHeight
  right : s.paddingX + columns * s.cellWidth ≤ s.width
  bottom : s.paddingY + screenLines * s.cellHeight ≤ s.height

/-- The sizes that are computed with are values of an `i32`. -/
structure Representable (columns : Nat) (s : SizeInfo) : Prop where
  width : s.width < 2 ^ 31
  height : s.height < 2 ^ 31
  wide : (columns + 2) * s.cellWidth < 2 ^ 31
  tall : 2 * s.cellHeight < 2 ^ 31

def window (s : SizeInfo) : Rect := ⟨0, 0, s.width, s.height⟩

/-- The pixels of a cell, where the lowest pixels have the least coordinates. -/
def cellRect (s : SizeInfo) (line column : Nat) : Rect where
  x := (s.paddingX + column * s.cellWidth : Nat)
  y := s.height - (s.paddingY + (line + 1) * s.cellHeight : Nat)
  width := s.cellWidth
  height := s.cellHeight

def lineRect (s : SizeInfo) (b : LineDamageBounds) : Rect :=
  { s.cellRect b.line b.left with width := ((b.right - b.left + 1) * s.cellWidth : Nat) }

structure InGrid (screenLines columns : Nat) (b : LineDamageBounds) : Prop where
  left : b.left ≤ b.right
  right : b.right < columns
  line : b.line < screenLines

structure Framed (s : SizeInfo) (r : Rect) : Prop where
  inside : r.Inside s.window
  width : 0 ≤ r.width
  height : 0 ≤ r.height

theorem lineRect_width (s : SizeInfo) (hb : b.left ≤ b.right) :
    b.left * s.cellWidth + (b.right - b.left + 1) * s.cellWidth = (b.right + 1) * s.cellWidth := by
  rw [← Nat.add_mul]
  congr 1
  omega

theorem cellRect_inside (hleft : b.left ≤ column) (hright : column ≤ b.right) :
    (s.cellRect b.line column).Inside (s.lineRect b) := by
  have hwidth := s.lineRect_width (Nat.le_trans hleft hright)
  have hlow : b.left * s.cellWidth ≤ column * s.cellWidth := Nat.mul_le_mul_right _ hleft
  have hhigh : (column + 1) * s.cellWidth ≤ (b.right + 1) * s.cellWidth :=
    Nat.mul_le_mul_right _ (Nat.succ_le_succ hright)
  rw [Nat.succ_mul] at hhigh
  constructor
  · simp only [cellRect, lineRect]
    omega
  · simp only [cellRect, lineRect]
    omega
  · exact Int.le_refl _
  · exact Int.le_refl _

theorem lineRect_framed (hs : s.GridFits screenLines columns) (hb : InGrid screenLines columns b) :
    s.Framed (s.lineRect b) := by
  have hright := hs.right
  have hbottom := hs.bottom
  have hwidth := s.lineRect_width hb.left
  have hcolumns : (b.right + 1) * s.cellWidth ≤ columns * s.cellWidth :=
    Nat.mul_le_mul_right _ hb.right
  have hlines : (b.line + 1) * s.cellHeight ≤ screenLines * s.cellHeight :=
    Nat.mul_le_mul_right _ hb.line
  have hheight : s.cellHeight ≤ (b.line + 1) * s.cellHeight :=
    Nat.le_mul_of_pos_left _ (Nat.succ_pos _)
  refine ⟨⟨?_, ?_, ?_, ?_⟩, Int.natCast_nonneg _, Int.natCast_nonneg _⟩
  · exact Int.natCast_nonneg _
  · simp only [cellRect, lineRect, window]
    omega
  · simp only [cellRect, lineRect, window]
    omega
  · simp only [cellRect, lineRect, window]
    omega

theorem rectForLine_eq (hs : s.GridFits screenLines columns) (hi : s.Representable columns)
    (hb : InGrid screenLines columns b) :
    RenderDamageIterator.rectForLine s b = s.lineRect b := by
  have hright := hs.right
  have hbottom := hs.bottom
  have hwide := hi.width
  have hhigh := hi.height
  have hwidth := s.lineRect_width hb.left
  have hcolumns : (b.right + 1) * s.cellWidth ≤ columns * s.cellWidth :=
    Nat.mul_le_mul_right _ hb.right
  have hlines : (b.line + 1) * s.cellHeight ≤ screenLines * s.cellHeight :=
    Nat.mul_le_mul_right _ hb.line
  have hpixels : b.right + 1 ≤ (b.right + 1) * s.cellWidth :=
    Nat.le_mul_of_pos_right _ hs.cellWidth
  have hpixels' : b.line + 1 ≤ (b.line + 1) * s.cellHeight :=
    Nat.le_mul_of_pos_right _ hs.cellHeight
  have hheight : s.cellHeight ≤ (b.line + 1) * s.cellHeight :=
    Nat.le_mul_of_pos_left _ (Nat.succ_pos _)
  have hleft := hb.left
  unfold RenderDamageIterator.rectForLine lineRect cellRect
  rw [u32_of_lt (n := b.left) (by omega), u32_of_lt (n := b.line + 1) (by omega),
    u32_of_lt (n := b.right - b.left + 1) (by omega)]
  generalize b.left * s.cellWidth = x at hwidth
  generalize (b.right - b.left + 1) * s.cellWidth = width at hwidth
  generalize (b.line + 1) * s.cellHeight = y at hlines hpixels' hheight
  rw [u32_of_lt (n := x) (by omega), u32_of_lt (n := s.paddingX + x) (by omega),
    u32_of_lt (n := y) (by omega), u32_of_lt (n := width) (by omega)]
  simp only
  rw [i32_natCast (by omega), i32_natCast (by omega), i32_natCast (by omega),
    i32_natCast (by omega)]
  congr 1
  omega

/-- Where nothing overflows, a rectangle grows by a cell to the left and right, and by half a cell
to the top and bottom, as far as the window goes. -/
theorem overdamage_eq (hi : s.Representable columns) (hr : s.Framed r)
    (hwidth : r.width ≤ columns * s.cellWidth) (hheight : r.height ≤ s.cellHeight) :
    RenderDamageIterator.overdamage s r =
      { x := max (r.x - s.cellWidth) 0
        y := max (r.y - (s.cellHeight / 2 : Nat)) 0
        width := min (max (s.width - max (r.x - s.cellWidth) 0) 0) (r.width + 2 * s.cellWidth)
        height := min (max (s.height - max (r.y - (s.cellHeight / 2 : Nat)) 0) 0)
          (r.height + s.cellHeight) } := by
  obtain ⟨⟨hleft, hright, hbottom, htop⟩, hwidth₀, hheight₀⟩ := hr
  have hwide := hi.wide
  have htall := hi.tall
  have hwindow := hi.width
  have hwindow' := hi.height
  rw [Nat.add_mul] at hwide
  simp only [window] at hleft hright hbottom htop
  unfold RenderDamageIterator.overdamage
  rw [i32_natCast (n := s.cellWidth) (by omega), i32_natCast (n := s.cellHeight) (by omega),
    i32_natCast hwindow, i32_natCast hwindow', Int.tdiv_eq_ediv_of_nonneg (Int.natCast_nonneg _)]
  simp only
  rw [i32_of_fits (x := r.x - s.cellWidth) (by omega) (by omega),
    i32_of_fits (x := 2 * (s.cellWidth : Int)) (by omega) (by omega),
    i32_of_fits (x := r.width + 2 * s.cellWidth) (by omega) (by omega),
    i32_of_fits (x := r.y - (s.cellHeight : Int) / 2) (by omega) (by omega),
    i32_of_fits (x := r.height + s.cellHeight) (by omega) (by omega),
    i32_of_fits (x := s.width - max (r.x - s.cellWidth) 0) (by omega) (by omega),
    i32_of_fits (x := s.height - max (r.y - (s.cellHeight : Int) / 2) 0) (by omega) (by omega)]
  rfl

/-- The rectangle that a line makes is one of the window, and contains the damaged cells. -/
theorem overdamage_framed (hs : s.GridFits screenLines columns) (hi : s.Representable columns)
    (hb : InGrid screenLines columns b) :
    s.Framed (RenderDamageIterator.overdamage s (RenderDamageIterator.rectForLine s b)) ∧
      (s.lineRect b).Inside
        (RenderDamageIterator.overdamage s (RenderDamageIterator.rectForLine s b)) := by
  have hframed := lineRect_framed hs hb
  have hcolumns : b.right - b.left + 1 ≤ columns := by
    have hright := hb.right
    omega
  have hwidth : (s.lineRect b).width ≤ columns * s.cellWidth := by
    apply Int.ofNat_le.mpr
    exact Nat.mul_le_mul_right _ hcolumns
  rw [rectForLine_eq hs hi hb, overdamage_eq hi hframed hwidth (Int.le_refl _)]
  obtain ⟨⟨hleft, hright, hbottom, htop⟩, hwidth₀, hheight₀⟩ := hframed
  have hheight : (s.lineRect b).height = s.cellHeight := rfl
  simp only [window] at hleft hright hbottom htop
  generalize s.lineRect b = r at *
  refine ⟨⟨⟨?_, ?_, ?_, ?_⟩, ?_, ?_⟩, ⟨?_, ?_, ?_, ?_⟩⟩
  all_goals simp only [window]; omega

theorem mergeRects_eq (hi : s.Representable columns) (hr : s.Framed r) (ht : s.Framed t) :
    RenderDamageIterator.mergeRects r t = r.hull t := by
  obtain ⟨⟨hr₁, hr₂, hr₃, hr₄⟩, hr₅, hr₆⟩ := hr
  obtain ⟨⟨ht₁, ht₂, ht₃, ht₄⟩, ht₅, ht₆⟩ := ht
  have hwindow := hi.width
  have hwindow' := hi.height
  simp only [window] at hr₁ hr₂ hr₃ hr₄ ht₁ ht₂ ht₃ ht₄
  unfold RenderDamageIterator.mergeRects Rect.hull
  rw [i32_of_fits (x := r.x + r.width) (by omega) (by omega),
    i32_of_fits (x := t.x + t.width) (by omega) (by omega),
    i32_of_fits (x := r.y + r.height) (by omega) (by omega),
    i32_of_fits (x := t.y + t.height) (by omega) (by omega)]
  simp only
  rw [i32_of_fits (by omega) (by omega), i32_of_fits (by omega) (by omega)]

theorem Framed.hull (hr : s.Framed r) (ht : s.Framed t) : s.Framed (r.hull t) := by
  have hwidth := hr.width
  have hheight := hr.height
  refine ⟨hr.inside.hull ht.inside, ?_, ?_⟩
  · simp only [Rect.hull]
    omega
  · simp only [Rect.hull]
    omega

section
variable {lines : List LineDamageBounds} (hs : s.GridFits screenLines columns)
  (hi : s.Representable columns)
include hs hi

/-- Merging keeps the pixels that were damaged, and those of the lines that it consumes. -/
theorem mergeOverlapping_covers (hlines : ∀ b ∈ lines, InGrid screenLines columns b)
    (ht : s.Framed t) {result : Rect} {rest : List LineDamageBounds}
    (h : RenderDamageIterator.mergeOverlapping s t lines = (result, rest)) :
    s.Framed result ∧ t.Inside result ∧ (∀ b ∈ rest, b ∈ lines) ∧
      ∀ b ∈ lines, b ∈ rest ∨ (s.lineRect b).Inside result := by
  induction lines generalizing t with
  | nil =>
      obtain ⟨rfl, rfl⟩ := Prod.mk.inj h
      exact ⟨ht, .refl t, fun b hb => hb, fun b hb => nomatch hb⟩
  | cons line lines ih =>
      obtain ⟨hframed, hcovers⟩ := overdamage_framed hs hi (hlines line List.mem_cons_self)
      rw [RenderDamageIterator.mergeOverlapping] at h
      generalize RenderDamageIterator.overdamage s (RenderDamageIterator.rectForLine s line) =
        nextRect at h hframed hcovers
      cases hoverlap : RenderDamageIterator.rectsOverlap t nextRect with
      | false =>
          rw [hoverlap] at h
          obtain ⟨rfl, rfl⟩ := Prod.mk.inj h
          exact ⟨ht, .refl t, fun b hb => hb, fun b hb => .inl hb⟩
      | true =>
          rw [hoverlap, if_pos rfl, mergeRects_eq hi ht hframed] at h
          obtain ⟨hresult, hinside, hrest, hall⟩ :=
            ih (fun b hb => hlines b (List.mem_cons_of_mem line hb)) (ht.hull hframed) h
          refine ⟨hresult, (Rect.inside_hull_left t nextRect).trans hinside, ?_, ?_⟩
          · exact fun b hb => List.mem_cons_of_mem line (hrest b hb)
          · intro b hb
            rcases List.mem_cons.mp hb with rfl | hb
            · exact .inr (hcovers.trans ((Rect.inside_hull_right t nextRect).trans hinside))
            · exact hall b hb

/-- The rectangles that are yielded are of the window, and contain all damaged cells. -/
theorem collect_covers (hlines : ∀ b ∈ lines, InGrid screenLines columns b) :
    (∀ r ∈ RenderDamageIterator.collect s lines, s.Framed r) ∧
      ∀ b ∈ lines, ∃ r ∈ RenderDamageIterator.collect s lines, (s.lineRect b).Inside r := by
  induction hn : lines.length using Nat.strongRecOn generalizing lines with
  | ind n ih =>
      cases lines with
      | nil =>
          rw [RenderDamageIterator.collect_nil]
          constructor
          · exact fun r hr => nomatch hr
          · exact fun b hb => nomatch hb
      | cons line lines =>
          obtain ⟨⟨rect, rest⟩, hnext⟩ :
              ∃ r, RenderDamageIterator.next s (line :: lines) = some r := ⟨_, rfl⟩
          have hlength := RenderDamageIterator.length_next hnext
          obtain ⟨hframed, hcovers⟩ := overdamage_framed hs hi (hlines line List.mem_cons_self)
          have htail : ∀ b ∈ lines, InGrid screenLines columns b :=
            fun b hb => hlines b (List.mem_cons_of_mem line hb)
          obtain ⟨hrect, hinside, hrest, hall⟩ :=
            mergeOverlapping_covers hs hi htail hframed (Option.some.inj hnext)
          obtain ⟨hframed', hcovers'⟩ :=
            ih rest.length (hn ▸ hlength) (fun b hb => htail b (hrest b hb)) rfl
          rw [RenderDamageIterator.collect_next hnext]
          constructor
          · intro r hr
            rcases List.mem_cons.mp hr with rfl | hr
            · exact hrect
            · exact hframed' r hr
          · intro b hb
            rcases List.mem_cons.mp hb with rfl | hb
            · exact ⟨rect, List.mem_cons_self, hcovers.trans hinside⟩
            · rcases hall b hb with hb | hb
              · obtain ⟨r, hr, hin⟩ := hcovers' b hb
                exact ⟨r, List.mem_cons_of_mem rect hr, hin⟩
              · exact ⟨rect, List.mem_cons_self, hb⟩

end

/-- The pixels of every damaged cell are in a rectangle that is yielded, and all of these are in the
window. -/
def Covered (s : SizeInfo) (lines : List LineDamageBounds) : Prop :=
  (∀ b ∈ lines, ∀ column, b.left ≤ column → column ≤ b.right →
    ∃ r ∈ RenderDamageIterator.collect s lines, (s.cellRect b.line column).Inside r) ∧
  ∀ r ∈ RenderDamageIterator.collect s lines, r.Inside s.window

theorem collect_covered (s : SizeInfo) (screenLines columns : Nat)
    (hs : s.GridFits screenLines columns) (hi : s.Representable columns)
    (lines : List LineDamageBounds) (hlines : ∀ b ∈ lines, InGrid screenLines columns b) :
    s.Covered lines := by
  obtain ⟨hframed, hcovers⟩ := collect_covers hs hi hlines
  constructor
  · intro b hb column hleft hright
    obtain ⟨r, hr, hin⟩ := hcovers b hb
    exact ⟨r, hr, (cellRect_inside hleft hright).trans hin⟩
  · exact fun r hr => (hframed r hr).inside

/-- Two lines of a small window, whose rectangles are merged. -/
theorem collect_covered_merged :
    SizeInfo.Covered ⟨100, 100, 10, 20, 5, 5, 4, 9⟩ [⟨0, 2, 4⟩, ⟨1, 0, 8⟩] := by
  refine collect_covered _ 4 9 ?_ ?_ _ ?_
  · constructor <;> decide
  · constructor <;> decide
  · intro b hb
    simp only [List.mem_cons, List.not_mem_nil, or_false] at hb
    rcases hb with rfl | rfl
    · constructor <;> decide
    · constructor <;> decide

/-- A window whose width is no `i32`, and a damaged cell that no rectangle contains. -/
theorem not_covered_wide :
    GridFits 1 1 ⟨2 ^ 31, 100, 1, 1, 0, 0, 1, 1⟩ ∧
      ¬ SizeInfo.Covered ⟨2 ^ 31, 100, 1, 1, 0, 0, 1, 1⟩ [⟨0, 0, 0⟩] := by
  refine ⟨by constructor <;> decide, fun hcovered => ?_⟩
  obtain ⟨r, hr, hin⟩ := hcovered.1 ⟨0, 0, 0⟩ List.mem_cons_self 0 (Nat.le_refl _) (Nat.le_refl _)
  have hnext : RenderDamageIterator.next ⟨2 ^ 31, 100, 1, 1, 0, 0, 1, 1⟩ [⟨0, 0, 0⟩] =
      some (⟨0, 99, 0, 1⟩, []) := by decide
  rw [RenderDamageIterator.collect_next hnext, RenderDamageIterator.collect_nil,
    List.mem_singleton] at hr
  rw [hr] at hin
  exact absurd hin.right (by decide)

end SizeInfo

namespace DamageTracker
variable {s : SizeInfo} {t : DamageTracker} {screenLines columns : Nat}

def shapeFrameDamage (t : DamageTracker) (sizeInfo : SizeInfo) : List Rect :=
  if t.frame.full then [⟨0, 0, i32 sizeInfo.width, i32 sizeInfo.height⟩]
  else RenderDamageIterator.collect sizeInfo (t.frame.lines.filter LineDamageBounds.isDamaged) ++
    t.frame.rects

theorem shapeFrameDamage_covers (hs : s.GridFits screenLines columns) (hi : s.Representable columns)
    (hlines : ∀ b ∈ t.frame.lines, b.isDamaged → SizeInfo.InGrid screenLines columns b)
    {b : LineDamageBounds} (hb : b ∈ t.frame.lines) {column : Nat} (hleft : b.left ≤ column)
    (hright : column ≤ b.right) :
    ∃ r ∈ t.shapeFrameDamage s, (s.cellRect b.line column).Inside r := by
  have hdamaged : b.isDamaged = true := decide_eq_true (Nat.le_trans hleft hright)
  have hcell := SizeInfo.cellRect_inside (s := s) hleft hright
  unfold shapeFrameDamage
  split
  · refine ⟨_, List.mem_singleton_self _, ?_⟩
    rw [i32_natCast hi.width, i32_natCast hi.height]
    exact hcell.trans (SizeInfo.lineRect_framed hs (hlines b hb hdamaged)).inside
  · have hgrid : ∀ b ∈ t.frame.lines.filter LineDamageBounds.isDamaged,
        SizeInfo.InGrid screenLines columns b := by
      intro b hb
      obtain ⟨hmem, hdamaged⟩ := List.mem_filter.mp hb
      exact hlines b hmem hdamaged
    obtain ⟨-, hcovers⟩ := SizeInfo.collect_covers hs hi hgrid
    obtain ⟨r, hr, hin⟩ := hcovers b (List.mem_filter.mpr ⟨hb, hdamaged⟩)
    exact ⟨r, List.mem_append_left _ hr, hcell.trans hin⟩

end DamageTracker
end Velacritty
