import Velacritty.FrameDamage

/-! The damage of a selection that changes. -/
namespace Velacritty
open Fallible

namespace FrameDamage
variable {f : FrameDamage} {line : Nat}

def FullLine (columns : Nat) (f : FrameDamage) (line : Nat) : Prop :=
  f.full ∨ ∃ b, f.lines[line]? = some b ∧ b.left = 0 ∧ columns ≤ b.right + 1

structure Adds (f f' : FrameDamage) : Prop where
  length : f'.lines.length = f.lines.length
  full : f.full → f'.full
  lines : ∀ columns line, f.FullLine columns line → f'.FullLine columns line

theorem Adds.refl (f : FrameDamage) : f.Adds f := ⟨rfl, id, fun _ _ => id⟩

theorem Adds.trans {g h : FrameDamage} (hfg : f.Adds g) (hgh : g.Adds h) : f.Adds h where
  length := hgh.length.trans hfg.length
  full hfull := hgh.full (hfg.full hfull)
  lines columns line hline := hgh.lines columns line (hfg.lines columns line hline)

theorem expandLine_returns (left right : Nat) (hline : line < f.lines.length) :
    Returns (f.expandLine line left right) fun f' => f.Adds f' ∧
      ∀ columns, left = 0 → columns ≤ right + 1 → f'.FullLine columns line := by
  unfold expandLine
  rw [if_pos hline]
  refine .pure ⟨⟨List.length_modify .., id, ?_⟩, ?_⟩
  · intro columns other hfull
    apply hfull.imp_right
    rintro ⟨b, hb, hleft, hright⟩
    by_cases heq : line = other
    · rw [heq, List.getElem?_modify_eq, hb]
      refine ⟨_, rfl, ?_, ?_⟩
      · exact Nat.le_zero.mp (hleft ▸ Nat.min_le_left _ _)
      · exact Nat.le_trans hright (Nat.succ_le_succ (Nat.le_max_left _ _))
    · rw [List.getElem?_modify_ne _ _ heq]
      exact ⟨b, hb, hleft, hright⟩
  · rintro columns rfl hright
    right
    rw [List.getElem?_modify_eq, List.getElem?_eq_getElem hline]
    refine ⟨_, rfl, Nat.min_zero _, ?_⟩
    exact Nat.le_trans hright (Nat.succ_le_succ (Nat.le_max_right _ _))

end FrameDamage

def SelectionRange.Spans (r : SelectionRange) (line : Int) : Prop :=
  r.start.line ≤ line ∧ line ≤ r.stop.line

theorem SelectionRange.spans_of_contains {r : SelectionRange} {p : Point}
    (h : r.contains p = true) : r.Spans p.line := by
  unfold contains at h
  rw [decide_eq_true_eq] at h
  exact ⟨h.1, h.2.1⟩

namespace DamageTracker
variable {t : DamageTracker} {screenLines columns displayOffset : Nat} {r : SelectionRange}

/-- Both frames have a line for each line of the viewport, which has cells. -/
structure Sized (screenLines columns : Nat) (t : DamageTracker) : Prop where
  lines_eq : t.screenLines = screenLines
  columns_eq : t.columns = columns
  lines_pos : 0 < screenLines
  columns_pos : 0 < columns
  frame : t.frame.lines.length = screenLines
  nextFrame : t.nextFrame.lines.length = screenLines
  oldViCursor : ∀ p, t.oldViCursor = some p → p.1 < screenLines

theorem length_reset (numLines numCols : Nat) :
    (FrameDamage.reset numLines numCols).lines.length = numLines := by
  simp only [FrameDamage.reset, TermDamageState.undamagedLines, List.length_map, List.length_range]

theorem new_sized (hlines : 0 < screenLines) (hcolumns : 0 < columns) :
    (new screenLines columns).Sized screenLines columns where
  lines_eq := rfl
  columns_eq := rfl
  lines_pos := hlines
  columns_pos := hcolumns
  frame := length_reset ..
  nextFrame := length_reset ..
  oldViCursor _ h := nomatch h

/-- Damage is only added to the current frame, and the rest of the tracker stays. -/
structure Adds (t t' : DamageTracker) : Prop where
  frame : t.frame.Adds t'.frame
  nextFrame : t'.nextFrame = t.nextFrame
  screenLines : t'.screenLines = t.screenLines
  columns : t'.columns = t.columns
  oldSelection : t'.oldSelection = t.oldSelection
  oldViCursor : t'.oldViCursor = t.oldViCursor

theorem Adds.refl (t : DamageTracker) : t.Adds t := ⟨.refl _, rfl, rfl, rfl, rfl, rfl⟩

theorem Adds.trans {u v : DamageTracker} (htu : t.Adds u) (huv : u.Adds v) : t.Adds v where
  frame := htu.frame.trans huv.frame
  nextFrame := huv.nextFrame.trans htu.nextFrame
  screenLines := huv.screenLines.trans htu.screenLines
  columns := huv.columns.trans htu.columns
  oldSelection := huv.oldSelection.trans htu.oldSelection
  oldViCursor := huv.oldViCursor.trans htu.oldViCursor

theorem Adds.sized {t' : DamageTracker} (h : t.Adds t') (ht : t.Sized screenLines columns) :
    t'.Sized screenLines columns where
  lines_eq := h.screenLines.trans ht.lines_eq
  columns_eq := h.columns.trans ht.columns_eq
  lines_pos := ht.lines_pos
  columns_pos := ht.columns_pos
  frame := h.frame.length.trans ht.frame
  nextFrame := (congrArg (List.length ·.lines) h.nextFrame).trans ht.nextFrame
  oldViCursor p hp := ht.oldViCursor p (h.oldViCursor ▸ hp)

theorem damageRange_returns (ht : t.Sized screenLines columns) :
    Returns (damageRange displayOffset t r) fun t' => t.Adds t' ∧
      ∀ line < screenLines, r.Spans (line - displayOffset) → t'.frame.FullLine columns line := by
  have hlines := ht.lines_pos
  unfold damageRange
  simp only [ht.lines_eq]
  split
  · next hhidden =>
      refine .pure ⟨.refl t, ?_⟩
      rintro line hline ⟨hstart, hstop⟩
      omega
  · next hshown =>
      rw [if_neg (by omega)]
      refine (Returns.foldlM_each (P := fun t' => t.Adds t')
        (Q := fun line t' => t'.frame.FullLine columns line) (.refl t) ?_).mono ?_
      · intro s hs line hline
        have hsized := hs.sized ht
        rw [List.mem_range'_1] at hline
        have hlt : line < s.frame.lines.length := by
          rw [hsized.frame]
          omega
        have hright : usub s.columns 1 = some (columns - 1) := by
          rw [hsized.columns_eq]
          exact usub_of_le hsized.columns_pos
        rw [hright, Option.bind_eq_bind, Option.bind_some]
        refine (FrameDamage.expandLine_returns _ _ hlt).bind fun f ⟨hadds, hfull⟩ => .pure ?_
        refine ⟨hs.trans ⟨hadds, rfl, rfl, rfl, rfl, rfl⟩, ?_, fun y => hadds.lines columns y⟩
        apply hfull columns rfl
        omega
      · rintro t' ⟨hadds, hall, -⟩
        refine ⟨hadds, ?_⟩
        rintro line hline ⟨hstart, hstop⟩
        apply hall
        rw [List.mem_range'_1]
        omega

/-- The cell of the viewport is selected. -/
def selected (selection : Option SelectionRange) (displayOffset line column : Nat) : Bool :=
  selection.any fun r => r.contains ⟨line - displayOffset, column⟩

theorem spans_of_selected {selection : Option SelectionRange} {line column : Nat}
    (h : selected selection displayOffset line column = true) :
    ∃ r, selection = some r ∧ r.Spans (line - displayOffset) := by
  cases selection with
  | none => exact nomatch h
  | some r => exact ⟨r, rfl, SelectionRange.spans_of_contains h⟩

theorem damageSelection_returns (ht : t.Sized screenLines columns)
    (selection : Option SelectionRange) :
    Returns (t.damageSelection selection displayOffset) fun t' => t'.Sized screenLines columns ∧
      t'.oldSelection = selection ∧ ∀ line < screenLines, ∀ column,
        selected t.oldSelection displayOffset line column ≠
          selected selection displayOffset line column → t'.frame.FullLine columns line := by
  have hset : ({ t with oldSelection := selection } : DamageTracker).Sized screenLines columns :=
    ⟨ht.lines_eq, ht.columns_eq, ht.lines_pos, ht.columns_pos, ht.frame, ht.nextFrame,
      ht.oldViCursor⟩
  unfold damageSelection
  simp only
  split
  · next hskip =>
      refine .pure ⟨hset, rfl, ?_⟩
      intro line _ column hdiffers
      rcases hskip with hfull | hsame
      · exact .inl hfull
      · exact absurd (congrArg (selected · displayOffset line column) hsame) hdiffers
  · refine (Returns.foldlM_each (P := Adds { t with oldSelection := selection })
      (Q := fun r t' => ∀ line < screenLines, r.Spans (line - displayOffset) →
        t'.frame.FullLine columns line) (.refl _) ?_).mono ?_
    · intro s hs r _
      refine (damageRange_returns (hs.sized hset)).mono fun t' ⟨hadds, hspans⟩ => ?_
      refine ⟨hs.trans hadds, hspans, fun y hy line hline hspans => ?_⟩
      exact hadds.frame.lines columns line (hy line hline hspans)
    · rintro t' ⟨hadds, hall, -⟩
      refine ⟨hadds.sized hset, hadds.oldSelection, ?_⟩
      intro line hline column hdiffers
      have hsome : selected t.oldSelection displayOffset line column = true ∨
          selected selection displayOffset line column = true := by
        by_contra hnone
        rw [not_or, Bool.not_eq_true, Bool.not_eq_true] at hnone
        exact hdiffers (hnone.1.trans hnone.2.symm)
      rcases hsome with hold | hnew
      · obtain ⟨r, hr, hspans⟩ := spans_of_selected hold
        refine hall r ?_ line hline hspans
        exact List.mem_append_right _ (Option.mem_toList.mpr hr)
      · obtain ⟨r, hr, hspans⟩ := spans_of_selected hnew
        refine hall r ?_ line hline hspans
        exact List.mem_append_left _ (Option.mem_toList.mpr hr)

end DamageTracker

inductive TrackerOp where
  | damageSelection (selection : Option SelectionRange)
  | damageViCursor (viCursor : Option (Nat × Nat))
  | damageLine (damage : LineDamageBounds)
  | damagePoint (line column : Nat)
  | markFullyDamaged
  | swapDamage
  deriving DecidableEq, Repr

namespace TrackerOp

/-- The selection of the last call, after this operation. -/
def remember (previous : Option SelectionRange) : TrackerOp → Option SelectionRange
  | .damageSelection selection => selection
  | _ => previous

def InView (screenLines : Nat) : TrackerOp → Prop
  | .damageViCursor viCursor => ∀ p, viCursor = some p → p.1 < screenLines
  | .damageLine damage => damage.line < screenLines
  | .damagePoint line _ => line < screenLines
  | _ => True

end TrackerOp

namespace DamageTracker
variable {t : DamageTracker} {screenLines columns displayOffset : Nat}

def withFrame (t : DamageTracker) (frame : FrameDamage) : DamageTracker := { t with frame := frame }

/-- Execute an operation at a display offset. -/
def step (displayOffset : Nat) (t : DamageTracker) : TrackerOp → Option DamageTracker
  | .damageSelection selection => t.damageSelection selection displayOffset
  | .damageViCursor viCursor => t.damageViCursor viCursor
  | .damageLine damage => (t.frame.damageLine damage).map t.withFrame
  | .damagePoint line column => (t.frame.damagePoint line column).map t.withFrame
  | .markFullyDamaged => some (t.withFrame t.frame.markFullyDamaged)
  | .swapDamage => some t.swapDamage

theorem swapDamage_sized (ht : t.Sized screenLines columns) :
    t.swapDamage.Sized screenLines columns where
  lines_eq := ht.lines_eq
  columns_eq := ht.columns_eq
  lines_pos := ht.lines_pos
  columns_pos := ht.columns_pos
  frame := ht.nextFrame
  nextFrame := (length_reset ..).trans ht.lines_eq
  oldViCursor := ht.oldViCursor

theorem expandLine_adds {line left right : Nat} (hline : line < t.frame.lines.length) :
    Returns ((t.frame.expandLine line left right).map t.withFrame) t.Adds := by
  obtain ⟨f, hf, hadds, -⟩ :=
    FrameDamage.expandLine_returns left right hline
  rw [hf]
  exact .pure ⟨hadds, rfl, rfl, rfl, rfl, rfl⟩

theorem damageCursor_adds (ht : t.Sized screenLines columns) {viCursor : Option (Nat × Nat)}
    (hview : ∀ p, viCursor = some p → p.1 < screenLines) :
    Returns (t.damageCursor viCursor) t.Adds := by
  cases viCursor with
  | none => exact .pure (.refl t)
  | some p =>
      have hline : p.1 < t.frame.lines.length := ht.frame.symm ▸ hview p rfl
      obtain ⟨f, hf, hadds, -⟩ :=
        FrameDamage.expandLine_returns p.2 p.2 hline
      simp only [damageCursor, FrameDamage.damagePoint, hf, Option.bind_eq_bind, Option.bind_some]
      exact .pure ⟨hadds, rfl, rfl, rfl, rfl, rfl⟩

theorem damageViCursor_returns (ht : t.Sized screenLines columns) {viCursor : Option (Nat × Nat)}
    (hview : ∀ p, viCursor = some p → p.1 < screenLines) :
    Returns (t.damageViCursor viCursor) fun t' => t'.Sized screenLines columns ∧
      t'.oldSelection = t.oldSelection := by
  have hset : ({ t with oldViCursor := viCursor } : DamageTracker).Sized screenLines columns :=
    ⟨ht.lines_eq, ht.columns_eq, ht.lines_pos, ht.columns_pos, ht.frame, ht.nextFrame, hview⟩
  unfold damageViCursor
  simp only
  split
  · exact .pure ⟨hset, rfl⟩
  · refine (damageCursor_adds hset hview).bind fun u hu => ?_
    refine (damageCursor_adds (hu.sized hset) ht.oldViCursor).mono fun v hv => ?_
    exact ⟨hv.sized (hu.sized hset), hv.oldSelection.trans hu.oldSelection⟩

/-- Every operation on the viewport returns, and only a call for a selection changes the one that
is remembered. -/
theorem step_returns (ht : t.Sized screenLines columns) {op : TrackerOp}
    (hop : op.InView screenLines) : Returns (t.step displayOffset op) fun t' =>
      t'.Sized screenLines columns ∧ t'.oldSelection = op.remember t.oldSelection := by
  cases op with
  | damageSelection selection =>
      exact (damageSelection_returns ht selection).mono fun t' h => ⟨h.1, h.2.1⟩
  | damageViCursor viCursor => exact damageViCursor_returns ht hop
  | damageLine damage =>
      have hline : damage.line < t.frame.lines.length := ht.frame.symm ▸ hop
      exact (expandLine_adds hline).mono fun t' h => ⟨h.sized ht, h.oldSelection⟩
  | damagePoint line column =>
      have hline : line < t.frame.lines.length := ht.frame.symm ▸ hop
      exact (expandLine_adds hline).mono fun t' h => ⟨h.sized ht, h.oldSelection⟩
  | markFullyDamaged =>
      refine .pure ⟨⟨ht.lines_eq, ht.columns_eq, ht.lines_pos, ht.columns_pos, ht.frame,
        ht.nextFrame, ht.oldViCursor⟩, rfl⟩
  | swapDamage => exact .pure ⟨swapDamage_sized ht, rfl⟩

theorem run_returns {ops : List TrackerOp} (ht : t.Sized screenLines columns)
    (hops : ∀ op ∈ ops, op.InView screenLines) :
    Returns (runOps (step displayOffset) t ops) fun t' => t'.Sized screenLines columns ∧
      t'.oldSelection = ops.foldl TrackerOp.remember t.oldSelection := by
  induction ops generalizing t with
  | nil => exact .pure ⟨ht, rfl⟩
  | cons op ops ih =>
      refine (step_returns ht (hops op List.mem_cons_self)).bind fun u ⟨hu, hold⟩ => ?_
      rw [List.foldl_cons, ← hold]
      exact ih hu fun op' hop' => hops op' (List.mem_cons_of_mem op hop')

/-- After any operations on a viewport at one display offset, a call for a selection returns, and
damages every line with a cell that is selected now but was not, or the other way round. -/
theorem damageSelection_complete (screenLines columns displayOffset : Nat)
    (hlines : 0 < screenLines) (hcolumns : 0 < columns) (ops : List TrackerOp)
    (hops : ∀ op ∈ ops, op.InView screenLines) (selection : Option SelectionRange) :
    Returns (runOps (step displayOffset) (new screenLines columns) ops) fun t =>
      Returns (t.damageSelection selection displayOffset) fun t' =>
        ∀ line < screenLines, ∀ column, selected (ops.foldl TrackerOp.remember none) displayOffset
          line column ≠ selected selection displayOffset line column →
            t'.frame.FullLine columns line := by
  refine (run_returns (new_sized hlines hcolumns) hops).mono fun t ⟨ht, hold⟩ => ?_
  have hnone : t.oldSelection = ops.foldl TrackerOp.remember none := hold
  rw [← hnone]
  exact (damageSelection_returns ht selection).mono fun t' h => h.2.2

/-- A selection of the lines above the viewport and its first line is moved down by a line. -/
theorem damageSelection_complete_moved :
    Returns (runOps (step 2) (new 3 4)
      [.swapDamage, .damageSelection (some ⟨⟨-4, 1⟩, ⟨-2, 2⟩, false⟩), .swapDamage]) fun t =>
        Returns (t.damageSelection (some ⟨⟨-1, 0⟩, ⟨-1, 2⟩, false⟩) 2) fun t' =>
          t'.frame.FullLine 4 0 ∧ t'.frame.FullLine 4 1 := by
  have hview : ∀ op ∈ [TrackerOp.swapDamage, .damageSelection (some ⟨⟨-4, 1⟩, ⟨-2, 2⟩, false⟩),
      .swapDamage], op.InView 3 := by
    intro op hop
    simp only [List.mem_cons, List.not_mem_nil, or_false] at hop
    rcases hop with rfl | rfl | rfl
    · trivial
    · trivial
    · trivial
  have hcomplete := damageSelection_complete 3 4 2 (by decide) (by decide) _ hview
    (some ⟨⟨-1, 0⟩, ⟨-1, 2⟩, false⟩)
  apply hcomplete.mono
  intro t ht
  apply ht.mono
  intro t' hall
  constructor
  · exact hall 0 (by decide) 0 (by decide)
  · exact hall 1 (by decide) 0 (by decide)

end DamageTracker
end Velacritty
