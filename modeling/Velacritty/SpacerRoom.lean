import Velacritty.SpacerReflow
import Velacritty.TextRead

/-! Spacers keep out of the first column: which steps put one there. -/
namespace Velacritty
open Fallible

namespace Row
variable {r r' : Row Cell} {columns : Nat}

theorem reset_joined : ∀ (r : Row Cell) (template : Cell), r.Spaced 1 →
    Allows (r.reset template) fun r' => Joined r'.inner := fun _ template h =>
  (h.reset template).mono fun _ hr' => joined_of_free hr'.cells

theorem swap_first {a b : Nat} (h : r.swap b a = some r') (hb : b ≠ 0) (ha : a ≠ 0) :
    r'.inner[0]? = r.inner[0]? := by
  simp only [Row.swap, Option.bind_eq_bind, Option.bind_eq_some_iff, Option.some.injEq] at h
  obtain ⟨x, -, y, -, rfl⟩ := h
  simp only [List.getElem?_set_ne hb, List.getElem?_set_ne ha]

/-- Swapping the first cells with those from `a` on puts cell `a` into the first column. -/
theorem swapAll_first {a n : Nat} (h : r.swapAll a 0 (List.range (n + 1)) = some r') :
    r'.inner[0]? = r.inner[a]? := by
  unfold Row.swapAll at h
  rw [List.range_succ_eq_map, List.foldlM_cons] at h
  simp only [Option.bind_eq_bind, Option.bind_eq_some_iff, Nat.add_zero] at h
  obtain ⟨s, hs, h⟩ := h
  have hrest : r'.inner[0]? = s.inner[0]? := by
    refine foldlM_invariant (P := fun q : Row Cell => q.inner[0]? = s.inner[0]?) rfl
      (fun p o q hp ho hq => ?_) h
    obtain ⟨k, -, rfl⟩ := List.mem_map.mp ho
    exact (swap_first hq (by omega) (by omega)).trans hp
  rw [hrest]
  simp only [Row.swap, Option.bind_eq_bind, Option.bind_eq_some_iff, Option.some.injEq] at hs
  obtain ⟨x, hx, y, hy, rfl⟩ := hs
  have hlt := (List.getElem?_eq_some_iff.mp hx).1
  by_cases ha : a = 0
  · subst ha
    rw [List.getElem?_set_self (by rwa [List.length_set]), hx]
  · rw [List.getElem?_set_ne ha, List.getElem?_set_self hlt, hy]

end Row

/-! ### Grids -/

namespace Grid
variable {g g' : Grid Cell} {reflow : Bool} {lines columns : Nat}

/-- Every stored row keeps its spacers out of the first column, and what the cursors write
is plain. -/
structure Fit (g : Grid Cell) : Prop where
  rows : g.raw.Holds (Row.Spaced 1)
  template : g.cursor.template.Plain
  saved : g.savedCursor.template.Plain

theorem fit_iff_stocked : g.Fit ↔ g.Stocked (Row.Spaced 1) :=
  ⟨fun h => ⟨h.rows, h.template, h.saved⟩, fun h => ⟨h.rows, h.template, h.saved⟩⟩

theorem resize_fit (hg : g.WF) (h : g.Fit) (hlines : 1 ≤ lines)
    (hp : reflow = true → columns ≠ g.columns → g.PairedRows) :
    Allows (g.resize reflow lines columns) Fit := by
  have hj : reflow = true → columns ≠ g.columns → ∀ r ∈ g.raw.rows, Joined r.inner :=
    fun hreflow hne r hr => (h.rows r ?_).joined (hp hreflow hne r hr)
  · exact (resize_kept (Row.spaced_kept 1) Row.reset_joined spaced_reflowable hg
      (fit_iff_stocked.mp h) hlines hj).mono fun _ => fit_iff_stocked.mpr
  · exact List.mem_rotate.mp (List.mem_of_mem_take hr)

end Grid

/-! ### Printing -/

namespace Term
variable {t t' : Term} {env : Env}

structure Fit (t : Term) : Prop where
  grid : t.grid.Fit
  inactiveGrid : t.inactiveGrid.Fit

theorem fit_iff_stocked : t.Fit ↔ t.Stocked (Row.Spaced 1) :=
  ⟨fun h => ⟨Grid.fit_iff_stocked.mp h.grid, Grid.fit_iff_stocked.mp h.inactiveGrid⟩,
    fun h => ⟨Grid.fit_iff_stocked.mpr h.grid, Grid.fit_iff_stocked.mpr h.inactiveGrid⟩⟩

theorem fit_of_stocked {o : Option Term} (h : Allows o (Stocked (Row.Spaced 1))) : Allows o Fit :=
  h.mono fun _ => fit_iff_stocked.mpr

theorem Fit.setColumn (h : t.Fit) (column : Nat) : (t.setColumn column).Fit :=
  fit_iff_stocked.mpr ((fit_iff_stocked.mp h).setColumn column)

theorem Fit.setNeedsWrap (h : t.Fit) (b : Bool) : (t.setNeedsWrap b).Fit :=
  fit_iff_stocked.mpr ((fit_iff_stocked.mp h).setNeedsWrap b)

theorem Fit.advanceCursor (h : t.Fit) : t.advanceCursor.Fit :=
  fit_iff_stocked.mpr (fit_iff_stocked.mp h).advanceCursor

theorem Fit.modifyCell (h : t.Fit) {p : Point} {f : Cell → Cell} (hf : Cell.KeepsHalves f) :
    Allows (t.modifyCell p f) Fit :=
  fit_of_stocked ((fit_iff_stocked.mp h).modifyCell (Row.spaced_kept 1) hf)

theorem Fit.wrapline (h : t.Fit) : Allows t.wrapline Fit :=
  fit_of_stocked ((fit_iff_stocked.mp h).wrapline (Row.spaced_kept 1))

/-- The rows are spaced, except for the cursor's if that is about to be written from its
first column on. -/
structure Writable (t : Term) : Prop where
  first : t.grid.cursor.point.column = 0 →
    t.grid.raw.HoldsBut (Row.Spaced 1) (Row.Spaced 0) t.grid.cursor.point.line
  other : t.grid.cursor.point.column ≠ 0 → t.grid.raw.Holds (Row.Spaced 1)

theorem writable_of_holds (h : t.grid.raw.Holds (Row.Spaced 1)) : t.Writable :=
  ⟨fun _ => h.but fun _ hr => hr.mono (Nat.zero_le 1), fun _ => h⟩

/-- An update of cells that makes no halves. -/
def Touched (t t' : Term) : Prop := t'.Writable ∧ ∃ raw, t' = { t with grid.raw := raw }

theorem Writable.touched (h : t.Writable) : Touched t t := ⟨h, _, rfl⟩

theorem Touched.trans {a : Term} (h : Touched t a) (h' : Touched a t') : Touched t t' := by
  obtain ⟨-, raw, rfl⟩ := h
  obtain ⟨hw, raw', rfl⟩ := h'
  exact ⟨hw, raw', rfl⟩

theorem Writable.modifyCell (h : t.Writable) {p : Point} {f : Cell → Cell} (hf : Cell.KeepsHalves f) :
    Allows (t.modifyCell p f) (Touched t) := by
  intro t' ht'
  obtain ⟨raw, hraw, rfl⟩ := modifyCell_eq ht'
  refine ⟨⟨fun hc => ?_, fun hc => ?_⟩, raw, rfl⟩
  · exact (h.first hc).modify (fun _ hr => hr.modify_keeps hf) (fun _ hr => hr.modify_keeps hf) raw hraw
  · exact (h.other hc).modify (fun _ hr => hr.modify_keeps hf) raw hraw

theorem clearOtherHalf_touched (h : t.Writable) (cell : Cell) :
    Allows (t.clearOtherHalf cell) (Touched t) := by
  simp only [clearOtherHalf]
  split
  · exact h.modifyCell (Cell.modifyFlags_keepsHalves fun _ => ⟨(by cases ·), id⟩)
  · split
    · exact h.modifyCell Cell.clearWide_keepsHalves
    · exact .pure h.touched

theorem clearRelated_touched (h : t.Writable) : Allows t.clearRelated (Touched t) := by
  refine Allows.bind (P := fun _ => True) (fun _ _ => trivial) fun cell _ => ?_
  split
  · refine (clearOtherHalf_touched h cell).bind fun a ha => ?_
    simp only [clearLeadingSpacer]
    split
    · refine Allows.mono (P := Touched a) ?_ fun b hb => ha.trans hb
      exact ha.1.modifyCell (Cell.modifyFlags_keepsHalves fun _ => ⟨id, id⟩)
    · exact .pure ha
  · exact .pure h.touched

/-- Writing a cell makes its row spaced, if the cell may stand in the cursor's column. -/
theorem writeAtCursor_spaced (h : t.Writable) (c : Char)
    (hspacer : t.grid.cursor.template.flags.wideCharSpacer = true →
      1 ≤ t.grid.cursor.point.column ∧ t.grid.cursor.template.flags.wideChar = false) :
    Allows (t.writeAtCursor env c) fun t' =>
      ∃ raw : Storage Cell, raw.Holds (Row.Spaced 1) ∧ t' = { t with grid.raw := raw } := by
  simp only [writeAtCursor]
  refine (clearRelated_touched h).bind fun a ha => ?_
  obtain ⟨hw, raw, rfl⟩ := ha
  intro t' ht'
  obtain ⟨raw', hraw', rfl⟩ := modifyCell_eq ht'
  refine ⟨raw', ?_, rfl⟩
  by_cases hzero : t.grid.cursor.point.column = 0
  · simp only [hzero] at hraw'
    refine (hw.first hzero).settle (fun r hr => hr.modify_first fun cell => ?_) raw' hraw'
    refine Bool.eq_false_iff.mpr fun hflag => ?_
    exact absurd (hspacer hflag).1 (by omega)
  · have hcell : ∀ r : Row Cell, r.Spaced 1 → Allows (r.modify t.grid.cursor.point.column fun _ =>
        { t.grid.cursor.template with
          c := env.map (t.grid.cursor.charsets.get t.activeCharset) c }) (Row.Spaced 1) :=
      fun r hr => hr.modify fun _ _ hflag => hspacer hflag
    exact (hw.other hzero).modify hcell raw' hraw'

theorem writeMarked_fit {mark : Bool → Flags → Flags} (hw : t.Writable) (hsaved : t.grid.savedCursor.template.Plain)
    (hinactive : t.inactiveGrid.Fit) (c : Char)
    (hmark : (mark true t.grid.cursor.template.flags).wideCharSpacer = true →
      1 ≤ t.grid.cursor.point.column ∧ (mark true t.grid.cursor.template.flags).wideChar = false)
    (hplain : ({ t.grid.cursor.template with
      flags := mark false (mark true t.grid.cursor.template.flags) } : Cell).Plain) :
    Allows (t.writeMarked env mark c) fun t' => t'.Fit ∧
      t'.grid.cursor.point = t.grid.cursor.point ∧ t'.mode = t.mode := by
  simp only [writeMarked]
  have hmarked : Writable { t with
      grid.cursor.template.flags := mark true t.grid.cursor.template.flags } := ⟨hw.first, hw.other⟩
  refine (writeAtCursor_spaced hmarked c hmark).bind fun a ha => ?_
  obtain ⟨raw, hraw, rfl⟩ := ha
  exact .pure ⟨⟨⟨hraw, hplain, hsaved⟩, hinactive⟩, rfl, rfl⟩

/-- What printing needs: the cursor's row may still have a spacer in front. -/
structure Prints (t : Term) : Prop where
  writable : t.Writable
  template : t.grid.cursor.template.Plain
  saved : t.grid.savedCursor.template.Plain
  inactiveGrid : t.inactiveGrid.Fit

theorem Fit.prints (h : t.Fit) : t.Prints :=
  ⟨writable_of_holds h.grid.rows, h.grid.template, h.grid.saved, h.inactiveGrid⟩

theorem writeWide_fit (h : t.Prints) (c : Char) : Allows (t.writeWide env c) Fit := by
  unfold writeWide
  refine (writeMarked_fit h.writable h.saved h.inactiveGrid c (fun hspacer => ?_)
    ⟨rfl, h.template.spacer⟩).bind fun a ha => ?_
  · exact absurd (h.template.spacer.symm.trans hspacer) Bool.false_ne_true
  · obtain ⟨ha, -, -⟩ := ha
    have hnext := ha.setColumn (a.grid.cursor.point.column + 1)
    refine (writeMarked_fit hnext.prints.writable hnext.grid.saved hnext.inactiveGrid ' '
      (fun _ => ⟨Nat.le_add_left 1 _, hnext.grid.template.wideChar⟩)
      ⟨hnext.grid.template.wideChar, rfl⟩).bind fun b hb => .pure hb.1.advanceCursor

theorem inputWide_fit (h : t.Prints) (c : Char) : Allows (t.inputWide env c) fun t' =>
    t'.Fit ∨ t' = t.setNeedsWrap true ∧ t.columns ≤ t.grid.cursor.point.column + 1 := by
  unfold inputWide
  split
  · next hlast =>
      split
      · refine (writeMarked_fit h.writable h.saved h.inactiveGrid ' ' (fun hspacer => ?_)
          ⟨h.template.wideChar, h.template.spacer⟩).bind fun a ha => ?_
        · exact absurd (h.template.spacer.symm.trans hspacer) Bool.false_ne_true
        · refine ha.1.wrapline.bind fun b hb => ?_
          exact (writeWide_fit hb.prints c).mono fun _ => .inl
      · exact .pure (.inr ⟨rfl, hlast⟩)
  · exact (writeWide_fit h c).mono fun _ => .inl

/-- Shifting cells to the right may put a spacer into the first column, where the next
character is written. -/
theorem shiftForInsert_prints (h : t.Fit) (width : Nat) :
    Allows (t.shiftForInsert width) fun t' => t'.Prints ∧
      (t'.Fit ∨ t'.grid.cursor.point.column + width < t'.columns) := by
  unfold shiftForInsert
  split
  · next hroom =>
      intro t' ht'
      obtain ⟨raw, hraw, rfl⟩ := modifyRow_eq ht'
      refine ⟨⟨⟨fun hc => ?_, fun hc => ?_⟩, h.grid.template, h.grid.saved, h.inactiveGrid⟩, .inr hroom.2⟩
      · refine h.grid.rows.modify_but (fun _ hr => hr.mono (Nat.zero_le 1)) (fun r hr => ?_) raw hraw
        exact (Row.touch_spaced (hr.mono (Nat.zero_le 1))).swapAll fun _ _ =>
          ⟨Nat.zero_le _, Nat.zero_le _⟩
      · refine h.grid.rows.modify (fun r hr => (Row.touch_spaced hr).swapAll fun _ _ => ?_) raw hraw
        simp only at hc
        omega
  · exact .pure ⟨h.prints, .inl h⟩

theorem input_fit (h : t.Fit) (c : Char) : Allows (t.input env c) Fit := by
  unfold input
  split
  · exact .pure h
  · refine Allows.bind (P := fun _ => True) (fun _ _ => trivial) fun column _ => ?_
    exact h.modifyCell (Cell.pushZerowidth_keepsHalves c)
  · next width hpos _ =>
      refine Allows.bind (P := Fit) ?_ fun a ha => ?_
      · split
        · exact h.wrapline
        · exact .pure h
      · refine (shiftForInsert_prints ha width).bind fun b hb => ?_
        obtain ⟨hprints, hroom⟩ := hb
        split
        · refine (writeAtCursor_spaced hprints.writable c fun hspacer => ?_).bind fun d hd => ?_
          · exact absurd (hprints.template.spacer.symm.trans hspacer) Bool.false_ne_true
          · obtain ⟨raw, hraw, rfl⟩ := hd
            exact .pure (Fit.advanceCursor
              ⟨⟨hraw, hprints.template, hprints.saved⟩, hprints.inactiveGrid⟩)
        · refine (inputWide_fit hprints c).mono fun t' ht' => ?_
          rcases ht' with ht' | ⟨rfl, hlast⟩
          · exact ht'
          · -- Nothing was shifted where the character does not fit.
            refine (hroom.resolve_right fun hlt => ?_).setNeedsWrap true
            have hpos' : width ≠ 0 := hpos
            omega

end Term
end Velacritty
