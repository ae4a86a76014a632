import Velacritty.HalvedRows
import Velacritty.SpacerRuns

/-! In every run, only cells that were written are halves of fullwidth characters. -/
namespace Velacritty
open Fallible

/-! ### Reflow -/

section
variable {row lastRow : Row Cell} {columns : Nat} {wrapped : List Cell}

theorem unwrapRow_halved (h : lastRow.Halved) : (unwrapRow lastRow).Halved :=
  unwrapRow_kept (fun _ b hr => hr.modifyLast (Cell.setWrapline_keepsHalves b))
    (fun _ columns hr => hr.shrink columns) h

theorem pullCells_halved (hlast : lastRow.Halved) (hrow : row.Halved) :
    Allows (pullCells columns lastRow row) fun p => p.1.Halved ∧ p.2.1.Halved := by
  have hunwrap := unwrapRow_halved hlast
  have hocc := unwrapRow_full lastRow
  intro p hp
  simp only [pullCells, Option.bind_eq_bind, Option.bind_eq_some_iff] at hp
  obtain ⟨numWrapped, -, lastPulled, -, cell, -, hp⟩ := hp
  cases hwide : (GridCell.flags cell).wideChar with
  | true =>
      simp only [hwide, if_true, Option.bind_eq_some_iff, Option.some.injEq] at hp
      obtain ⟨_, -, ⟨cells, rest⟩, hsplit, rfl⟩ := hp
      obtain ⟨hcells, hrest⟩ := hrow.frontSplitOff _ _ hsplit
      refine ⟨hunwrap.append hocc (Row.single_append hcells fun c hc => ?_), hrest⟩
      exact List.mem_singleton.mp hc ▸ leadingSpacer_plain.single
  | false =>
      simp only [hwide, Bool.false_eq_true, if_false, Option.bind_eq_some_iff, Option.some.injEq] at hp
      obtain ⟨⟨cells, rest⟩, hsplit, rfl⟩ := hp
      obtain ⟨hcells, hrest⟩ := hrow.frontSplitOff _ _ hsplit
      exact ⟨hunwrap.append hocc hcells, hrest⟩

theorem splitWrapped_halved (hrow : row.Halved) (hwrapped : ∀ cell ∈ wrapped, cell.Single) :
    Allows (splitWrapped columns row wrapped)
      (SplitKept Row.Halved fun cells => ∀ cell ∈ cells, cell.Single) := by
  refine Allows.bind (P := fun _ => True) (fun _ _ => trivial) fun lastColumn _ => ?_
  refine Allows.bind (P := fun q : Row Cell × List Cell =>
    q.1.Halved ∧ ∀ cell ∈ q.2, cell.Single) ?_ fun q hq => ?_
  · split
    · intro q hq
      simp only [Option.bind_eq_bind, Option.bind_eq_some_iff, Option.some.injEq] at hq
      obtain ⟨wideChar, hchar, r, hmodify, rfl⟩ := hq
      refine ⟨hrow.modify (fun _ _ => leadingSpacer_plain.single) r hmodify, ?_⟩
      exact List.forall_mem_cons.mpr ⟨hrow.single _ (List.mem_of_getElem? hchar), hwrapped⟩
    · exact .pure ⟨hrow, hwrapped⟩
  · obtain ⟨hkept, hcells⟩ := hq
    simp only
    split
    · split
      · exact (Row.halved_kept.modify _ _ _ hkept (Cell.setWrapline_keepsHalves true)).bind
          fun r hr => .pure hr
      · refine .pure ⟨hkept, Row.updateLast_single (Cell.setWrapline_keepsHalves true) ?_⟩
        exact fun cell hcell => hcells cell (List.mem_of_mem_dropLast hcell)
    · exact .pure ⟨hkept, hcells⟩

theorem halved_reflowable :
    Reflowable Row.Halved (fun _ => True) fun cells => ∀ cell ∈ cells, cell.Single where
  new := Row.new_halved
  wrapline _ b h := h.modifyLast (Cell.setWrapline_keepsHalves b)
  grow _ columns h := h.grow columns
  shrink _ columns h := h.shrink columns
  pull _ _ _ hlast hrow _ := pullCells_halved hlast hrow
  split columns _ _ hrow _ hp := splitWrapped_halved (hrow.shrink columns) fun cell hcell =>
    hrow.single cell (List.mem_of_mem_drop (hp.subset hcell))
  unwrap _ h := Row.updateLast_single (Cell.setWrapline_keepsHalves false) h
  fromVec _ count hc := ⟨Row.fromVec_halved hc count, trivial⟩
  appendFront _ _ hrow hc := hrow.appendFront hc
  joins _ _ _ _ := trivial

end

/-! ### Printing -/

namespace Term
variable {t t' : Term} {env : Env}

def Rehalved (t t' : Term) : Prop :=
  ∃ raw : Storage Cell, raw.Holds Row.Halved ∧ t' = { t with grid.raw := raw }

theorem modifyCell_rehalved (h : t.grid.raw.Holds Row.Halved) {p : Point} {f : Cell → Cell}
    (hf : Cell.KeepsHalves f) : Allows (t.modifyCell p f) t.Rehalved := by
  intro t' ht'
  obtain ⟨raw, hraw, rfl⟩ := modifyCell_eq ht'
  exact ⟨raw, h.modify (fun r hr => Row.halved_kept.modify r _ _ hr hf) raw hraw, rfl⟩

theorem Rehalved.trans {a : Term} (h : t.Rehalved a) (h' : a.Rehalved t') : t.Rehalved t' := by
  obtain ⟨raw, -, rfl⟩ := h
  obtain ⟨raw', hraw', rfl⟩ := h'
  exact ⟨raw', hraw', rfl⟩

theorem clearOtherHalf_rehalved (h : t.grid.raw.Holds Row.Halved) (cell : Cell) :
    Allows (t.clearOtherHalf cell) t.Rehalved := by
  simp only [clearOtherHalf]
  split
  · exact modifyCell_rehalved h
      (Cell.modifyFlags_keepsHalves fun _ => ⟨(by cases ·), id⟩)
  · split
    · exact modifyCell_rehalved h Cell.clearWide_keepsHalves
    · exact .pure ⟨_, h, rfl⟩

theorem clearRelated_rehalved (h : t.grid.raw.Holds Row.Halved) : Allows t.clearRelated t.Rehalved := by
  refine Allows.bind (P := fun _ => True) (fun _ _ => trivial) fun cell _ => ?_
  split
  · refine (clearOtherHalf_rehalved h cell).bind fun a ha => ?_
    obtain ⟨raw, hraw, rfl⟩ := ha
    simp only [clearLeadingSpacer]
    split
    · refine Allows.mono (P := Rehalved { t with grid.raw := raw }) ?_ fun b hb => ?_
      · exact modifyCell_rehalved hraw (Cell.modifyFlags_keepsHalves fun _ => ⟨id, id⟩)
      · exact Rehalved.trans ⟨raw, hraw, rfl⟩ hb
    · exact .pure ⟨raw, hraw, rfl⟩
  · exact .pure ⟨_, h, rfl⟩

theorem writeAtCursor_rehalved (h : t.grid.raw.Holds Row.Halved)
    (hsingle : t.grid.cursor.template.Single) (c : Char) :
    Allows (t.writeAtCursor env c) t.Rehalved := by
  simp only [writeAtCursor]
  refine (clearRelated_rehalved h).bind fun a ha => ?_
  obtain ⟨raw, hraw, rfl⟩ := ha
  intro t' ht'
  obtain ⟨raw', hraw', rfl⟩ := modifyCell_eq ht'
  have hcell : ∀ r : Row Cell, r.Halved → Allows (r.modify t.grid.cursor.point.column fun _ =>
      { t.grid.cursor.template with
        c := env.map (t.grid.cursor.charsets.get t.activeCharset) c }) Row.Halved :=
    fun r hr => hr.modify fun _ _ => hsingle
  exact ⟨raw', hraw.modify hcell raw' hraw', rfl⟩

/-- The mark makes the template one half, and is taken off again. -/
theorem writeMarked_halved {mark : Bool → Flags → Flags} (h : t.Stocked Row.Halved) (c : Char)
    (hmark : ({ t.grid.cursor.template with
      flags := mark true t.grid.cursor.template.flags } : Cell).Single)
    (hplain : ({ t.grid.cursor.template with
      flags := mark false (mark true t.grid.cursor.template.flags) } : Cell).Plain) :
    Allows (t.writeMarked env mark c) (Stocked Row.Halved) := by
  simp only [writeMarked]
  refine (writeAtCursor_rehalved (t := { t with
    grid.cursor.template.flags := mark true t.grid.cursor.template.flags }) h.grid.rows hmark c).bind
      fun a ha => ?_
  obtain ⟨raw, hraw, rfl⟩ := ha
  exact .pure ⟨⟨hraw, hplain, h.grid.saved⟩, h.inactiveGrid⟩

theorem writeWide_halved (h : t.Stocked Row.Halved) (c : Char) :
    Allows (t.writeWide env c) (Stocked Row.Halved) := by
  unfold writeWide
  refine (writeMarked_halved h c (fun hspacer => ?_) ⟨rfl, h.grid.template.spacer⟩).bind
    fun a ha => ?_
  · exact absurd (h.grid.template.spacer.symm.trans hspacer) Bool.false_ne_true
  · have hnext := ha.setColumn (a.grid.cursor.point.column + 1)
    refine (writeMarked_halved hnext ' ' (fun _ => hnext.grid.template.wideChar)
      ⟨hnext.grid.template.wideChar, rfl⟩).bind fun b hb => .pure hb.advanceCursor

theorem inputWide_halved (h : t.Stocked Row.Halved) (c : Char) :
    Allows (t.inputWide env c) (Stocked Row.Halved) := by
  unfold inputWide
  split
  · split
    · refine (writeMarked_halved h ' ' (fun _ => h.grid.template.wideChar)
        ⟨h.grid.template.wideChar, h.grid.template.spacer⟩).bind fun a ha => ?_
      exact (ha.wrapline Row.halved_kept).bind fun b hb => writeWide_halved hb c
    · exact .pure (h.setNeedsWrap true)
  · exact writeWide_halved h c

theorem input_halved (h : t.Stocked Row.Halved) (c : Char) :
    Allows (t.input env c) (Stocked Row.Halved) := by
  unfold input
  split
  · exact .pure h
  · refine Allows.bind (P := fun _ => True) (fun _ _ => trivial) fun column _ => ?_
    exact h.modifyCell Row.halved_kept (Cell.pushZerowidth_keepsHalves c)
  · refine Allows.bind (P := Stocked Row.Halved) ?_ fun a ha => ?_
    · split
      · exact h.wrapline Row.halved_kept
      · exact .pure h
    · refine Allows.bind (P := Stocked Row.Halved) ?_ fun b hb => ?_
      · unfold shiftForInsert
        split
        · exact ha.modifyRow fun r hr => (Row.touch_halved hr).swapAll
        · exact .pure ha
      · split
        · refine (writeAtCursor_rehalved hb.grid.rows hb.grid.template.single c).bind fun d hd => ?_
          obtain ⟨raw, hraw, rfl⟩ := hd
          exact .pure (hb.raw hraw).advanceCursor
        · exact inputWide_halved hb c

/-! ### Runs -/

theorem insertBlank_halved (h : t.Stocked Row.Halved) (count : Nat) :
    Allows (t.insertBlank count) (Stocked Row.Halved) := by
  refine Allows.bind (P := fun _ => True) (fun _ _ => trivial) fun room _ => ?_
  refine (h.damageColumns _ _).bind fun a ha => ?_
  exact ha.modifyRow fun r hr => (Row.touch_halved hr).swapAll.bind fun r' hr' =>
    hr'.fill t.bgCell_plain

theorem deleteChars_halved (h : t.Stocked Row.Halved) (count : Nat) :
    Allows (t.deleteChars count) (Stocked Row.Halved) := by
  refine (h.damageColumns _ _).bind fun a ha => ?_
  exact ha.modifyRow fun r hr => (Row.touch_halved hr).swapAll.bind fun r' hr' =>
    hr'.fill t.bgCell_plain

theorem Resized.halved {lines columns : Nat} (h : Resized lines columns t t') (ht : t.WF)
    (hs : t.Stocked Row.Halved) (hlines : 1 ≤ lines) : t'.Stocked Row.Halved := by
  have hreset : ∀ (r : Row Cell) (template : Cell), r.Halved →
      Allows (r.reset template) fun _ => True := fun _ _ _ _ _ => trivial
  exact ⟨Grid.resize_kept Row.halved_kept hreset halved_reflowable ht.grid hs.grid hlines
      (fun _ _ _ _ => trivial) _ h.grid,
    Grid.resize_kept Row.halved_kept hreset halved_reflowable ht.inactiveGrid hs.inactiveGrid hlines
      (fun _ _ _ _ => trivial) _ h.inactiveGrid⟩

theorem step_halved (ht : t.WF) (h : t.Stocked Row.Halved) {op : TermOp} (hop : op.Admissible t) :
    Allows (op.step env t) (Stocked Row.Halved) := by
  by_cases hmoves : op.movesHalves = false
  · exact step_stocked Row.halved_kept ht h hop hmoves
  cases op with
  | handler op =>
      cases op with
      | input c => exact input_halved h c
      | insertBlank count => exact insertBlank_halved h count
      | deleteChars count => exact deleteChars_halved h count
      | _ => exact absurd rfl hmoves
  | resize lines columns =>
      intro t' ht'
      cases TermOp.step_stepped env ht hop t' ht' with
      | viewed hviewed => exact hviewed.stocked h
      | resized hresized => exact hresized.halved ht h hop.1
  | _ => exact absurd rfl hmoves

/-- In every run, halves of fullwidth characters were written, and no cell is both halves. -/
theorem Reachable.halved {config : Config} {lines columns : Nat}
    (h : Reachable env config lines columns t) (hl : 1 ≤ lines) (hc : 2 ≤ columns) :
    t.Stocked Row.Halved := by
  have hinv : t.WF ∧ t.Stocked Row.Halved := by
    refine h.invariant (P := fun t => t.WF ∧ t.Stocked Row.Halved)
      ⟨new_wf config hl hc, new_stocked Row.halved_kept config lines columns⟩ fun s op s' hs hop hstep => ?_
    exact ⟨(TermOp.step_stepped env hs.1 hop _ hstep).wf hs.1, step_halved hs.1 hs.2 hop _ hstep⟩
  exact hinv.2

end Term
end Velacritty
