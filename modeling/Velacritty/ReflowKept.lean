import Velacritty.FrontRows
import Velacritty.GridReflow
import Velacritty.Stocked

/-! What reflow keeps of the rows, and of the cells that go from one row to the next. -/
namespace Velacritty
open Fallible

section
variable {T : Type} {P J : Row T → Prop} {C : List T → Prop}

/-- What stays of a row satisfies `P`, and what leaves it `C`. -/
def SplitKept (P : Row T → Prop) (C : List T → Prop) : WrapSplit T → Prop
  | .wrapped row cells => P row ∧ C cells
  | .spacerOnly row => P row

/-- The visited rows satisfy `P`, and the saved cursor is left alone. -/
structure GrowKept (P : Row T → Prop) (saved : Cursor T) (st : GrowState T) : Prop where
  rows : ∀ r ∈ st.reversed, P r
  savedCursor : st.grid.savedCursor = saved

/-- The pushed rows satisfy `P`, the buffered cells `C`, and the saved cursor is left alone. -/
structure ShrinkKept (P : Row T → Prop) (C : List T → Prop) (saved : Cursor T) (sh : ShrinkState T) :
    Prop where
  rows : ∀ r ∈ sh.newRaw, P r
  buffered : ∀ cells, sh.buffered = some cells → C cells
  savedCursor : sh.grid.savedCursor = saved

theorem pullDown_kept {saved : Cursor T} {st : GrowState T} (h : GrowKept P saved st) : Allows (pullDown st) (GrowKept P saved) := by
  intro st' hst'
  unfold pullDown at hst'
  split at hst'
  · simp only [Option.bind_eq_bind, Option.bind_eq_some_iff, Option.some.injEq] at hst'
    obtain ⟨_, -, _, -, _, -, rfl⟩ := hst'
    exact ⟨fun r hr => h.rows r (List.mem_of_mem_drop hr), h.savedCursor⟩
  · cases hst'
    exact h

namespace Grid

theorem unwrapCursor_raw (g : Grid T) (reflow : Bool) :
    (g.unwrapCursor reflow).raw = g.raw ∧ (g.unwrapCursor reflow).savedCursor = g.savedCursor := by
  unfold unwrapCursor
  split
  · exact ⟨rfl, rfl⟩
  · exact ⟨rfl, rfl⟩

theorem takeAll_kept {g : Grid T} {reflow : Bool} (hz : g.raw.zero < g.raw.inner.length) (h : g.raw.Holds P)
    (hj : reflow = true → ∀ r ∈ g.raw.rows, J r) :
    Allows g.raw.takeAll fun p => (∀ r ∈ p.1.reverse, P r) ∧
      (reflow = true → ∀ r ∈ p.1.reverse, J r) := by
  intro p hp
  have hrows : ∀ r ∈ p.1, P r := h.takeAll p hp
  refine ⟨fun r hr => hrows r (List.mem_reverse.mp hr), fun hreflow r hr => ?_⟩
  refine hj hreflow r ?_
  unfold Storage.takeAll at hp
  rw [Storage.truncate_rows hz] at hp
  cases hp
  exact List.mem_reverse.mp hr

end Grid

variable [GridCell T]

theorem wrappedCells_prefix {g : Grid T} {row : Row T} {reflow : Bool} {columns i : Nat} :
    Allows (wrappedCells reflow columns i (row.shrink columns).2 g) fun cells? =>
      ∀ cells, cells? = some cells → reflow = true ∧ cells <+: row.inner.drop columns := by
  intro cells? hcells?
  unfold wrappedCells at hcells?
  split at hcells?
  · next wrapped hremoved =>
      cases hcells?
      rintro cells hcells
      cases hcells
      refine ⟨rfl, ?_⟩
      unfold Row.shrink at hremoved
      split at hremoved
      · cases hremoved
      · simp only [ite_eq_iff, reduceCtorEq, and_false, false_or, Option.some.injEq] at hremoved
        rw [← hremoved.2]
        exact List.rdropWhile_prefix _ _
  · simp only [Option.bind_eq_bind, Option.bind_eq_some_iff, Option.some.injEq] at hcells?
    obtain ⟨_, -, rfl⟩ := hcells?
    intro cells hcells
    simp only [ite_eq_iff, Option.some.injEq, reduceCtorEq, and_false, or_false] at hcells
    obtain ⟨⟨hreflow, -⟩, rfl⟩ := hcells
    exact ⟨hreflow, List.nil_prefix⟩

theorem Grid.settleCursor_raw {g : Grid T} {reflow : Bool} (columns : Nat) : Allows (g.settleCursor reflow columns) fun g' =>
    g'.raw = g.raw ∧ g'.savedCursor = g.savedCursor := by
  refine Allows.bind (P := fun _ => True) (fun _ _ => trivial) fun lastColumn _ => ?_
  split
  · exact .pure ⟨rfl, rfl⟩
  · refine Allows.bind (P := fun _ => True) (fun _ _ => trivial) fun pending _ => ?_
    split
    · exact .pure ⟨rfl, rfl⟩
    · exact .pure ⟨rfl, rfl⟩

/-- The parts of reflow keep `P` of rows and `C` of wrapped cells. Rows that are cut satisfy
`J` before. -/
structure Reflowable (P J : Row T → Prop) (C : List T → Prop) : Prop where
  new : ∀ columns, P (Row.new columns)
  wrapline : ∀ r b, P r → P (r.modifyLast (setWrapline b))
  grow : ∀ r columns, P r → P (r.grow columns)
  shrink : ∀ r columns, P r → P (r.shrink columns).1
  pull : ∀ columns lastRow row, P lastRow → P row → J row →
    Allows (pullCells columns lastRow row) fun p => P p.1 ∧ P p.2.1
  split : ∀ columns row wrapped, P row → J row → wrapped <+: row.inner.drop columns →
    Allows (splitWrapped columns (row.shrink columns).1 wrapped) (SplitKept P C)
  unwrap : ∀ cells, C cells → C (updateLast (setWrapline false) cells)
  fromVec : ∀ cells count, C cells →
    P (.fromVec (cells ++ List.replicate count default) cells.length) ∧
      J (.fromVec (cells ++ List.replicate count default) cells.length)
  appendFront : ∀ row cells, P row → C cells → P (row.appendFront cells)
  joins : ∀ row cells, J row → C cells → J (row.appendFront cells)

/-! ### Growing -/

/-- The last cell was just written. -/
theorem unwrapRow_full (lastRow : Row T) : (unwrapRow lastRow).occ = (unwrapRow lastRow).len := by
  have hocc : (lastRow.modifyLast (setWrapline false)).occ =
      (lastRow.modifyLast (setWrapline false)).len := by
    rw [Row.occ_modifyLast, Row.len_modifyLast]
  unfold unwrapRow
  simp only
  split
  · rw [Row.len_shrink]
    unfold Row.shrink
    split
    · simp only [hocc]
      omega
    · simp only [hocc]
  · exact hocc

theorem unwrapRow_kept {lastRow : Row T} (hwrap : ∀ r b, P r → P (r.modifyLast (setWrapline b)))
    (hshrink : ∀ r columns, P r → P (r.shrink columns).1) (h : P lastRow) : P (unwrapRow lastRow) := by
  unfold unwrapRow
  simp only
  split
  · exact hshrink _ _ (hwrap _ false h)
  · exact hwrap _ false h

section
variable {row : Row T} {rows : List (Row T)} {columns i : Nat} {reflow : Bool} {saved : Cursor T}
  {st : GrowState T} {sh : ShrinkState T} (hR : Reflowable P J C)
include hR

theorem growRow_kept (h : GrowKept P saved st) (hrow : P row) (hj : reflow = true → J row) :
    Allows (growRow reflow columns i row st) (GrowKept P saved) := by
  unfold growRow
  split
  · exact .pure ⟨fun r hr => List.mem_singleton.mp hr ▸ hrow, h.savedCursor⟩
  · next lastRow above hrev =>
      have habove : ∀ r ∈ lastRow :: above, P r := hrev ▸ h.rows
      split
      · next hshould =>
          have hreflow : reflow = true := by
            simp only [shouldReflow, Bool.and_eq_true] at hshould
            exact hshould.1.1.1
          refine (hR.pull _ _ _ (habove _ List.mem_cons_self) hrow (hj hreflow)).bind fun p hp => ?_
          obtain ⟨last', row', numWrapped⟩ := p
          obtain ⟨hlast', hrow'⟩ := hp
          have hpulled : ∀ r ∈ last' :: above, P r := List.forall_mem_cons.mpr
            ⟨hlast', fun r hr => habove r (List.mem_cons_of_mem _ hr)⟩
          have hpushed : ∀ r ∈ row' :: last'.modifyLast (setWrapline true) :: above, P r :=
            List.forall_mem_cons.mpr ⟨hrow', List.forall_mem_cons.mpr
              ⟨hR.wrapline _ true hlast', fun r hr => habove r (List.mem_cons_of_mem _ hr)⟩⟩
          intro st' hst'
          simp only [Option.bind_eq_bind, Option.bind_eq_some_iff] at hst'
          obtain ⟨_, -, hst'⟩ := hst'
          split at hst'
          · simp only [reflowCursor, Option.bind_eq_bind, Option.bind_eq_some_iff] at hst'
            obtain ⟨⟨grid, lineDelta⟩, ⟨_, -, hgrid⟩, hst'⟩ := hst'
            obtain ⟨rfl, rfl⟩ := Prod.mk.inj (Option.some.inj hgrid)
            split at hst'
            · cases hst'
              exact ⟨hpulled, h.savedCursor⟩
            · cases hst'
              exact ⟨hpushed, h.savedCursor⟩
          · split at hst'
            · cases hst'
              exact ⟨hpulled, h.savedCursor⟩
            · cases hst'
              exact ⟨hpushed, h.savedCursor⟩
      · exact .pure ⟨List.forall_mem_cons.mpr ⟨hrow, h.rows⟩, h.savedCursor⟩

theorem growRows_kept (h : GrowKept P saved st) (hrows : ∀ r ∈ rows, P r)
    (hj : reflow = true → ∀ r ∈ rows, J r) :
    Allows (growRows reflow columns rows st) (GrowKept P saved) := by
  induction rows generalizing st with
  | nil => exact .pure h
  | cons row rest ih =>
      have hrow : Allows (growRow reflow columns rest.length row st) (GrowKept P saved) :=
        growRow_kept hR h (hrows row List.mem_cons_self) fun hreflow =>
          hj hreflow row List.mem_cons_self
      refine hrow.bind fun a ha => ih ha (fun r hr => hrows r (List.mem_cons_of_mem _ hr)) ?_
      exact fun hreflow r hr => hj hreflow r (List.mem_cons_of_mem _ hr)

theorem fillViewport_kept (h : GrowKept P saved st) : GrowKept P saved (fillViewport columns st) := by
  unfold fillViewport
  split
  · refine ⟨fun r hr => ?_, h.savedCursor⟩
    rcases List.mem_append.mp hr with hr | hr
    · exact List.eq_of_mem_replicate hr ▸ hR.new columns
    · exact h.rows r hr
  · exact h

/-! ### Shrinking -/

theorem shrinkStep_kept (h : ShrinkKept P C saved sh) (hrow : P row) (hj : reflow = true → J row) :
    Allows (shrinkStep reflow columns i (row, sh)) (Sum.elim (ShrinkKept P C saved) fun q =>
      ShrinkKept P C saved q.2 ∧ P q.1 ∧ (reflow = true → J q.1)) := by
  simp only [shrinkStep]
  refine wrappedCells_prefix.bind fun cells? hcells? => ?_
  cases cells? with
  | none =>
      exact .pure ⟨List.forall_mem_cons.mpr ⟨hR.shrink _ _ hrow, h.rows⟩, h.buffered, h.savedCursor⟩
  | some wrapped =>
      obtain ⟨hreflow, hpre⟩ := hcells? wrapped rfl
      refine (hR.split _ _ _ hrow (hj hreflow) hpre).bind fun split hsplit => ?_
      cases split with
      | spacerOnly row =>
          exact .pure ⟨List.forall_mem_cons.mpr ⟨hsplit, h.rows⟩, h.buffered, h.savedCursor⟩
      | wrapped row' cells =>
          obtain ⟨hrow', hcells⟩ := hsplit
          have hpushed : ∀ r ∈ row'.modifyLast (setWrapline true) :: sh.newRaw, P r :=
            List.forall_mem_cons.mpr ⟨hR.wrapline _ true hrow', h.rows⟩
          simp only
          split
          · refine .pure ⟨hpushed, fun cells' hcells' => ?_, h.savedCursor⟩
            cases hcells'
            exact hR.unwrap _ hcells
          · intro q hq
            simp only [startWrappedRow, Option.bind_eq_bind, Option.bind_assoc, Option.bind_some,
              Option.bind_eq_some_iff, Option.some.injEq] at hq
            obtain ⟨_, -, rfl⟩ := hq
            obtain ⟨hp, hj'⟩ := hR.fromVec cells (columns - cells.length) hcells
            exact ⟨⟨hpushed, h.buffered, h.savedCursor⟩, hp, fun _ => hj'⟩

theorem prependBuffered_kept (h : ShrinkKept P C saved sh) (hrow : P row) (hj : reflow = true → J row) :
    Allows (prependBuffered i row sh) fun q =>
      ShrinkKept P C saved q.2 ∧ P q.1 ∧ (reflow = true → J q.1) := by
  unfold prependBuffered
  split
  · exact .pure ⟨h, hrow, hj⟩
  · next cells hcells =>
      have hcells' := h.buffered cells hcells
      intro q hq
      simp only [Option.bind_eq_bind, Option.bind_eq_some_iff, Option.some.injEq] at hq
      obtain ⟨_, -, rfl⟩ := hq
      exact ⟨⟨h.rows, fun _ hnone => (nomatch hnone), h.savedCursor⟩,
        hR.appendFront _ _ hrow hcells', fun hreflow => hR.joins _ _ (hj hreflow) hcells'⟩

theorem shrinkRows_kept (h : ShrinkKept P C saved sh) (hrows : ∀ r ∈ rows, P r)
    (hj : reflow = true → ∀ r ∈ rows, J r) :
    Allows (shrinkRows reflow columns rows sh) (ShrinkKept P C saved) := by
  induction rows generalizing sh with
  | nil => exact .pure h
  | cons row rest ih =>
      refine (prependBuffered_kept hR h (hrows row List.mem_cons_self)
        fun hreflow => hj hreflow row List.mem_cons_self).bind fun q hq => ?_
      refine Allows.bind (P := ShrinkKept P C saved) ?_ fun a ha =>
        ih ha (fun r hr => hrows r (List.mem_cons_of_mem _ hr))
          fun hreflow r hr => hj hreflow r (List.mem_cons_of_mem _ hr)
      exact loop_allows (P := fun q : Row T × ShrinkState T =>
        ShrinkKept P C saved q.2 ∧ P q.1 ∧ (reflow = true → J q.1)) hq
        fun q hq => shrinkStep_kept hR hq.1 hq.2.1 hq.2.2

end

/-! ### Grids -/

namespace Grid
variable {g : Grid T} {reflow : Bool}

variable (hR : Reflowable P J C)
include hR

theorem growColumns_kept (hz : g.raw.zero < g.raw.inner.length) (h : g.raw.Holds P)
    (hj : reflow = true → ∀ r ∈ g.raw.rows, J r) (columns : Nat) :
    Allows (g.growColumns reflow columns) fun g' => g'.raw.Holds P ∧
      g'.savedCursor.template = g.savedCursor.template := by
  obtain ⟨hraw, hsaved⟩ := unwrapCursor_raw { g with columns } reflow
  simp only [growColumns, hraw]
  refine (takeAll_kept hz h hj).bind fun p hp => ?_
  obtain ⟨rows, raw⟩ := p
  have hstart : GrowKept P g.savedCursor
      ⟨{ ({ g with columns }.unwrapCursor reflow) with raw }, [], 0⟩ :=
    ⟨fun r hr => absurd hr List.not_mem_nil, hsaved⟩
  refine (growRows_kept hR hstart hp.1 hp.2).bind fun st hst => ?_
  refine (pullDown_kept (fillViewport_kept hR hst)).bind fun st' hst' => .pure ⟨fun r hr => ?_, ?_⟩
  · obtain ⟨r', hr', rfl⟩ := List.mem_map.mp hr
    exact hR.grow r' columns (hst'.rows r' hr')
  · exact congrArg Cursor.template hst'.savedCursor

theorem shrinkColumns_kept (hz : g.raw.zero < g.raw.inner.length) (h : g.raw.Holds P)
    (hj : reflow = true → ∀ r ∈ g.raw.rows, J r) (columns : Nat) :
    Allows (g.shrinkColumns reflow columns) fun g' => g'.raw.Holds P ∧
      g'.savedCursor.template = g.savedCursor.template := by
  obtain ⟨hraw, hsaved⟩ := unwrapCursor_raw { g with columns } reflow
  simp only [shrinkColumns, hraw]
  refine (takeAll_kept hz h hj).bind fun p hp => ?_
  obtain ⟨rows, raw⟩ := p
  have hstart : ShrinkKept P C g.savedCursor
      ⟨{ ({ g with columns }.unwrapCursor reflow) with raw }, [], none⟩ :=
    ⟨fun r hr => absurd hr List.not_mem_nil, fun _ hnone => (nomatch hnone), hsaved⟩
  refine (shrinkRows_kept hR hstart hp.1 hp.2).bind fun st hst => ?_
  refine (settleCursor_raw columns).bind fun a ha => .pure ⟨?_, ?_⟩
  · rw [ha.1]
    exact fun r hr => hst.rows r (List.mem_of_mem_take hr)
  · simp only [ha.2]
    exact congrArg Cursor.template hst.savedCursor

end Grid
end

/-! ### Changes of the size -/

namespace Grid
variable {g : Grid Cell} {P J : Row Cell → Prop} {C : List Cell → Prop} {reflow : Bool}
  {lines columns : Nat} (hP : Row.Kept P)
include hP

theorem linesResized_kept (hreset : ∀ r template, P r → Allows (r.reset template) J) (hg : g.WF)
    (h : g.Stocked P) (hlines : 1 ≤ lines) :
    Allows (g.linesResized lines) fun a => a.raw.Holds P ∧
      a.savedCursor.template = g.savedCursor.template ∧
        ((∀ r ∈ g.raw.rows, J r) → ∀ r ∈ a.raw.rows, J r) := by
  have hfronted : (∀ r ∈ g.raw.rows, J r) →
      Fronted J P g.raw.len { g with cursor.template := default } := fun hj =>
    ⟨hg.raw.filled, hg.visible, h.rows, Storage.front_of_rows hj⟩
  simp only [linesResized]
  intro a ha
  split at ha
  · obtain ⟨hrows, hsaved⟩ := growLines_holds hP.lasting (by exact h.rows) lines a ha
    exact ⟨hrows, hsaved, fun hj => growLines_front hP.lasting hreset (hfronted hj) lines a ha⟩
  · split at ha
    · obtain ⟨hrows, hsaved⟩ := shrinkLines_holds hP.lasting (by exact h.rows) lines a ha
      exact ⟨hrows, hsaved, fun hj =>
        shrinkLines_front hP.lasting hreset (hfronted hj) hlines a ha⟩
    · cases ha
      exact ⟨h.rows, rfl, id⟩

theorem resize_kept (hreset : ∀ r template, P r → Allows (r.reset template) J)
    (hR : Reflowable P J C) (hg : g.WF) (h : g.Stocked P) (hlines : 1 ≤ lines)
    (hj : reflow = true → columns ≠ g.columns → ∀ r ∈ g.raw.rows, J r) :
    Allows (g.resize reflow lines columns) (Stocked P) := by
  rw [resize_eq]
  intro g' hg'
  simp only [Option.bind_eq_bind, Option.bind_eq_some_iff, Option.some.injEq] at hg'
  obtain ⟨a, ha, b, hb, rfl⟩ := hg'
  obtain ⟨hrows, hsaved, hja⟩ := linesResized_kept hP hreset hg h hlines a ha
  obtain ⟨hwf, -, hcolumns, -⟩ := (linesResized_returns hg hlines).of_eq ha
  have hb' : b.raw.Holds P ∧ b.savedCursor.template = a.savedCursor.template := by
    unfold columnsResized at hb
    split at hb
    · exact growColumns_kept hR hwf.raw.zero_lt hrows
        (fun hreflow => hja (hj hreflow (by omega))) columns b hb
    · split at hb
      · exact shrinkColumns_kept hR hwf.raw.zero_lt hrows
          (fun hreflow => hja (hj hreflow (by omega))) columns b hb
      · cases hb
        exact ⟨hrows, rfl⟩
  exact ⟨hb'.1, h.template, (hb'.2.trans hsaved) ▸ h.saved⟩

end Grid
end Velacritty
