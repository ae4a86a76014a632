import Velacritty.SpacerRoom
import Velacritty.ViMotions

/-! In every run, the first column has no spacer unless a deletion or a reflow cuts a
fullwidth character in two. -/
namespace Velacritty
open Fallible

namespace Row
variable {r r' : Row Cell} {columns start count : Nat} {bg : Cell}

theorem Spaced.of_first (h : r.Spaced 0)
    (hfirst : ∀ cell, r.inner[0]? = some cell → cell.flags.wideCharSpacer = false) : r.Spaced 1 := by
  refine ⟨h.occ_le, fun k cell hcell hspacer => ⟨Nat.one_le_iff_ne_zero.mpr ?_, (h.spacer k cell hcell hspacer).2⟩⟩
  rintro rfl
  exact Bool.false_ne_true ((hfirst cell hcell).symm.trans hspacer)

theorem Spaced.first (h : r.Spaced 1) {cell : Cell} (hcell : r.inner[0]? = some cell) :
    cell.flags.wideCharSpacer = false := by
  refine Bool.eq_false_iff.mpr fun hspacer => ?_
  exact absurd (h.spacer 0 cell hcell hspacer).1 (by decide)

theorem swap_self_spaced (h : r.Spaced 1) (a : Nat) : Allows (r.swap a a) (Spaced 1) := by
  intro r' hr'
  have hspaced := (h.mono (Nat.zero_le 1)).swap (Nat.zero_le a) (Nat.zero_le a) r' hr'
  refine hspaced.of_first fun cell hcell => h.first (?_ : r.inner[0]? = some cell)
  simp only [Row.swap, Option.bind_eq_bind, Option.bind_eq_some_iff, Option.some.injEq] at hr'
  obtain ⟨x, hx, y, hy, rfl⟩ := hr'
  cases hx.symm.trans hy
  rw [List.set_set] at hcell
  by_cases ha : a = 0
  · subst ha
    rw [List.getElem?_set_self (List.getElem?_eq_some_iff.mp hx).1] at hcell
    rw [hx, hcell]
  · rwa [List.getElem?_set_ne ha] at hcell

/-- Inserting blanks pushes spacers to the right, and fills the columns they leave. -/
theorem insertBlank_spaced (h : r.Spaced 1) (hbg : bg.Plain) (offsets : List Nat) :
    Allows (r.touch.swapAll start (start + count) offsets >>= fun row =>
      row.modifyRange start (start + count) fun _ => bg) (Spaced 1) := by
  have htouch := touch_spaced h
  by_cases hstart : start = 0
  · subst hstart
    by_cases hcount : count = 0
    · subst hcount
      refine Allows.bind (P := Spaced 1) (fun a ha => ?_) fun a ha => ha.fill hbg fun k _ _ => by omega
      refine foldlM_invariant htouch (fun s o s' hs _ hstep => ?_) ha
      exact swap_self_spaced hs _ s' hstep
    · refine ((htouch.mono (Nat.zero_le 1)).swapAll fun _ _ =>
        ⟨Nat.zero_le _, Nat.zero_le _⟩).bind fun a ha => ha.fill hbg fun k _ _ => ?_
      omega
  · refine (htouch.swapAll fun _ _ => ?_).bind fun a ha => ha.fill hbg fun k _ _ => by omega
    exact ⟨by omega, by omega⟩

/-- The cells from `start` on are replaced by those `count` columns further right. -/
def deleteCells (r : Row Cell) (columns start count : Nat) (bg : Cell) : Option (Row Cell) := do
  let stop := min (start + count) (columns - 1)
  let row ← r.touch.swapAll stop start (List.range (columns - stop))
  row.modifyRange (columns - count) columns fun _ => bg

theorem deleteCells_first (hcount : count < columns)
    (h : r.deleteCells columns 0 count bg = some r') : r'.inner[0]? = r.inner[count]? := by
  simp only [deleteCells, Nat.zero_add, Nat.min_eq_left (show count ≤ columns - 1 by omega),
    Option.bind_eq_bind, Option.bind_eq_some_iff] at h
  obtain ⟨a, ha, hr'⟩ := h
  have hother := modifyRange_get hr' 0 (by omega)
  rw [show columns - count = (columns - count - 1) + 1 by omega] at ha
  have hfirst := swapAll_first ha
  exact hother.trans hfirst

theorem deleteCells_spaced (h : r.Spaced 1) (hstart : start < columns) (hcount : count ≤ columns)
    (hbg : bg.Plain)
    (hpull : start = 0 → 0 < count → count < columns → ∀ cell, r.inner[count]? = some cell →
      cell.flags.wideCharSpacer = false) :
    Allows (r.deleteCells columns start count bg) (Spaced 1) := by
  have htouch := touch_spaced h
  by_cases hzero : start = 0
  · subst hzero
    have hmoved : ∀ a, r.touch.swapAll (min (0 + count) (columns - 1)) 0
        (List.range (columns - min (0 + count) (columns - 1))) = some a → a.Spaced 0 :=
      (htouch.mono (Nat.zero_le 1)).swapAll fun _ _ => ⟨Nat.zero_le _, Nat.zero_le _⟩
    by_cases hall : count = columns
    · refine Allows.bind hmoved fun a ha => ha.fill hbg fun k _ _ => ?_
      omega
    · intro r' hr'
      have hspaced : r'.Spaced 0 :=
        Allows.bind hmoved (fun a ha => ha.fill hbg fun k _ _ => by omega) r' hr'
      refine hspaced.of_first fun cell hcell => ?_
      rw [deleteCells_first (by omega) hr'] at hcell
      by_cases hnone : count = 0
      · subst hnone
        exact h.first hcell
      · exact hpull rfl (by omega) (by omega) cell hcell
  · refine (htouch.swapAll fun _ _ => ?_).bind fun a ha => ha.fill hbg fun k _ _ => by omega
    exact ⟨by omega, by omega⟩

end Row

namespace Term
variable {t t' : Term} {env : Env}

theorem insertBlank_fit (h : t.Fit) (count : Nat) : Allows (t.insertBlank count) Fit := by
  refine Allows.bind (P := fun _ => True) (fun _ _ => trivial) fun room _ => ?_
  refine ((fit_iff_stocked.mp h).damageColumns _ _).bind fun a ha => ?_
  exact fit_of_stocked (ha.modifyRow fun r hr => Row.insertBlank_spaced hr t.bgCell_plain _)

/-- A deletion in the first column pulls a spacer there. -/
def PullsSpacer (t : Term) (count : Nat) : Prop :=
  t.grid.cursor.point.column = 0 ∧ 0 < count ∧ count < t.columns ∧
    ∃ cell, t.grid.cellAt ⟨t.grid.cursor.point.line, count⟩ = some cell ∧
      cell.flags.wideCharSpacer = true

end Term

/-! ### Steps -/

namespace Grid

def FirstColumnClear (g : Grid Cell) : Prop :=
  ∀ line cell, g.cellAt ⟨line, 0⟩ = some cell → cell.flags.wideCharSpacer = false

theorem Fit.firstColumnClear {g : Grid Cell} (h : g.Fit) : g.FirstColumnClear := by
  intro line cell hcell
  simp only [cellAt, Option.bind_eq_bind, Option.bind_eq_some_iff] at hcell
  obtain ⟨row, hrow, hcell⟩ := hcell
  exact (h.rows.get row hrow).first hcell

end Grid

namespace Term
variable {t t' : Term} {env : Env}

theorem deleteChars_eq {count : Nat} (h : t.deleteChars count = some t') :
    ∃ a raw, t.damageColumns 0 (t.columns - 1) = some a ∧ t.grid.raw.modify t.grid.cursor.point.line
      (fun row => row.deleteCells t.columns t.grid.cursor.point.column (min count t.columns) t.bgCell) =
        some raw ∧ t' = { a with grid.raw := raw } ∧ a.grid = t.grid := by
  simp only [deleteChars, Option.bind_eq_bind, Option.bind_eq_some_iff] at h
  obtain ⟨a, ha, h⟩ := h
  obtain ⟨raw, hraw, rfl⟩ := modifyRow_eq h
  have hgrid := damageColumns_grid _ _ a ha
  refine ⟨a, raw, ha, ?_, rfl, hgrid⟩
  simp only [columns, hgrid] at hraw ⊢
  exact hraw

theorem deleteChars_fit (ht : t.WF) (h : t.Fit) {count : Nat} (hpull : ¬ t.PullsSpacer count) :
    Allows (t.deleteChars count) Fit := by
  intro t' ht'
  obtain ⟨a, raw, ha, hraw, rfl, hgrid⟩ := deleteChars_eq ht'
  have hfit := fit_iff_stocked.mpr ((fit_iff_stocked.mp h).damageColumns _ _ a ha)
  obtain ⟨i, r, r', hi, hr, hr', rfl⟩ := Storage.modify_inner hraw
  have hrow : t.grid.raw.get t.grid.cursor.point.line = some r := by
    simp only [Storage.get, hi, hr, Option.bind_eq_bind, Option.bind_some]
  have hspaced := h.grid.rows r (List.mem_of_getElem? hr)
  have hr'spaced : r'.Spaced 1 := by
    refine Row.deleteCells_spaced hspaced ht.grid.cursor.column_lt (Nat.min_le_right _ _) t.bgCell_plain
      (fun hzero hpos hlt cell hcell => ?_) r' hr'
    have hcount : min count t.grid.columns = count := by omega
    rw [hcount] at hcell hpos hlt
    refine Bool.eq_false_iff.mpr fun hspacer => hpull ⟨hzero, hpos, hlt, cell, ?_, hspacer⟩
    simp only [Grid.cellAt, hrow, Option.bind_eq_bind, Option.bind_some]
    exact hcell
  refine ⟨⟨fun x hx => ?_, hfit.grid.template, hfit.grid.saved⟩, hfit.inactiveGrid⟩
  rcases List.mem_or_eq_of_mem_set hx with hx | rfl
  · exact h.grid.rows x hx
  · exact hr'spaced

theorem deleteChars_clear_iff (ht : t.WF) (h : t.Fit) (count : Nat) :
    Allows (t.deleteChars count) fun t' => t'.grid.FirstColumnClear ↔ ¬ t.PullsSpacer count := by
  intro t' ht'
  refine ⟨fun hclear hpull => ?_, fun hpull => (deleteChars_fit ht h hpull t' ht').grid.firstColumnClear⟩
  obtain ⟨hzero, hpos, hlt, cell, hcell, hspacer⟩ := hpull
  obtain ⟨a, raw, -, hraw, rfl, -⟩ := deleteChars_eq ht'
  obtain ⟨⟨r, r', hr, hr', hget⟩, -⟩ := Storage.modify_get ht.grid.raw hraw
  rw [hzero, Nat.min_eq_left (Nat.le_of_lt hlt)] at hr'
  simp only [Grid.cellAt, hr, Option.bind_eq_bind, Option.bind_some] at hcell
  have hfirst : Grid.cellAt { a.grid with raw } ⟨t.grid.cursor.point.line, 0⟩ = some cell := by
    simp only [Grid.cellAt, hget, Option.bind_eq_bind, Option.bind_some]
    exact (Row.deleteCells_first hlt hr').trans hcell
  exact Bool.false_ne_true ((hclear _ cell hfirst).symm.trans hspacer)

end Term

/-- The steps that cut no fullwidth character in two: a deletion in the first column starts
with no spacer behind it, and a change of the width finds every spacer next to its
character. -/
def TermOp.SpacerSafe (t : Term) : TermOp → Prop
  | .handler (.deleteChars count) => ¬ t.PullsSpacer count
  | .resize _ columns => columns ≠ t.columns → t.primaryGrid.PairedRows
  | _ => True

namespace Term
variable {t t' : Term} {env : Env}

theorem Resized.fit {lines columns : Nat} (h : Resized lines columns t t') (ht : t.WF) (hfit : t.Fit)
    (hlines : 1 ≤ lines) (hsafe : columns ≠ t.columns → t.primaryGrid.PairedRows) : t'.Fit := by
  unfold primaryGrid at hsafe
  refine ⟨?_, ?_⟩
  · refine Grid.resize_fit ht.grid hfit.grid hlines (fun hreflow hne => ?_) _ h.grid
    rw [Bool.not_eq_true'] at hreflow
    rw [hreflow] at hsafe
    exact hsafe hne
  · refine Grid.resize_fit ht.inactiveGrid hfit.inactiveGrid hlines (fun hreflow hne => ?_) _ h.inactiveGrid
    rw [if_pos hreflow] at hsafe
    exact hsafe fun heq => hne (heq.trans ht.inactive_columns.symm)

theorem step_fit (ht : t.WF) (h : t.Fit) {op : TermOp} (hop : op.Admissible t) (hsafe : op.SpacerSafe t) :
    Allows (op.step env t) Fit := by
  have hstocked := fit_iff_stocked.mp h
  by_cases hmoves : op.movesHalves = false
  · exact fit_of_stocked (step_stocked (Row.spaced_kept 1) ht hstocked hop hmoves)
  cases op with
  | handler op =>
      cases op with
      | input c => exact input_fit h c
      | insertBlank count => exact insertBlank_fit h count
      | deleteChars count => exact deleteChars_fit ht h hsafe
      | _ => exact absurd rfl hmoves
  | resize lines columns =>
      intro t' ht'
      cases TermOp.step_stepped env ht hop t' ht' with
      | viewed hviewed => exact fit_iff_stocked.mpr (hviewed.stocked hstocked)
      | resized hresized => exact hresized.fit ht h hop.1 hsafe
  | _ => exact absurd rfl hmoves

/-! ### Readers -/

theorem wideStart_isSome {row : Row Cell} (h : row.Spaced 1) {column : Nat} (hc : column < row.len) :
    (row.wideStart column).isSome := by
  have hcell : row.get column = some row.inner[column] := List.getElem?_eq_getElem hc
  unfold Row.wideStart
  rw [hcell]
  simp only [Option.bind_eq_bind, Option.bind_some]
  split
  · next hspacer =>
      rw [usub_of_le (h.spacer column _ hcell hspacer).1]
      rfl
  · rfl

theorem renderableCursor_isSome (ht : t.WF) (h : t.Fit)
    (hp : t.InGrid (if t.mode.vi then t.viModeCursor else t.grid.cursor.point)) :
    t.renderableCursor.isSome := by
  simp only [renderableCursor]
  generalize (if t.mode.vi then t.viModeCursor else t.grid.cursor.point) = point at hp ⊢
  obtain ⟨row, hrow, hwf⟩ := Storage.get_returns ht.grid.raw
    (ht.grid.hasLine hp.1 (by have hhi := hp.2.1; rw [bottommostLine_eq] at hhi; omega))
  have hcolumns : point.column < row.len := hwf.len_eq ▸ hp.2.2
  obtain ⟨column, hcolumn⟩ := Option.isSome_iff_exists.mp
    (wideStart_isSome (h.grid.rows.get row hrow) hcolumns)
  rw [hrow]
  simp only [Option.bind_eq_bind, Option.bind_some, hcolumn]
  rfl

theorem expandWide_isSome (ht : t.WF) (h : t.Fit) {p : Point} (hp : t.InGrid p) (direction : Side) :
    (t.expandWide p direction).isSome := by
  obtain ⟨cell, hcell⟩ := cellAt_inGrid ht hp
  unfold expandWide
  rw [hcell]
  cases direction with
  | right =>
      simp only [Option.bind_eq_bind, Option.bind_some]
      split
      · rfl
      · split
        · rfl
        · rfl
  | left =>
      simp only [Option.bind_eq_bind, Option.bind_some]
      split
      · obtain ⟨column, hcolumn⟩ : ∃ column, (if cell.flags.wideCharSpacer then usub p.column 1
            else some p.column) = some column := by
          split
          · next hspacer =>
              simp only [Grid.cellAt, Option.bind_eq_bind, Option.bind_eq_some_iff] at hcell
              obtain ⟨row, hrow, hcell⟩ := hcell
              exact ⟨_, usub_of_le ((h.grid.rows.get row hrow).spacer _ cell hcell hspacer).1⟩
          · exact ⟨_, rfl⟩
        obtain ⟨prevCell, hprev⟩ :=
          cellAt_inGrid ht (advance_inGrid ht.grid { p with column } .left)
        rw [hcolumn]
        simp only [Option.bind_some]
        have hsub : t.advance { p with column } .left = Point.sub { p with column } t.dims .grid 1 := rfl
        rw [← hsub, hprev]
        rfl
      · rfl

/-- In every run of safe steps, neither grid has a spacer in its first column, and no reader
steps left from there. A deletion keeps the first column clear if and only if it is safe. -/
theorem run_firstColumn {config : Config} {lines columns : Nat} (hl : 1 ≤ lines) (hc : 2 ≤ columns)
    (h : Reaches (TermOp.step env) (fun t op => op.Admissible t ∧ op.SpacerSafe t)
      (new config lines columns) t) :
    t.grid.FirstColumnClear ∧ t.inactiveGrid.FirstColumnClear ∧
      (t.InGrid (if t.mode.vi then t.viModeCursor else t.grid.cursor.point) →
        t.renderableCursor.isSome) ∧
      (∀ p direction, t.InGrid p → (t.expandWide p direction).isSome) ∧
      (∀ line row column, t.grid.raw.get line = some row → column < t.columns →
        (row.wideStart column).isSome) ∧
      ∀ count, Allows (t.deleteChars count) fun t' =>
        t'.grid.FirstColumnClear ↔ ¬ t.PullsSpacer count := by
  have hinv : t.WF ∧ t.Fit := by
    refine h.invariant (P := fun t => t.WF ∧ t.Fit) ⟨new_wf config hl hc,
      fit_iff_stocked.mpr (new_stocked (Row.spaced_kept 1) config lines columns)⟩ fun s op s' hs hop hstep => ?_
    exact ⟨(TermOp.step_stepped env hs.1 hop.1 _ hstep).wf hs.1,
      step_fit hs.1 hs.2 hop.1 hop.2 _ hstep⟩
  obtain ⟨ht, hfit⟩ := hinv
  refine ⟨hfit.grid.firstColumnClear, hfit.inactiveGrid.firstColumnClear,
    renderableCursor_isSome ht hfit, fun p direction hp => expandWide_isSome ht hfit hp direction,
    fun line row column hrow hcolumn => ?_, deleteChars_clear_iff ht hfit⟩
  have hwf := (Storage.get_returns ht.grid.raw (Storage.hasLine_of_get hrow)).of_eq hrow
  exact wideStart_isSome (hfit.grid.rows.get row hrow) (hwf.len_eq ▸ hcolumn)

theorem run_firstColumn_wide : ∃ t : Term, Reaches (TermOp.step .fullwidth)
    (fun t op => op.Admissible t ∧ op.SpacerSafe t) (new .initial 1 4) t ∧
      t.grid.FirstColumnClear ∧ t.renderableCursor.isSome := by
  have hrun : Reaches (TermOp.step .fullwidth)
      (fun t op => op.Admissible t ∧ op.SpacerSafe t) (new .initial 1 4) _ :=
    .step (.step (.step .refl
      (a := .handler (.input '漢')) (And.intro trivial trivial) rfl)
      (a := .handler (.deleteChars 1)) (And.intro trivial fun h => nomatch h.1) rfl)
      (a := .handler .carriageReturn) (And.intro trivial trivial) rfl
  obtain ⟨hclear, -, hcursor, -⟩ := run_firstColumn (by decide) (by decide) hrun
  exact ⟨_, hrun, hclear, hcursor ⟨by decide, by decide, by decide⟩⟩

/-- Deleting the left half of a fullwidth character pulls its spacer into the first column, and
so does a resize which cuts right before a spacer that lost its left half. -/
theorem spacer_reaches_firstColumn :
    (∃ t : Term, Reachable .fullwidth .initial 1 3 t ∧
      (∃ cell, t.grid.cellAt ⟨0, 0⟩ = some cell ∧ cell.flags.wideCharSpacer = true) ∧
        t.renderableCursor = none ∧ t.expandWide ⟨0, 0⟩ .left = none ∧
          t.lineToString 0 0 2 true = none) ∧
      ∃ t : Term, Reachable .fullwidth .initial 1 4 t ∧
        (∃ cell, t.grid.cellAt ⟨0, 0⟩ = some cell ∧ cell.flags.wideCharSpacer = true) := by
  refine ⟨⟨_, .step (.step (.step .refl
    (a := .handler (.input '漢')) trivial rfl)
    (a := .handler .carriageReturn) trivial rfl)
    (a := .handler (.deleteChars 1)) trivial rfl, ⟨_, rfl, rfl⟩, rfl, rfl, rfl⟩, ?_⟩
  exact ⟨_, .step (.step (.step (.step (.step .refl
    (a := .handler (.input 'a')) trivial rfl)
    (a := .handler (.input '漢')) trivial rfl)
    (a := .handler (.gotoCol 1)) trivial rfl)
    (a := .handler (.eraseChars 1)) trivial rfl)
    (a := .resize 1 2) (And.intro (by decide) (by decide)) rfl, ⟨_, rfl, rfl⟩⟩

end Term
end Velacritty
