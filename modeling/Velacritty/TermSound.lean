import Velacritty.GridCells
import Velacritty.GridRuns
import Velacritty.Handler

/-! What holds between the parts of a terminal, and the effects its handlers are made
of: drawing cells, moving the cursor and recording damage. -/
namespace Velacritty
open Fallible

/-! ### Damage -/

namespace TermDamageState
variable {d d' d'' : TermDamageState}

/-- The cell is inside of its line's damage. -/
def Marks (d : TermDamageState) (p : Point) : Prop :=
  0 ≤ p.line ∧ ∃ b, d.lines[p.line.toNat]? = some b ∧ b.left ≤ p.column ∧ p.column ≤ b.right

/-- The line numbers that the damage of the lines is reported under. -/
def numbers (d : TermDamageState) : List Nat := d.lines.map LineDamageBounds.line

structure Grows (d d' : TermDamageState) : Prop where
  full : d.full = true → d'.full = true
  length : d'.lines.length = d.lines.length
  lastCursor : d'.lastCursor = d.lastCursor
  marks : ∀ p, d.Marks p → d'.Marks p
  numbers : d'.numbers = d.numbers

theorem Grows.refl (d : TermDamageState) : d.Grows d := ⟨id, rfl, rfl, fun _ => id, rfl⟩

theorem Grows.trans (h : d.Grows d') (h' : d'.Grows d'') : d.Grows d'' :=
  ⟨h'.full ∘ h.full, h'.length.trans h.length, h'.lastCursor.trans h.lastCursor,
    fun p hp => h'.marks p (h.marks p hp), h'.numbers.trans h.numbers⟩

theorem markFull_grows (d : TermDamageState) : d.Grows { d with full := true } :=
  ⟨fun _ => rfl, rfl, rfl, fun _ => id, rfl⟩

theorem numbers_expand (d : TermDamageState) (line left right : Nat) :
    numbers { d with lines := d.lines.modify line (LineDamageBounds.expand · left right) } =
      d.numbers := by
  simp only [numbers]
  apply List.ext_getElem?
  intro i
  simp only [List.getElem?_map, List.getElem?_modify]
  cases d.lines[i]? with
  | none => rfl
  | some b => split <;> rfl

/-- Damage of a line covers the columns it was asked for. -/
theorem damageLine_returns {line left right : Nat} (h : line < d.lines.length) :
    Returns (d.damageLine line left right) fun d' => d.Grows d' ∧ d'.full = d.full ∧
      ∀ c, left ≤ c → c ≤ right → d'.Marks ⟨line, c⟩ := by
  unfold damageLine
  rw [if_pos h]
  refine .pure ⟨⟨id, List.length_modify .., rfl, ?_, numbers_expand d line left right⟩, rfl, ?_⟩
  · rintro ⟨l, c⟩ ⟨hl, b, hb, hlo, hhi⟩
    refine ⟨hl, ?_⟩
    simp only [List.getElem?_modify, hb, Option.map_eq_map, Option.map_some]
    refine ⟨_, rfl, ?_⟩
    split
    · simp only [LineDamageBounds.expand] at *
      omega
    · exact ⟨hlo, hhi⟩
  · intro c hlo hhi
    refine ⟨Int.natCast_nonneg _, ?_⟩
    simp only [Int.toNat_natCast, List.getElem?_modify, if_true, List.getElem?_eq_getElem h,
      Option.map_eq_map, Option.map_some]
    refine ⟨_, rfl, ?_⟩
    simp only [LineDamageBounds.expand]
    omega

end TermDamageState

namespace Term
variable {t t' t'' : Term} {S S' : Point → Prop}

/-! ### Well-formed terminals -/

structure WF (t : Term) : Prop where
  grid : t.grid.WF
  inactiveGrid : t.inactiveGrid.WF
  inactive_lines : t.inactiveGrid.lines = t.grid.lines
  inactive_columns : t.inactiveGrid.columns = t.grid.columns
  two_le : 2 ≤ t.grid.columns
  region : Grid.InRegion t.grid.lines t.regionStart t.regionEnd
  region_pos : 1 ≤ t.regionEnd
  tabs : t.tabs.length = t.grid.columns
  damage : t.damageState.lines.length = t.grid.lines
  lastCursor : Grid.InScreen t.grid.lines t.grid.columns t.damageState.lastCursor

theorem topmostLine_eq (t : Term) : t.topmostLine = -((t.grid.raw.len - t.grid.lines : Nat) : Int) := rfl

theorem WF.topmostLine_le (h : t.WF) : t.topmostLine ≤ 0 := by
  have hle := h.grid.lines_le
  simp only [topmostLine, dims, Dimensions.topmostLine]
  omega

theorem lastColumn_eq (t : Term) : t.lastColumn = t.grid.columns - 1 := rfl

theorem bottommostLine_eq (t : Term) : t.bottommostLine = (t.grid.lines : Int) - 1 := rfl

/-- Only cells, the cursor, the selection and the damage differ. The cells that differ
are in `S`. -/
structure Edited (S : Point → Prop) (t t' : Term) : Prop where
  rest : t' = { t with
    grid := t'.grid, damageState := t'.damageState, selection := t'.selection }
  grid_rest : t'.grid = { t.grid with raw := t'.grid.raw, cursor := t'.grid.cursor }
  grid_wf : t'.grid.WF
  len : t'.grid.raw.len = t.grid.raw.len
  cells : Grid.ChangesOnly S t.grid t'.grid
  damage : t.damageState.Grows t'.damageState

theorem Edited.mode (h : Edited S t t') : t'.mode = t.mode := (congrArg Term.mode h.rest :)

theorem Edited.inactiveGrid (h : Edited S t t') : t'.inactiveGrid = t.inactiveGrid :=
  (congrArg Term.inactiveGrid h.rest :)

theorem Edited.viModeCursor (h : Edited S t t') : t'.viModeCursor = t.viModeCursor :=
  (congrArg Term.viModeCursor h.rest :)

theorem Edited.regionStart (h : Edited S t t') : t'.regionStart = t.regionStart :=
  (congrArg Term.regionStart h.rest :)

theorem Edited.regionEnd (h : Edited S t t') : t'.regionEnd = t.regionEnd :=
  (congrArg Term.regionEnd h.rest :)

theorem Edited.tabs (h : Edited S t t') : t'.tabs = t.tabs := (congrArg Term.tabs h.rest :)

theorem Edited.lines (h : Edited S t t') : t'.grid.lines = t.grid.lines :=
  (congrArg Grid.lines h.grid_rest :)

theorem Edited.columns (h : Edited S t t') : t'.grid.columns = t.grid.columns :=
  (congrArg Grid.columns h.grid_rest :)

theorem Edited.savedCursor (h : Edited S t t') : t'.grid.savedCursor = t.grid.savedCursor :=
  (congrArg Grid.savedCursor h.grid_rest :)

theorem Edited.displayOffset (h : Edited S t t') : t'.grid.displayOffset = t.grid.displayOffset :=
  (congrArg Grid.displayOffset h.grid_rest :)

theorem Edited.maxScrollLimit (h : Edited S t t') :
    t'.grid.maxScrollLimit = t.grid.maxScrollLimit := (congrArg Grid.maxScrollLimit h.grid_rest :)

theorem Edited.autoScrollEnabled (h : Edited S t t') :
    t'.grid.autoScrollEnabled = t.grid.autoScrollEnabled :=
  (congrArg Grid.autoScrollEnabled h.grid_rest :)

theorem Edited.dims (h : Edited S t t') : t'.dims = t.dims := by
  simp only [Term.dims, Grid.dims, h.len, h.lines, h.columns]

theorem Edited.wf (h : Edited S t t') (ht : t.WF) : t'.WF where
  grid := h.grid_wf
  inactiveGrid := h.inactiveGrid ▸ ht.inactiveGrid
  inactive_lines := by rw [h.inactiveGrid, h.lines, ht.inactive_lines]
  inactive_columns := by rw [h.inactiveGrid, h.columns, ht.inactive_columns]
  two_le := by rw [h.columns]; exact ht.two_le
  region := by rw [h.lines, h.regionStart, h.regionEnd]; exact ht.region
  region_pos := by rw [h.regionEnd]; exact ht.region_pos
  tabs := by rw [h.tabs, h.columns, ht.tabs]
  damage := by rw [h.damage.length, h.lines, ht.damage]
  lastCursor := by rw [h.lines, h.columns, h.damage.lastCursor]; exact ht.lastCursor

theorem Edited.refl (h : t.grid.WF) : Edited S t t :=
  ⟨rfl, rfl, h, rfl, .refl _, .refl _⟩

theorem Edited.mono (h : Edited S t t') (hs : ∀ p, S p → S' p) : Edited S' t t' :=
  ⟨h.rest, h.grid_rest, h.grid_wf, h.len, h.cells.mono hs, h.damage⟩

theorem Edited.trans (h : Edited S t t') (h' : Edited S t' t'') : Edited S t t'' where
  rest := by
    rw [h'.rest, h.rest]
  grid_rest := by
    rw [h'.grid_rest, h.grid_rest]
  grid_wf := h'.grid_wf
  len := h'.len.trans h.len
  cells := h.cells.trans h'.cells
  damage := h.damage.trans h'.damage

structure Drawn (S : Point → Prop) (t t' : Term) : Prop extends Edited S t t' where
  cursor : t'.grid.cursor = t.grid.cursor

theorem Drawn.mono (h : Drawn S t t') (hs : ∀ p, S p → S' p) : Drawn S' t t' :=
  ⟨h.toEdited.mono hs, h.cursor⟩

theorem Drawn.refl (h : t.grid.WF) : Drawn S t t := ⟨.refl h, rfl⟩

theorem Drawn.trans (h : Drawn S t t') (h' : Drawn S t' t'') : Drawn S t t'' :=
  ⟨h.toEdited.trans h'.toEdited, h'.cursor.trans h.cursor⟩

theorem drawn_of_sameSize {g : Grid Cell} (h : t.grid.SameSize g)
    (hcells : Grid.ChangesOnly S t.grid g) : Drawn S t { t with grid := g } := by
  refine ⟨⟨rfl, ?_, h.wf, h.len, hcells, .refl _⟩, h.cursor⟩
  obtain ⟨⟨hcursor, hsaved, hcolumns, hlines, hmax, hauto⟩, -, -, hoffset⟩ := h
  cases g
  simp only at *
  subst hsaved hcolumns hlines hmax hauto hoffset
  rfl

/-! ### Drawing -/

theorem modifyCell_returns (h : t.WF) {p : Point} (hlo : t.topmostLine ≤ p.line)
    (hhi : p.line < t.grid.lines) (hc : p.column < t.grid.columns) (f : Cell → Cell) :
    Returns (t.modifyCell p f) fun t' => Drawn (· = p) t t' ∧
      t'.grid.cellAt p = (t.grid.cellAt p).map f ∧ t'.damageState = t.damageState := by
  obtain ⟨g, hg, hsame⟩ := Grid.modifyCell_returns h.grid hlo hhi hc f
  obtain ⟨hcell, hother⟩ := Grid.modifyCell_get h.grid hg
  refine ⟨{ t with grid := g }, ?_, drawn_of_sameSize hsame hother, hcell, rfl⟩
  simp only [modifyCell, hg, Option.bind_eq_bind, Option.bind_some]

/-- An update of a row draws on that line, in the columns that the update changes. -/
theorem modifyRow_returns (h : t.WF) {line : Int} (hlo : t.topmostLine ≤ line)
    (hhi : line < t.grid.lines) (columns : Nat → Prop) {f : Row Cell → Option (Row Cell)}
    (hf : ∀ r, r.WF t.grid.columns → Returns (f r) fun r' => r'.WF t.grid.columns ∧
      ∀ c, ¬ columns c → r'.get c = r.get c) :
    Returns (t.modifyRow line f) fun t' =>
      Drawn (fun p => p.line = line ∧ columns p.column) t t' ∧ t'.damageState = t.damageState := by
  have hline := h.grid.hasLine hlo hhi
  obtain ⟨raw, hraw, hwf, hshape⟩ := Storage.modify_returns h.grid.raw hline
    fun r hr => (hf r hr).mono fun _ hr' => hr'.1
  refine ⟨{ t with grid.raw := raw }, ?_, ?_, rfl⟩
  · simp only [modifyRow, hraw, Option.bind_eq_bind, Option.bind_some]
  · have hsame := h.grid.sameSize hwf hshape.visibleLines hshape.len
    refine drawn_of_sameSize hsame ?_
    obtain ⟨⟨r, r', hr, hr', hget⟩, hother⟩ := Storage.modify_get h.grid.raw hraw
    intro p hp
    by_cases hl : p.line = line
    · have hc : ¬ columns p.column := fun hc => hp ⟨hl, hc⟩
      have hrwf := (Storage.get_returns h.grid.raw hline).of_eq hr
      simp only [Grid.cellAt, hl, hr, hget, Option.bind_eq_bind, Option.bind_some]
      exact ((hf r hrwf).of_eq hr').2 _ hc
    · exact Grid.cellAt_eq_of_get (hother _ hl)

/-! ### Recording damage -/

theorem markFullyDamaged_drawn (h : t.grid.WF) : Drawn S t t.markFullyDamaged :=
  ⟨⟨rfl, rfl, h, rfl, .refl _, TermDamageState.markFull_grows _⟩, rfl⟩

theorem damageColumns_grid (left right : Nat) :
    Allows (t.damageColumns left right) fun t' => t'.grid = t.grid := by
  intro t' ht'
  simp only [damageColumns, damageLine, Option.bind_eq_bind, Option.bind_eq_some_iff,
    Option.some.injEq] at ht'
  obtain ⟨_, -, _, -, rfl⟩ := ht'
  rfl

theorem damageCursor_grid : Allows t.damageCursor fun t' => t'.grid = t.grid :=
  damageColumns_grid _ _

structure Damaged (t t' : Term) : Prop where
  rest : t' = { t with damageState := t'.damageState }
  damage : t.damageState.Grows t'.damageState

theorem Damaged.grid (h : Damaged t t') : t'.grid = t.grid := (congrArg Term.grid h.rest :)

theorem Damaged.drawn (h : Damaged t t') (ht : t.grid.WF) : Drawn S t t' := by
  have hgrid := h.grid
  refine ⟨⟨?_, ?_, hgrid ▸ ht, by rw [hgrid], .of_raw (by rw [hgrid]), h.damage⟩, by rw [hgrid]⟩
  · rw [hgrid, show t'.selection = t.selection from (congrArg Term.selection h.rest :)]
    exact h.rest
  · rw [hgrid]

theorem damageColumns_returns (hd : t.damageState.lines.length = t.grid.lines)
    (hc : Grid.InScreen t.grid.lines t.grid.columns t.grid.cursor.point) (left right : Nat) :
    Returns (t.damageColumns left right) fun t' => Damaged t t' ∧
      ∀ c, left ≤ c → c ≤ right → t'.damageState.Marks ⟨t.grid.cursor.point.line, c⟩ := by
  obtain ⟨hlo, hhi, -⟩ := hc
  simp only [damageColumns, damageLine, toUsize_of_nonneg hlo, Option.bind_eq_bind, Option.bind_some]
  refine (TermDamageState.damageLine_returns (by omega)).bind fun d' hd' => .pure ⟨⟨rfl, hd'.1⟩, ?_⟩
  intro c hlo' hhi'
  have hmark := hd'.2.2 c hlo' hhi'
  rwa [Int.toNat_of_nonneg hlo] at hmark

theorem damageCursor_returns (hd : t.damageState.lines.length = t.grid.lines)
    (hc : Grid.InScreen t.grid.lines t.grid.columns t.grid.cursor.point) :
    Returns t.damageCursor fun t' => Damaged t t' ∧ t'.damageState.Marks t.grid.cursor.point := by
  refine (damageColumns_returns hd hc _ _).mono fun t' ht' => ?_
  exact ⟨ht'.1, ht'.2 _ (Nat.le_refl _) (Nat.le_refl _)⟩

/-! ### Moving the cursor -/

def withCursor (t : Term) (cursor : Cursor Cell) : Term := { t with grid.cursor := cursor }

theorem withCursor_edited (h : t.WF) (cursor : Cursor Cell)
    (hc : Grid.InScreen t.grid.lines t.grid.columns cursor.point) :
    Edited S t (t.withCursor cursor) :=
  ⟨rfl, rfl, ⟨h.grid.raw, h.grid.visible, h.grid.columns_pos, h.grid.history_le, hc,
    h.grid.savedCursor⟩, rfl, .of_raw rfl, .refl _⟩

/-- The cursor moved, and the damage covers it at its old and its new place. -/
structure Moved (t t' : Term) : Prop extends Edited (fun _ => False) t t' where
  source : t'.damageState.Marks t.grid.cursor.point
  target : t'.damageState.Marks t'.grid.cursor.point

section
variable {a b : Term} (cursor : Cursor Cell)

theorem Damaged.moved (h : t.WF) (ha : Damaged t a)
    (hc : Grid.InScreen t.grid.lines t.grid.columns cursor.point)
    (hsource : a.damageState.Marks t.grid.cursor.point) (htarget : a.damageState.Marks cursor.point) :
    Moved t (a.withCursor cursor) := by
  have hedit := (ha.drawn h.grid (S := fun _ => False)).toEdited
  refine ⟨hedit.trans (withCursor_edited (hedit.wf h) _ ?_), hsource, htarget⟩
  rwa [hedit.lines, hedit.columns]

theorem moved_of_withCursor (h : t.WF) (hc : Grid.InScreen t.grid.lines t.grid.columns cursor.point)
    (hb : Damaged (t.withCursor cursor) b) (hsource : b.damageState.Marks t.grid.cursor.point)
    (htarget : b.damageState.Marks cursor.point) : Moved t b := by
  have hedit := withCursor_edited (S := fun _ => False) h cursor hc
  refine ⟨hedit.trans (hb.drawn hedit.grid_wf).toEdited, hsource, ?_⟩
  rw [hb.grid]
  exact htarget

theorem Moved.withNeedsWrap (h : Moved t t') (b : Bool) : Moved t (t'.setNeedsWrap b) := by
  obtain ⟨⟨hrest, hgrid, hwf, hlen, hcells, hdamage⟩, hsource, htarget⟩ := h
  refine ⟨⟨?_, ?_, ⟨hwf.raw, hwf.visible, hwf.columns_pos, hwf.history_le, hwf.cursor,
    hwf.savedCursor⟩, hlen, hcells, hdamage⟩, hsource, htarget⟩
  · rw [hrest]
    rfl
  · simp only [setNeedsWrap]
    rw [hgrid]

theorem damageBoth_returns (h : t.WF) (hc : Grid.InScreen t.grid.lines t.grid.columns cursor.point) :
    Returns (t.damageCursor >>= fun a => (a.withCursor cursor).damageCursor) fun t' =>
      Moved t t' ∧ t'.grid = { t.grid with cursor } := by
  refine (damageCursor_returns h.damage h.grid.cursor).bind fun a ha => ?_
  obtain ⟨ha, hsource⟩ := ha
  have hedit := (ha.drawn h.grid (S := fun _ => False)).toEdited
  have hwf := hedit.wf h
  have hca : Grid.InScreen a.grid.lines a.grid.columns cursor.point := by
    rwa [hedit.lines, hedit.columns]
  refine (damageCursor_returns (t := a.withCursor cursor) hwf.damage hca).mono fun b hb => ?_
  obtain ⟨hb, htarget⟩ := hb
  have hmoved := moved_of_withCursor cursor hwf hca hb (hb.damage.marks _ (ha.grid ▸ hsource)) htarget
  refine ⟨⟨hedit.trans hmoved.toEdited, hb.damage.marks _ hsource, hmoved.target⟩, ?_⟩
  rw [hb.grid, withCursor, ha.grid]

end

end Term
end Velacritty
