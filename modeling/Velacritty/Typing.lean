import Velacritty.PrintSound
import Velacritty.SheetRows

/-! Typing a text into the terminal: what is printed is what the rows show. -/
namespace Velacritty
open Fallible

namespace Term
variable {t t' : Term} {env : Env} {s : Sheet} {lines columns max : Nat}

/-- The terminal shows a sheet from the topmost line on, and its cursor is on the row that is
being written. -/
structure Shows (lines columns max : Nat) (s : Sheet) (t : Term) : Prop where
  wf : t.WF
  raw : t.grid.raw.Shows columns s
  line : t.grid.cursor.point.line = t.topmostLine + s.above.length
  lines_eq : t.grid.lines = lines
  columns_eq : t.grid.columns = columns
  max_eq : t.grid.maxScrollLimit = max
  lineWrap : t.mode.lineWrap = true
  insert : t.mode.insert = false
  regionStart : t.regionStart = 0
  regionEnd : t.regionEnd = lines
  charset : t.grid.cursor.charsets.get t.activeCharset = .ascii

theorem Shows.position (h : t.Shows lines columns max s) :
    t.grid.raw.position t.grid.cursor.point.line = t.grid.raw.len - 1 - s.above.length := by
  have hline := h.line
  have hle := h.wf.grid.lines_le
  have habove := h.raw.above_lt
  simp only [topmostLine_eq] at hline
  simp only [Storage.position, h.wf.grid.visible]
  omega

theorem Shows.of_grid (h : t.Shows lines columns max s) (hwf : t'.WF)
    (hgrid : t'.grid = { t.grid with cursor := t'.grid.cursor })
    (hline : t'.grid.cursor.point.line = t.grid.cursor.point.line)
    (hcharsets : t'.grid.cursor.charsets = t.grid.cursor.charsets) (hmode : t'.mode = t.mode)
    (hstart : t'.regionStart = t.regionStart) (hend : t'.regionEnd = t.regionEnd)
    (hcharset : t'.activeCharset = t.activeCharset) : t'.Shows lines columns max s := by
  have hraw : t'.grid.raw = t.grid.raw := by rw [hgrid]
  have hlines : t'.grid.lines = t.grid.lines := by rw [hgrid]
  have hcolumns : t'.grid.columns = t.grid.columns := by rw [hgrid]
  have hmax : t'.grid.maxScrollLimit = t.grid.maxScrollLimit := by rw [hgrid]
  have htop : t'.topmostLine = t.topmostLine := by
    simp only [topmostLine, dims, Grid.dims, hraw, hlines, hcolumns]
  exact ⟨hwf, hraw ▸ h.raw, by rw [hline, htop, h.line], hlines.trans h.lines_eq,
    hcolumns.trans h.columns_eq, hmax.trans h.max_eq, hmode ▸ h.lineWrap, hmode ▸ h.insert,
    hstart.trans h.regionStart, hend.trans h.regionEnd, by rw [hcharsets, hcharset, h.charset]⟩

theorem Shows.damaged (h : t.Shows lines columns max s) (hd : Damaged t t') :
    t'.Shows lines columns max s := by
  have hgrid := hd.grid
  have hwf := (hd.drawn h.wf.grid (S := fun _ => False)).toEdited.wf h.wf
  exact h.of_grid hwf (by rw [hgrid]) (by rw [hgrid]) (by rw [hgrid])
    (congrArg Term.mode hd.rest :) (congrArg Term.regionStart hd.rest :)
    (congrArg Term.regionEnd hd.rest :) (congrArg Term.activeCharset hd.rest :)

theorem Shows.withCursor (h : t.Shows lines columns max s) (cursor : Cursor Cell)
    (hline : cursor.point.line = t.grid.cursor.point.line) (hcolumn : cursor.point.column < columns)
    (hcharsets : cursor.charsets = t.grid.cursor.charsets) :
    (t.withCursor cursor).Shows lines columns max s := by
  have hc : Grid.InScreen t.grid.lines t.grid.columns cursor.point :=
    ⟨hline ▸ h.wf.grid.cursor.line_nonneg, hline ▸ h.wf.grid.cursor.line_lt, h.columns_eq ▸ hcolumn⟩
  have hwf := (withCursor_edited (S := fun _ => False) h.wf cursor hc).wf h.wf
  exact h.of_grid hwf rfl hline hcharsets rfl rfl rfl rfl

theorem Shows.modifyCell (h : t.Shows lines columns max s) {column : Nat} (hc : column < columns)
    {f : Cell → Cell} {cells : List Cell}
    (hcells : (fullRow columns s.row).modify column f = fullRow columns cells) :
    Returns (t.modifyCell ⟨t.grid.cursor.point.line, column⟩ f) fun t' =>
      t'.Shows lines columns max { s with row := cells } ∧ t'.grid.cursor = t.grid.cursor := by
  have htop := h.wf.topmostLine_le
  have hlo := h.wf.grid.cursor.line_nonneg
  obtain ⟨t', ht', hdrawn, -, -⟩ := modifyCell_returns h.wf
    (p := ⟨t.grid.cursor.point.line, column⟩) (show t.topmostLine ≤ t.grid.cursor.point.line by omega)
    h.wf.grid.cursor.line_lt (h.columns_eq ▸ hc) f
  refine ⟨t', ht', ?_, hdrawn.cursor⟩
  have hwf := hdrawn.toEdited.wf h.wf
  have htop' : t'.topmostLine = t.topmostLine := by simp only [topmostLine, hdrawn.toEdited.dims]
  simp only [Term.modifyCell, Grid.modifyCell, Option.bind_eq_bind, Option.bind_eq_some_iff,
    Option.some.injEq] at ht'
  obtain ⟨g, ⟨raw, hraw, rfl⟩, rfl⟩ := ht'
  have hrow : ∀ r r' : Row Cell, r.inner = fullRow columns s.row → r.modify column f = some r' →
      r'.inner = fullRow columns cells := by
    intro r r' hr hr'
    simp only [Row.modify, Option.ite_none_right_eq_some, Option.some.injEq] at hr'
    obtain ⟨-, rfl⟩ := hr'
    simp only [hr, hcells]
  obtain ⟨hshows, -⟩ := h.raw.modify h.position hrow hraw
  exact ⟨hwf, hshows, by rw [htop']; exact h.line, h.lines_eq, h.columns_eq, h.max_eq, h.lineWrap,
    h.insert, h.regionStart, h.regionEnd, h.charset⟩

/-- The cell under a cursor that goes on writing is blank. -/
theorem Shows.cellAt_blank (h : t.Shows lines columns max s) (hlt : s.row.length < columns) :
    t.grid.cellAt ⟨t.grid.cursor.point.line, s.row.length⟩ = some .blank := by
  have hline := h.wf.grid.hasScreenLine h.wf.grid.cursor.line_nonneg h.wf.grid.cursor.line_lt
  have hk : (s.above ++ [s.row])[s.above.length]? = some s.row := List.getElem?_concat_length
  obtain ⟨r, hr, hinner⟩ := h.raw.get hk hline h.position
  simp only [Grid.cellAt, hr, Option.bind_eq_bind, Option.bind_some, Row.get, hinner, fullRow]
  rw [List.getElem?_append_right (Nat.le_refl _), Nat.sub_self, List.getElem?_replicate,
    if_pos (Nat.sub_pos_of_lt hlt)]

theorem Shows.writeAtCursor (h : t.Shows lines columns max s)
    (hcolumn : t.grid.cursor.point.column = s.row.length) (hlt : s.row.length < columns) {c : Char}
    (hmap : env.map .ascii c = c) :
    Returns (t.writeAtCursor env c) fun t' =>
      t'.Shows lines columns max (s.put [{ t.grid.cursor.template with c }]) ∧
        t'.grid.cursor = t.grid.cursor := by
  have hpoint : t.grid.cursor.point = ⟨t.grid.cursor.point.line, s.row.length⟩ := by rw [← hcolumn]
  have hrelated : t.clearRelated = some t := by
    rw [clearRelated, hpoint, h.cellAt_blank hlt]
    rfl
  simp only [Term.writeAtCursor, h.charset, hmap, hrelated, Option.bind_eq_bind, Option.bind_some]
  rw [hpoint]
  exact h.modifyCell hlt (fullRow_modify hlt _)

/-! ### Going to the next row -/

/-- The row below is there: move to it. -/
theorem Shows.down (h : t.Shows lines columns max s) (hbelow : s.above.length + 1 < t.grid.raw.len)
    (cursor : Cursor Cell) (hline : cursor.point.line = t.grid.cursor.point.line + 1)
    (hcolumn : cursor.point.column < columns) (hcharsets : cursor.charsets = t.grid.cursor.charsets) :
    (t.withCursor cursor).Shows lines columns max s.feed := by
  have hat := h.line
  have hle := h.wf.grid.lines_le
  have hlo := h.wf.grid.cursor.line_nonneg
  have hfeed : s.feed.above.length = s.above.length + 1 := List.length_append
  have htop : (t.withCursor cursor).topmostLine = t.topmostLine := rfl
  have hc : Grid.InScreen t.grid.lines t.grid.columns cursor.point := by
    simp only [topmostLine_eq] at hat
    exact ⟨by omega, by omega, h.columns_eq ▸ hcolumn⟩
  have hwf := (withCursor_edited (S := fun _ => False) h.wf cursor hc).wf h.wf
  refine ⟨hwf, h.raw.feed hbelow, ?_, h.lines_eq, h.columns_eq, h.max_eq, h.lineWrap, h.insert,
    h.regionStart, h.regionEnd, ?_⟩
  · rw [htop, hfeed, Term.withCursor, hline, hat]
    omega
  · rw [Term.withCursor, hcharsets]
    exact h.charset

/-- A linefeed begins a new line, if there is room for it. -/
theorem Shows.linefeed (h : t.Shows lines columns max s) (htemplate : t.grid.cursor.template = .blank)
    (hroom : s.above.length + 2 ≤ lines + max) :
    Returns t.linefeed fun t' => t'.Shows lines columns max s.feed ∧
      t'.grid.cursor = { t.grid.cursor with point.line := t'.grid.cursor.point.line } := by
  have hline := h.line
  have habove := h.raw.above_lt
  have hle := h.wf.grid.lines_le
  have hfeed : s.feed.above.length = s.above.length + 1 := List.length_append
  have hlo := h.wf.grid.cursor.line_nonneg
  have hhi := h.wf.grid.cursor.line_lt
  have hregion := h.regionEnd
  have hlines := h.lines_eq
  simp only [topmostLine_eq] at hline
  simp only [Term.linefeed]
  split
  · next hend =>
      refine (scrollUp_returns h.wf 1).mono fun t' ht' => ?_
      have hscroll := ht'.grid
      have hsize : t.scrollSize 1 = 1 := by
        unfold scrollSize
        rw [h.regionStart]
        omega
      have hlast : s.above.length + 1 = t.grid.raw.len := by omega
      rw [h.regionStart, h.regionEnd, ← h.lines_eq, hsize] at hscroll
      have hmax := h.max_eq
      obtain ⟨hraw, hlen⟩ := Grid.scrollUp_shows (h.columns_eq.symm ▸ h.raw) h.wf.grid.visible htemplate
        hlast (by simp only [Grid.historySize_eq]; omega) _ hscroll
      have hsame := ht'.same
      refine ⟨⟨ht'.wf, h.columns_eq ▸ hraw, ?_, hsame.lines.trans h.lines_eq,
        hsame.columns.trans h.columns_eq, hsame.maxScrollLimit.trans h.max_eq, ?_, ?_, ?_, ?_, ?_⟩, ?_⟩
      · have hlines' := hsame.lines
        simp only [topmostLine_eq, hfeed, hsame.cursor]
        omega
      · exact (congrArg (fun t => t.mode.lineWrap) ht'.rest).trans h.lineWrap
      · exact (congrArg (fun t => t.mode.insert) ht'.rest).trans h.insert
      · exact (congrArg Term.regionStart ht'.rest).trans h.regionStart
      · exact (congrArg Term.regionEnd ht'.rest).trans h.regionEnd
      · have hcharset : t'.activeCharset = t.activeCharset := (congrArg Term.activeCharset ht'.rest :)
        rw [hsame.cursor, hcharset]
        exact h.charset
      · rw [hsame.cursor]
  · next hend =>
      have hnext : t.grid.cursor.point.line + 1 < t.screenLines := by
        have hscreen : t.screenLines = t.grid.lines := rfl
        omega
      rw [if_pos hnext]
      refine (damageCursor_returns h.wf.damage h.wf.grid.cursor).bind fun a ha => ?_
      have hda := h.damaged ha.1
      have hagrid := ha.1.grid
      have hcolumn : a.grid.cursor.point.column < columns := by
        rw [hagrid, ← h.columns_eq]
        exact h.wf.grid.cursor.column_lt
      have hdown := hda.down (by rw [hagrid]; omega)
        { a.grid.cursor with point.line := a.grid.cursor.point.line + 1 } rfl hcolumn rfl
      refine (damageCursor_returns hdown.wf.damage hdown.wf.grid.cursor).mono fun b hb =>
        ⟨hdown.damaged hb.1, ?_⟩
      rw [hb.1.grid, Term.withCursor, hagrid]

theorem Shows.wrapline (h : t.Shows lines columns max s) (htemplate : t.grid.cursor.template = .blank)
    (hfull : s.row.length = columns) (hcolumn : t.grid.cursor.point.column = columns - 1)
    (hroom : s.above.length + 2 ≤ lines + max) :
    Returns t.wrapline fun t' => t'.Shows lines columns max s.wrap ∧
      t'.grid.cursor = { t.grid.cursor with
        point := ⟨t'.grid.cursor.point.line, 0⟩, inputNeedsWrap := false } := by
  have hpos : 0 < columns := h.columns_eq ▸ h.wf.grid.columns_pos
  have hpoint : t.grid.cursor.point = ⟨t.grid.cursor.point.line, columns - 1⟩ := by rw [← hcolumn]
  rw [Term.wrapline, if_pos h.lineWrap, hpoint]
  have hcells : (fullRow columns s.row).modify (columns - 1) (setWrapline true) =
      fullRow columns (updateLast (setWrapline true) s.row) := by
    rw [fullRow_of_length hfull, fullRow_of_length (by rw [length_updateLast, hfull]), updateLast, hfull]
  refine (h.modifyCell (Nat.sub_lt hpos Nat.one_pos) hcells).bind fun a ha => ?_
  obtain ⟨ha, hacursor⟩ := ha
  refine Returns.bind (P := fun b => b.Shows lines columns max s.wrap ∧
    b.grid.cursor = { t.grid.cursor with point.line := b.grid.cursor.point.line }) ?_ fun b hb => ?_
  · split
    · refine (ha.linefeed (by rw [hacursor, htemplate]) hroom).mono fun b hb => ⟨hb.1, ?_⟩
      rw [hb.2, hacursor]
    · next hend =>
        refine (damageCursor_returns ha.wf.damage ha.wf.grid.cursor).bind fun b hb => .pure ?_
        have hagrid := hb.1.grid
        have hat := (ha.damaged hb.1).line
        have hle := ha.wf.grid.lines_le
        have hlines := ha.lines_eq
        have hregion := ha.regionEnd
        simp only [topmostLine_eq, hagrid] at hat
        have hlength : ({ s with row := updateLast (setWrapline true) s.row } : Sheet).above.length =
          s.above.length := rfl
        refine ⟨(ha.damaged hb.1).down (by rw [hagrid]; omega) { b.grid.cursor with
          point := ⟨b.grid.cursor.point.line + 1, b.grid.cursor.point.column⟩ } rfl ?_ rfl, ?_⟩
        · rw [hagrid, hacursor, hcolumn]
          exact Nat.sub_lt hpos Nat.one_pos
        · simp only [setCursorPoint, hagrid, hacursor]
  · obtain ⟨hb, hbcursor⟩ := hb
    have hstart := hb.withCursor { b.grid.cursor with
      point := ⟨b.grid.cursor.point.line, 0⟩, inputNeedsWrap := false } rfl hpos rfl
    refine (damageCursor_returns hstart.wf.damage hstart.wf.grid.cursor).mono fun c hc =>
      ⟨hstart.damaged hc.1, ?_⟩
    rw [hc.1.grid, Term.withCursor, hbcursor]

/-! ### Printing -/

/-- The cursor is on the next cell of the row that is being written. -/
structure Writing (lines columns max : Nat) (s : Sheet) (t : Term) : Prop
    extends Shows lines columns max s t where
  template : t.grid.cursor.template = .blank
  row_lt : s.row.length < columns
  column : t.grid.cursor.point.column = s.row.length
  needsWrap : t.grid.cursor.inputNeedsWrap = false

/-- The row has room for the next cell, or it is full and a wrap is pending. -/
inductive Ready (lines columns max : Nat) (s : Sheet) (t : Term) : Prop
  | writing (h : t.Writing lines columns max s)
  | full (h : t.Shows lines columns max s) (htemplate : t.grid.cursor.template = .blank)
      (hfull : s.row.length = columns) (hcolumn : t.grid.cursor.point.column = columns - 1)
      (hneedsWrap : t.grid.cursor.inputNeedsWrap = true)

theorem Ready.shows (h : t.Ready lines columns max s) : t.Shows lines columns max s := by
  cases h with
  | writing h => exact h.toShows
  | full h => exact h

theorem Ready.template (h : t.Ready lines columns max s) : t.grid.cursor.template = .blank := by
  cases h with
  | writing h => exact h.template
  | full _ htemplate => exact htemplate

/-- A pending wrap is done first. -/
theorem Ready.wrapFull (h : t.Ready lines columns max s)
    (hroom : (s.wrapFull columns).above.length + 1 ≤ lines + max) :
    Returns (if t.grid.cursor.inputNeedsWrap then t.wrapline else some t)
      (Writing lines columns max (s.wrapFull columns)) := by
  cases h with
  | writing h =>
      have hsame : s.wrapFull columns = s := if_neg (Nat.ne_of_lt h.row_lt)
      rw [h.needsWrap, hsame]
      exact .pure h
  | full h htemplate hfull hcolumn hneedsWrap =>
      have hwrap : s.wrapFull columns = s.wrap := if_pos hfull
      have habove : s.wrap.above.length = s.above.length + 1 := List.length_append
      rw [hwrap] at hroom ⊢
      rw [hneedsWrap, if_pos rfl]
      refine (h.wrapline htemplate hfull hcolumn (by omega)).mono fun a ha => ?_
      obtain ⟨ha, hcursor⟩ := ha
      exact ⟨ha, by rw [hcursor, htemplate], h.columns_eq ▸ h.wf.grid.columns_pos, by rw [hcursor]; rfl,
        by rw [hcursor]⟩

/-- The cursor moves past the last cell of the row. -/
theorem Shows.advanceCursor (h : t.Shows lines columns max s)
    (htemplate : t.grid.cursor.template = .blank) (hle : s.row.length ≤ columns)
    (hcolumn : t.grid.cursor.point.column + 1 = s.row.length)
    (hneedsWrap : t.grid.cursor.inputNeedsWrap = false) :
    t.advanceCursor.Ready lines columns max s := by
  have hcolumns : t.columns = columns := h.columns_eq
  have hlt := h.wf.grid.cursor.column_lt
  rw [h.columns_eq] at hlt
  unfold Term.advanceCursor
  split
  · next hroom =>
      have hmove := h.withCursor { t.grid.cursor with
        point.column := t.grid.cursor.point.column + 1 } rfl (hcolumns ▸ hroom) rfl
      exact .writing ⟨hmove, htemplate, hcolumn ▸ hcolumns ▸ hroom, hcolumn, hneedsWrap⟩
  · next hlast =>
      have hmove := h.withCursor { t.grid.cursor with inputNeedsWrap := true } rfl hlt rfl
      exact .full hmove htemplate (by omega) (by simp only [setNeedsWrap]; omega) rfl

/-- Write a half of a fullwidth character, or the spacer before one. -/
theorem Writing.writeMarked (h : t.Writing lines columns max s) {c : Char}
    (hmap : env.map .ascii c = c) {mark : Bool → Flags → Flags}
    (hmark : mark false (mark true .empty) = .empty) :
    Returns (t.writeMarked env mark c) fun t' =>
      t'.Shows lines columns max (s.put [Cell.mk c Cell.blank.fg Cell.blank.bg (mark true .empty) none]) ∧
        t'.grid.cursor = t.grid.cursor := by
  have hlt : t.grid.cursor.point.column < columns := h.column.symm ▸ h.row_lt
  have htemplate := h.template
  have hmarked := h.toShows.withCursor { t.grid.cursor with
    template.flags := mark true t.grid.cursor.template.flags } rfl hlt rfl
  refine (hmarked.writeAtCursor (c := c) h.column h.row_lt hmap).bind fun a ha => .pure ?_
  obtain ⟨ha, hacursor⟩ := ha
  have hback := ha.withCursor { a.grid.cursor with
    template.flags := mark false a.grid.cursor.template.flags } rfl (by rw [hacursor]; exact hlt) rfl
  simp only [Term.withCursor, htemplate] at hback
  refine ⟨hback, ?_⟩
  have hflags : mark false (mark true Cell.blank.flags) = Cell.blank.flags := hmark
  simp only [hacursor, Term.withCursor, htemplate, hflags]
  exact htemplate ▸ rfl

/-- A fullwidth character goes to the next row if only one cell is left. -/
theorem Writing.skipLast (h : t.Writing lines columns max s) (hmap : env.map .ascii ' ' = ' ')
    (hroom : (s.skipLast columns).above.length + 1 ≤ lines + max) (c : Char) {P : Term → Prop}
    (hP : ∀ a : Term, a.Writing lines columns max (s.skipLast columns) →
      Returns (a.writeWide env c) P) :
    Returns (t.inputWide env c) P := by
  have hcolumns : t.columns = columns := h.columns_eq
  have hcolumn := h.column
  have hlt := h.row_lt
  unfold inputWide
  split
  · next hlast =>
      have hskip : s.skipLast columns = (s.put [leadingSpacer]).wrap := if_pos (by omega)
      have habove : (s.put [leadingSpacer]).wrap.above.length = s.above.length + 1 := List.length_append
      have hroom' : s.above.length + 2 ≤ lines + max := by
        rw [hskip] at hroom
        omega
      rw [hskip] at hP
      rw [if_pos h.lineWrap]
      refine (h.writeMarked hmap rfl).bind fun a ha => ?_
      obtain ⟨ha, hacursor⟩ := ha
      have hlength : (s.put [leadingSpacer]).row.length = s.row.length + 1 := List.length_append
      refine (ha.wrapline (by rw [hacursor, h.template]) (hlength.trans (by omega))
        (by rw [hacursor]; omega) hroom').bind fun b hb => hP b ?_
      obtain ⟨hb, hbcursor⟩ := hb
      exact ⟨hb, by rw [hbcursor, hacursor, h.template], Nat.lt_of_le_of_lt (Nat.zero_le _) hlt,
        by rw [hbcursor]; rfl, by rw [hbcursor]⟩
  · next hroom' =>
      have hskip : s.skipLast columns = s := if_neg (by omega)
      rw [hskip] at hP
      exact hP t h

theorem Writing.writeWide (h : t.Writing lines columns max s) {c : Char}
    (hmap : ∀ c, env.map .ascii c = c) (hlt : s.row.length + 1 < columns) :
    Returns (t.writeWide env c) (Ready lines columns max (s.put [.wide c, .spacer])) := by
  refine (h.writeMarked (hmap c) rfl).bind fun a ha => ?_
  obtain ⟨ha, hacursor⟩ := ha
  have hwide : (s.put [Cell.wide c]).row.length = s.row.length + 1 := List.length_append
  have hacolumn : a.grid.cursor.point.column = s.row.length := by rw [hacursor, h.column]
  have hmove := ha.withCursor { a.grid.cursor with
    point.column := a.grid.cursor.point.column + 1 } rfl (by simp only; omega) rfl
  have hwriting : Writing lines columns max (s.put [Cell.wide c])
      (a.setColumn (a.grid.cursor.point.column + 1)) :=
    ⟨hmove, by rw [← h.template, ← hacursor]; rfl, by omega, by rw [hwide, ← hacolumn]; rfl,
      by rw [← h.needsWrap, ← hacursor]; rfl⟩
  refine (hwriting.writeMarked (hmap ' ') rfl).bind fun b hb => .pure ?_
  obtain ⟨hb, hbcursor⟩ := hb
  have hboth : (s.put [Cell.wide c]).put [Cell.spacer] = s.put [.wide c, .spacer] := by
    simp only [Sheet.put, List.append_assoc]
    rfl
  have hlength : (s.put [.wide c, .spacer]).row.length = s.row.length + 2 := List.length_append
  rw [← hboth]
  refine hb.advanceCursor (by rw [hbcursor, hwriting.template]) ?_ ?_ (by rw [hbcursor, hwriting.needsWrap])
  · exact (congrArg (fun s : Sheet => s.row.length) hboth).trans hlength ▸ hlt
  · rw [hbcursor, hwriting.column, hwide]
    exact ((congrArg (fun s : Sheet => s.row.length) hboth).trans hlength).symm

theorem Ready.input (h : t.Ready lines columns max s) (hmap : ∀ c, env.map .ascii c = c) {c : Char}
    {width : Nat} (hwidth : env.width c = some width) (hw : width = 1 ∨ width = 2)
    (hroom : (s.print columns width c).above.length + 1 ≤ lines + max) :
    Returns (t.input env c) (Ready lines columns max (s.print columns width c)) := by
  have hpos : width ≠ 0 := by omega
  have habove : (s.wrapFull columns).above.length ≤ (s.print columns width c).above.length := by
    unfold Sheet.print
    split
    · exact Nat.le_refl _
    · exact Sheet.above_length_skipLast _
  unfold Term.input
  rw [hwidth]
  split
  · next hnone => cases hnone
  · next hzero => exact absurd (Option.some.inj hzero) hpos
  · next width' _ hsome =>
      cases hsome
      refine (h.wrapFull (by omega)).bind fun a ha => ?_
      have hshift : a.shiftForInsert width = some a := by
        rw [shiftForInsert, if_neg fun hinsert => Bool.false_ne_true (ha.insert.symm.trans hinsert.1)]
      rw [hshift, Option.bind_eq_bind, Option.bind_some]
      unfold Sheet.print at hroom ⊢
      split
      · next hone =>
          refine (ha.toShows.writeAtCursor (c := c) ha.column ha.row_lt (hmap c)).bind fun b hb =>
            .pure ?_
          obtain ⟨hb, hbcursor⟩ := hb
          rw [ha.template] at hb
          have hlength : ((s.wrapFull columns).put [Cell.narrow c]).row.length =
            (s.wrapFull columns).row.length + 1 := List.length_append
          refine hb.advanceCursor (by rw [hbcursor, ha.template]) (hlength.trans_le ha.row_lt) ?_
            (by rw [hbcursor, ha.needsWrap])
          rw [hbcursor, ha.column]
          exact hlength.symm
      · next htwo =>
          rw [if_neg htwo] at hroom
          refine ha.skipLast (hmap ' ') hroom c fun b hb => hb.writeWide hmap ?_
          exact Sheet.skipLast_room ha.row_lt (ha.columns_eq ▸ ha.wf.two_le)


end Term
end Velacritty
