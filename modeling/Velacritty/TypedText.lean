import Velacritty.TermSteps
import Velacritty.Typing

/-! A text that is typed into a fresh terminal is read back from its rows. -/
namespace Velacritty
open Fallible

def Env.cells (env : Env) (c : Char) : Nat := (env.width c).getD 0

namespace Row
variable {r : Row Cell} {columns : Nat} {cells : List Cell}

theorem readCells (tabs : List Bool) (htab : ∀ cell ∈ r.inner, cell.c ≠ '\t') (start count : Nat)
    (hle : start + count ≤ r.inner.length) (text : List Char) :
    (List.range' start count).foldlM (r.readCell tabs) (false, text) =
      some (false, text ++ ((r.inner.drop start).take count).flatMap Cell.text) := by
  induction count generalizing start text with
  | zero => rw [List.take_zero, List.flatMap_nil, List.append_nil]; rfl
  | succ count ih =>
      have hlt : start < r.inner.length := by omega
      have hcell : r.get start = some r.inner[start] := List.getElem?_eq_getElem hlt
      have hchar : (r.inner[start].c == '\t') = false :=
        beq_eq_false_iff_ne.mpr (htab _ (List.getElem_mem hlt))
      have hread : r.readCell tabs (false, text) start = some (false, text ++ r.inner[start].text) := by
        simp only [readCell, hcell, Option.bind_eq_bind, Option.bind_some, Bool.false_eq_true, if_false,
          hchar]
      rw [List.range'_succ, List.foldlM_cons, hread, Option.bind_eq_bind, Option.bind_some,
        ih _ (by omega), List.drop_eq_getElem_cons hlt, List.take_succ_cons, List.flatMap_cons,
        List.append_assoc]

/-- The occupied part of a row that shows `cells`. -/
def occupiedCells (cells : List Cell) : List Cell :=
  if cells.getLast?.any fun cell => cell.flags.wrapline then cells
  else cells.rdropWhile fun cell => !cell.isOccupied

theorem occupiedCells_isPrefix (cells : List Cell) : occupiedCells cells <+: cells := by
  unfold occupiedCells
  split
  · exact List.prefix_rfl
  · exact List.rdropWhile_prefix _ _

theorem rdropWhile_fullRow (columns : Nat) (cells : List Cell) :
    (fullRow columns cells).rdropWhile (fun cell => !cell.isOccupied) =
      cells.rdropWhile fun cell => !cell.isOccupied := by
  unfold fullRow
  generalize columns - cells.length = count
  induction count with
  | zero => rw [List.replicate_zero, List.append_nil]
  | succ count ih =>
      rw [List.replicate_succ', ← List.append_assoc, List.rdropWhile_concat_pos _ _ _ rfl, ih]

theorem last_fullRow (hcells : Sheet.Legible columns cells) (hc : 1 ≤ columns) :
    ∃ last, (fullRow columns cells)[columns - 1]? = some last ∧
      last.flags.wrapline = cells.getLast?.any fun cell => cell.flags.wrapline := by
  have hle := hcells.length_le
  by_cases hfull : cells.length = columns
  · have hne : cells ≠ [] := by
      rintro rfl
      exact absurd hfull (Nat.ne_of_lt hc)
    refine ⟨cells.getLast hne, ?_, ?_⟩
    · rw [fullRow_of_length hfull, ← hfull, ← List.getLast?_eq_getElem?, List.getLast?_eq_some_getLast hne]
    · rw [List.getLast?_eq_some_getLast hne]
      rfl
  · refine ⟨.blank, ?_, ?_⟩
    · rw [fullRow, List.getElem?_append_right (by omega), List.getElem?_replicate, if_pos (by omega)]
    · have hgoing := hcells.going.resolve_left fun hgo => hfull hgo.1
      cases hlast : cells.getLast? with
      | none => rfl
      | some cell => exact (hgoing cell (List.mem_of_getLast? hlast)).symm

theorem lineLength_eq (hr : r.inner = fullRow columns cells) (hcells : Sheet.Legible columns cells)
    (hc : 1 ≤ columns) : r.lineLength = some (occupiedCells cells).length := by
  have hlen : r.len = columns := (congrArg List.length hr).trans (length_fullRow hcells.length_le)
  obtain ⟨last, hlast, hgoes⟩ := last_fullRow hcells hc
  have hget : r.get (columns - 1) = some last := by rw [Row.get, hr, hlast]
  unfold lineLength occupiedCells
  rw [hlen, usub_of_le hc]
  simp only [Option.bind_eq_bind, Option.bind_some, hget, hgoes]
  split
  · next hgo =>
      have hfull : cells.length = columns := by
        refine hcells.going.elim And.left fun hstop => ?_
        cases hlast' : cells.getLast? with
        | none =>
            rw [hlast'] at hgo
            cases hgo
        | some cell =>
            rw [hlast'] at hgo
            exact absurd ((hstop cell (List.mem_of_getLast? hlast')).symm.trans hgo) Bool.false_ne_true
      rw [hfull]
  · rw [hr, rdropWhile_fullRow]

/-- The first cell of a row is not the second half of a character. -/
theorem wideStart_first (hr : r.inner = fullRow columns cells) (hcells : Sheet.Legible columns cells)
    (hc : 1 ≤ columns) : r.wideStart 0 = some 0 := by
  have hfirst : ∃ cell, r.get 0 = some cell ∧ cell.flags.wideCharSpacer = false := by
    rw [Row.get, hr]
    cases hcase : cells with
    | nil =>
        refine ⟨.blank, ?_, rfl⟩
        rw [fullRow_nil]
        exact List.getElem?_replicate_of_lt hc
    | cons cell rest => exact ⟨cell, rfl, hcells.first cell (hcase ▸ rfl)⟩
  obtain ⟨cell, hcell, hspacer⟩ := hfirst
  unfold wideStart
  rw [hcell]
  simp only [Option.bind_eq_bind, Option.bind_some, hspacer, Bool.false_eq_true, if_false]

theorem rowText_eq (cells : List Cell) :
    Sheet.rowText cells = (occupiedCells cells).flatMap Cell.text ++
      if cells.getLast?.any fun cell => cell.flags.wrapline then [] else ['\n'] := by
  unfold Sheet.rowText occupiedCells
  split
  · rw [List.append_nil]
  · rfl

theorem lastOccupied (hr : r.inner = fullRow columns cells) (hcells : Sheet.Legible columns cells)
    (hpos : (occupiedCells cells).length ≠ 0) :
    ∃ cell, r.get ((occupiedCells cells).length - 1) = some cell ∧ cell ∈ cells ∧
      cell.flags.wrapline = cells.getLast?.any fun cell => cell.flags.wrapline := by
  have hle := (occupiedCells_isPrefix cells).length_le
  have hlt : (occupiedCells cells).length - 1 < cells.length := by omega
  refine ⟨cells[(occupiedCells cells).length - 1], ?_, List.getElem_mem hlt, ?_⟩
  · rw [Row.get, hr, fullRow, List.getElem?_append_left hlt, List.getElem?_eq_getElem hlt]
  · rcases hcells.going with ⟨-, hgo⟩ | hstop
    · have hall : occupiedCells cells = cells := if_pos hgo
      have hne : cells ≠ [] := List.ne_nil_of_length_pos (Nat.lt_of_le_of_lt (Nat.zero_le _) hlt)
      simp only [hall]
      rw [List.getLast?_eq_some_getLast hne, List.getLast_eq_getElem]
      rfl
    · rw [hstop _ (List.getElem_mem hlt)]
      cases hlast : cells.getLast? with
      | none => rfl
      | some cell => exact (hstop cell (List.mem_of_getLast? hlast)).symm

end Row

namespace Term
variable {t : Term} {columns : Nat} {cells : List Cell} {r : Row Cell}

/-- Reading a whole line reads the text of its row. -/
theorem lineToString_eq {line : Int} (hget : t.grid.raw.get line = some r)
    (hr : r.inner = fullRow columns cells) (hcells : Sheet.Legible columns cells)
    (hcolumns : t.grid.columns = columns) (hc : 1 ≤ columns) {includeWrappedWide : Bool}
    (hleading : includeWrappedWide = true → ∀ cell ∈ cells, cell.flags.leadingWideCharSpacer = false) :
    t.lineToString line 0 t.lastColumn includeWrappedWide = some (Sheet.rowText cells) := by
  have hocc := Row.occupiedCells_isPrefix cells
  have hlength := hocc.length_le
  have hle := hcells.length_le
  have hlast : t.lastColumn = columns - 1 := by rw [lastColumn_eq, hcolumns]
  have hmin : min (Row.occupiedCells cells).length (columns - 1 + 1) =
      (Row.occupiedCells cells).length := by omega
  have htab : ∀ cell ∈ r.inner, cell.c ≠ '\t' := by
    intro cell hcell
    rw [hr] at hcell
    rcases List.mem_append.mp hcell with hcell | hcell
    · exact hcells.tab cell hcell
    · exact List.eq_of_mem_replicate hcell ▸ (by decide)
  have hread := r.readCells t.tabs htab 0 (Row.occupiedCells cells).length
    (by rw [hr, length_fullRow hle]; omega) []
  have htake : (r.inner.drop 0).take (Row.occupiedCells cells).length = Row.occupiedCells cells := by
    rw [hr, List.drop_zero, fullRow, List.take_append_of_le_length hlength]
    exact (List.prefix_iff_eq_take.mp hocc).symm
  rw [htake, List.nil_append] at hread
  have hwrapped : (if (Row.occupiedCells cells).length = 0 then some false
      else (r.get ((Row.occupiedCells cells).length - 1)).map fun cell => cell.flags.wrapline) =
      some (cells.getLast?.any fun cell => cell.flags.wrapline) := by
    split
    · next hzero =>
        refine congrArg some (Eq.symm (Bool.eq_false_iff.mpr fun hgo => ?_))
        have hall : Row.occupiedCells cells = cells := if_pos hgo
        rw [hall] at hzero
        rw [List.eq_nil_of_length_eq_zero hzero] at hgo
        cases hgo
    · next hpos =>
        obtain ⟨cell, hcell, -, hgo⟩ := Row.lastOccupied hr hcells hpos
        rw [hcell, Option.map_some, hgo]
  have hno : (decide ((Row.occupiedCells cells).length = t.columns ∧
      2 ≤ (Row.occupiedCells cells).length) &&
      ((r.get ((Row.occupiedCells cells).length - 1)).any fun cell =>
        cell.flags.leadingWideCharSpacer) && includeWrappedWide) = false := by
    refine Bool.eq_false_iff.mpr fun hall => ?_
    simp only [Bool.and_eq_true, decide_eq_true_eq] at hall
    obtain ⟨⟨⟨-, htwo⟩, hany⟩, hinclude⟩ := hall
    obtain ⟨cell, hcell, hmem, -⟩ := Row.lastOccupied hr hcells (by omega)
    rw [hcell] at hany
    exact Bool.false_ne_true ((hleading hinclude cell hmem).symm.trans hany)
  have hone : usub t.columns 1 = some (columns - 1) := by
    rw [show t.columns = columns from hcolumns, usub_of_le hc]
  unfold lineToString
  simp only [hget, Row.lineLength_eq hr hcells hc, Row.wideStart_first hr hcells hc, hlast, hmin,
    Option.bind_eq_bind, Option.bind_some, Nat.sub_zero, hread, hone, hwrapped, hno,
    Bool.false_eq_true, if_false]
  rw [Row.rowText_eq]
  cases cells.getLast?.any fun cell => cell.flags.wrapline with
  | true => rw [if_neg fun hand => Bool.false_ne_true hand.2.symm, if_pos rfl, List.append_nil]
  | false => rw [if_pos ⟨Nat.le_refl _, rfl⟩, if_neg Bool.false_ne_true]

theorem readLines_eq {read : Int → Option (List Char)} {rows : List (List Cell)} (line : Int)
    (h : ∀ (k : Nat) cells, rows[k]? = some cells → read (line + k) = some (Sheet.rowText cells))
    (res : List Char) :
    (lineRange line (line + rows.length)).foldlM (fun (res : List Char) l => do
      let text ← read l
      some (res ++ text)) res = some (res ++ rows.flatMap Sheet.rowText) := by
  induction rows generalizing line res with
  | nil =>
      have hnil : lineRange line (line + ([] : List (List Cell)).length) = [] :=
        lineRange_eq_nil (Int.le_of_eq (Int.add_zero _))
      rw [hnil, List.flatMap_nil, List.append_nil]
      rfl
  | cons cells rows ih =>
      have hcons : lineRange line (line + (cells :: rows).length) =
          line :: lineRange (line + 1) (line + 1 + rows.length) := by
        rw [lineRange_cons (by simp only [List.length_cons]; omega)]
        congr 2
        simp only [List.length_cons]
        omega
      have hfirst : read line = some (Sheet.rowText cells) := by
        have hzero := h 0 cells rfl
        rwa [Int.natCast_zero, Int.add_zero] at hzero
      rw [hcons, List.foldlM_cons, hfirst]
      simp only [Option.bind_eq_bind, Option.bind_some]
      refine (ih (line + 1) (fun k row hk => ?_) _).trans ?_
      · rw [← h (k + 1) row hk]
        congr 1
        omega
      · rw [List.flatMap_cons, List.append_assoc]

theorem Shows.boundsToString {s : Sheet} {lines max : Nat} (h : t.Shows lines columns max s)
    (hlegible : s.AllLegible columns) (hopen : s.Open columns) {text : List Char}
    (htext : s.text = text ++ ['\n']) :
    t.boundsToString ⟨t.topmostLine, 0⟩ ⟨t.grid.cursor.point.line, t.lastColumn⟩ = some text := by
  have hc : 1 ≤ columns := h.columns_eq ▸ h.wf.grid.columns_pos
  have hlines : lineRange t.topmostLine (t.grid.cursor.point.line + 1) =
      lineRange t.topmostLine (t.topmostLine + (s.above ++ [s.row]).length) := by
    rw [h.line, List.length_append, List.length_singleton]
    congr 1
    omega
  have hread : ∀ (k : Nat) cells, (s.above ++ [s.row])[k]? = some cells →
      t.lineToString (t.topmostLine + k) 0 t.lastColumn
        (decide (t.topmostLine + k = t.grid.cursor.point.line)) = some (Sheet.rowText cells) := by
    intro k cells hk
    have hlt := (List.getElem?_eq_some_iff.mp hk).1
    rw [List.length_append, List.length_singleton] at hlt
    have habove := h.raw.above_lt
    have hle := h.wf.grid.lines_le
    have htop : t.topmostLine = -((t.grid.raw.len - t.grid.lines : Nat) : Int) := rfl
    have hline : t.grid.raw.HasLine (t.topmostLine + k) :=
      h.wf.grid.hasLine (Int.le_add_of_nonneg_right (Int.natCast_nonneg k)) (by omega)
    have hposition : t.grid.raw.position (t.topmostLine + k) = t.grid.raw.len - 1 - k := by
      simp only [Storage.position, h.wf.grid.visible]
      omega
    obtain ⟨r, hr, hinner⟩ := h.raw.get hk hline hposition
    refine lineToString_eq hr hinner (hlegible cells (List.mem_of_getElem? hk)) h.columns_eq hc
      fun hlast cell hcell => ?_
    -- Only the row that is being written is read with the character of a leading spacer.
    have hlastk : k = s.above.length := by
      have heq := of_decide_eq_true hlast
      rw [h.line] at heq
      omega
    subst hlastk
    rw [List.getElem?_concat_length] at hk
    cases hk
    exact (hopen.going cell hcell).2
  simp only [Term.boundsToString, ite_self, hlines]
  have htext' : (s.above ++ [s.row]).flatMap Sheet.rowText = text ++ ['\n'] := by
    rw [← htext, Sheet.text, Sheet.typed, Sheet.feed, List.flatMap_nil, List.append_nil]
  rw [readLines_eq _ hread, htext', List.nil_append, Option.bind_eq_bind, Option.bind_some,
    List.getLast?_concat, if_pos rfl, List.dropLast_concat]

/-! ### Typing -/

/-- A fresh terminal shows an empty sheet. -/
theorem new_ready (config : Config) {lines columns : Nat} (hl : 1 ≤ lines) (hc : 2 ≤ columns) :
    (new config lines columns).Ready lines columns config.scrollingHistory .empty := by
  have htop : (new config lines columns).topmostLine = 0 := by
    have hlen : (new config lines columns).grid.raw.len = lines := rfl
    simp only [topmostLine_eq, hlen]
    exact congrArg (fun n : Nat => -(n : Int)) (Nat.sub_self lines)
  refine .writing ⟨⟨new_wf config hl hc, Storage.withCapacity_shows hl columns, ?_, rfl, rfl, rfl, rfl,
    rfl, rfl, rfl, rfl⟩, rfl, Nat.lt_of_lt_of_le Nat.zero_lt_two hc, rfl, rfl⟩
  rw [htop]
  rfl

section
variable {env : Env} {s : Sheet} {lines max : Nat} {line : List Char}

/-- CR and LF begin a new line. -/
theorem Ready.feed (h : t.Ready lines columns max s) (hroom : s.above.length + 2 ≤ lines + max) :
    Returns (runOps (HandlerOp.step env) t [.carriageReturn, .linefeed])
      (Ready lines columns max s.feed) := by
  have hpos : 0 < columns := h.shows.columns_eq ▸ h.shows.wf.grid.columns_pos
  refine Returns.bind (P := fun a => a.Shows lines columns max s ∧
    a.grid.cursor = { t.grid.cursor with
      point := ⟨a.grid.cursor.point.line, 0⟩, inputNeedsWrap := false }) ?_ fun a ha => ?_
  · refine (damageColumns_returns h.shows.wf.damage h.shows.wf.grid.cursor _ _).bind fun a ha => .pure ?_
    have hda := h.shows.damaged ha.1
    refine ⟨hda.withCursor { a.grid.cursor with
      point.column := 0, inputNeedsWrap := false } rfl hpos rfl, ?_⟩
    simp only [setColumn, setNeedsWrap, ha.1.grid]
  · obtain ⟨ha, hcursor⟩ := ha
    refine (ha.linefeed (by rw [hcursor, h.template]) hroom).bind fun b hb => .pure ?_
    obtain ⟨hb, hbcursor⟩ := hb
    exact .writing ⟨hb, by rw [hbcursor, hcursor, h.template], hpos, by rw [hbcursor, hcursor]; rfl,
      by rw [hbcursor, hcursor]⟩

theorem Ready.type (h : t.Ready lines columns max s) (hopen : s.Open columns)
    (hmap : ∀ c, env.map .ascii c = c)
    (hw : ∀ c ∈ line, env.width c = some 1 ∨ env.width c = some 2)
    (hroom : (s.type columns env.cells line).above.length + 1 ≤ lines + max) :
    Returns (runOps (HandlerOp.step env) t (line.map .input))
      (Ready lines columns max (s.type columns env.cells line)) := by
  have hc : 2 ≤ columns := h.shows.columns_eq ▸ h.shows.wf.two_le
  have hcells : ∀ c ∈ line, env.width c = some (env.cells c) ∧ (env.cells c = 1 ∨ env.cells c = 2) := by
    intro c hmem
    rcases hw c hmem with hc | hc
    · have hcell : env.cells c = 1 := by rw [Env.cells, hc]; rfl
      exact ⟨hcell ▸ hc, .inl hcell⟩
    · have hcell : env.cells c = 2 := by rw [Env.cells, hc]; rfl
      exact ⟨hcell ▸ hc, .inr hcell⟩
  induction line generalizing s t with
  | nil => exact .pure h
  | cons c rest ih =>
      have hrest : ∀ x ∈ rest, env.width x = some (env.cells x) ∧ (env.cells x = 1 ∨ env.cells x = 2) :=
        fun x hx => hcells x (List.mem_cons_of_mem _ hx)
      obtain ⟨hwidth, hone⟩ := hcells c List.mem_cons_self
      have hprinted := (Sheet.print_spec hopen hc (env.cells c) c).2
      have hlength := Sheet.type_length hprinted (fun x hx => (hrest x hx).2) hc
      have hroom' : (s.print columns (env.cells c) c).above.length + 1 ≤ lines + max := by
        have htyped : s.type columns env.cells (c :: rest) =
            (s.print columns (env.cells c) c).type columns env.cells rest := rfl
        rw [htyped] at hroom
        omega
      refine (h.input hmap hwidth hone hroom').bind fun a ha => ?_
      exact ih ha hprinted (fun x hx => hw x (List.mem_cons_of_mem _ hx)) hroom hrest

end

end Term

/-- What is sent for lines of text: their characters, and CR LF between the lines. -/
def typedOps : List (List Char) → List HandlerOp
  | [] => []
  | [line] => line.map .input
  | line :: rest => line.map .input ++ [.carriageReturn, .linefeed] ++ typedOps rest

namespace Term
variable {t : Term} {env : Env} {s : Sheet} {lines columns max : Nat}

theorem Ready.typeLines (h : t.Ready lines columns max s) (hs : s.row = [])
    (hmap : ∀ c, env.map .ascii c = c) {text : List (List Char)}
    (hw : ∀ line ∈ text, ∀ c ∈ line, env.width c = some 1 ∨ env.width c = some 2)
    (hroom : s.above.length + Sheet.rows columns env.cells text ≤ lines + max) :
    Returns (runOps (HandlerOp.step env) t (typedOps text))
      (Ready lines columns max (s.typeLines columns env.cells text)) := by
  have hc : 2 ≤ columns := h.shows.columns_eq ▸ h.shows.wf.two_le
  induction text generalizing s t with
  | nil => exact .pure h
  | cons line rest ih =>
      have hopen := Sheet.open_of_row_eq_nil hs columns
      have hline := hw line List.mem_cons_self
      have hcells : ∀ c ∈ line, env.cells c = 1 ∨ env.cells c = 2 := by
        intro c hmem
        unfold Env.cells
        exact (hline c hmem).imp (fun hc => by rw [hc]; rfl) fun hc => by rw [hc]; rfl
      have hlength := Sheet.type_length hopen hcells hc
      rw [hs, List.length_nil] at hlength
      have hrows : Sheet.rows columns env.cells (line :: rest) =
          Sheet.wraps columns env.cells 0 line + 1 + Sheet.rows columns env.cells rest := rfl
      rw [hrows] at hroom
      cases rest with
      | nil => exact h.type hopen hmap hline (by omega)
      | cons next rest =>
          have hmore : Sheet.rows columns env.cells (next :: rest) =
            Sheet.wraps columns env.cells 0 next + 1 + Sheet.rows columns env.cells rest := rfl
          have hops : typedOps (line :: next :: rest) =
            line.map .input ++ [.carriageReturn, .linefeed] ++ typedOps (next :: rest) := rfl
          rw [hops, runOps_append, runOps_append]
          refine Returns.bind (P := Ready lines columns max (s.type columns env.cells line).feed) ?_
            fun b hb => ?_
          · refine (h.type hopen hmap hline (by omega)).bind fun a ha => ?_
            exact ha.feed (by omega)
          · have hfeed : (s.type columns env.cells line).feed.above.length =
              (s.type columns env.cells line).above.length + 1 := List.length_append
            exact ih hb rfl (fun x hx => hw x (List.mem_cons_of_mem _ hx)) (by omega)

/-- Lines of characters that are typed into a fresh terminal, with room for all of their rows,
are read back from its topmost line to the cursor's, up to trailing blanks of each line. -/
theorem type_copy (config : Config) {lines columns : Nat} (hl : 1 ≤ lines) (hc : 2 ≤ columns)
    (hmap : ∀ c, env.map .ascii c = c) {text : List (List Char)}
    (hw : ∀ line ∈ text, ∀ c ∈ line,
      (env.width c = some 1 ∨ env.width c = some 2) ∧ c ≠ '\t')
    (hroom : Sheet.rows columns env.cells text ≤ lines + config.scrollingHistory) :
    Returns (runOps (HandlerOp.step env) (new config lines columns) (typedOps text)) fun t =>
      ∃ out, Sheet.Kept out text ∧
        t.boundsToString ⟨t.topmostLine, 0⟩ ⟨t.grid.cursor.point.line, t.lastColumn⟩ =
          some (['\n'].intercalate out) := by
  have hready := new_ready config hl hc
  refine Returns.mono (hready.typeLines rfl hmap (fun line hline c hmem => (hw line hline c hmem).1)
    (Nat.le_trans (Nat.le_of_eq (Nat.zero_add _)) hroom)) fun t ht => ?_
  have hlegible : Sheet.empty.AllLegible columns := by
    intro cells hcells
    exact List.mem_singleton.mp hcells ▸ Sheet.legible_nil columns
  obtain ⟨hall, hopen⟩ := Sheet.typeLines_legible hlegible rfl hc env.cells
    fun line hline c hmem => (hw line hline c hmem).2
  by_cases hne : text = []
  · subst hne
    exact ⟨[], .nil, ht.shows.boundsToString hall hopen rfl⟩
  · obtain ⟨out, hkept, htext⟩ := Sheet.typeLines_text (s := .empty) rfl (.inl rfl) hc
      env.cells hne
    exact ⟨out, hkept, ht.shows.boundsToString hall hopen htext⟩

/-- Three rows on a screen of two lines: a fullwidth character goes to the second one. -/
theorem type_copy_wide :
    Returns (runOps (HandlerOp.step .fullwidth) (new .initial 2 2) (typedOps [['a', '漢'], ['b']])) fun t =>
      ∃ out, Sheet.Kept out [['a', '漢'], ['b']] ∧
        t.boundsToString ⟨t.topmostLine, 0⟩ ⟨t.grid.cursor.point.line, t.lastColumn⟩ =
          some (['\n'].intercalate out) := by
  refine type_copy .initial (by decide) (by decide) (fun _ => rfl) ?_ (by decide)
  simp only [List.forall_mem_cons, List.not_mem_nil, false_imp_iff, implies_true, and_true]
  exact ⟨⟨⟨.inl rfl, by decide⟩, .inr rfl, by decide⟩, .inl rfl, by decide⟩

end Term
end Velacritty
