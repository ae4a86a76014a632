import Velacritty.TypedText
import Velacritty.ViMotions

/-! What is copied of the cells between two points. -/
namespace Velacritty
open Fallible

/-- There is a tab at or after `start`, with nothing but blanks and no tab stop from it to
`column`. -/
def InTab (tabs : List Bool) (cells : List Cell) (start column : Nat) : Prop :=
  ∃ tab < column, start ≤ tab ∧ cells[tab]?.map Cell.c = some '\t' ∧
    ∀ k < column, tab < k → cells[k]?.map Cell.c = some ' ' ∧ tabs[k]? = some false

instance (tabs : List Bool) (cells : List Cell) (start column : Nat) :
    Decidable (InTab tabs cells start column) :=
  inferInstanceAs (Decidable (∃ tab < column, _))

/-- The characters copied of a column: none of a blank that a tab before it stands for. -/
def copiedCell (tabs : List Bool) (cells : List Cell) (start column : Nat) : List Char :=
  if InTab tabs cells start (column + 1) ∧ cells[column]?.map Cell.c ≠ some '\t' then []
  else (cells[column]?.map Cell.text).getD []

/-- The characters copied of the columns `start..=stop` of a line: without the blanks at the end
of a line that is not wrapped, and with a newline if all of such a line is copied. -/
def copiedLine (tabs : List Bool) (cells : List Cell) (start stop : Nat) : List Char :=
  let occupied := Row.occupiedCells cells
  (List.range' start (min occupied.length (stop + 1) - start)).flatMap
      (copiedCell tabs cells start) ++
    if cells.length ≤ stop + 1 ∧ (occupied.getLast?.any fun cell => cell.flags.wrapline) = false
      then ['\n'] else []

section
variable {tabs : List Bool} {cells : List Cell} {start column : Nat}

theorem not_inTab_self : ¬ InTab tabs cells start start := by
  rintro ⟨tab, hlt, hle, -⟩
  exact Nat.not_lt.mpr hle hlt

theorem inTab_succ (hle : start ≤ column) : InTab tabs cells start (column + 1) ↔
    cells[column]?.map Cell.c = some '\t' ∨ InTab tabs cells start column ∧
      cells[column]?.map Cell.c = some ' ' ∧ tabs[column]? = some false := by
  constructor
  · rintro ⟨tab, hlt, hstart, htab, hblank⟩
    by_cases heq : tab = column
    · exact .inl (heq ▸ htab)
    · have hlt' : tab < column := by omega
      refine .inr ⟨⟨tab, hlt', hstart, htab, fun k hk => hblank k (by omega)⟩, ?_⟩
      exact hblank column (Nat.lt_succ_self _) hlt'
  · rintro (htab | ⟨⟨tab, hlt, hstart, htab, hblank⟩, hcolumn⟩)
    · refine ⟨column, Nat.lt_succ_self _, hle, htab, fun k hk hlt => ?_⟩
      omega
    · refine ⟨tab, by omega, hstart, htab, fun k hk hkt => ?_⟩
      by_cases heq : k = column
      · exact heq ▸ hcolumn
      · exact hblank k (by omega) hkt

end

namespace Row
variable {r : Row Cell} {tabs : List Bool} {start : Nat}

theorem readCell_copied {column : Nat} (hle : start ≤ column) (hlt : column < r.inner.length)
    (htabs : column < tabs.length) (text : List Char) :
    r.readCell tabs (decide (InTab tabs r.inner start column), text) column =
      some (decide (InTab tabs r.inner start (column + 1)),
        text ++ copiedCell tabs r.inner start column) := by
  have hcell : r.get column = some r.inner[column] := List.getElem?_eq_getElem hlt
  have hstop : tabs[column]? = some tabs[column] := List.getElem?_eq_getElem htabs
  have hchar : r.inner[column]?.map Cell.c = some r.inner[column].c := by
    rw [List.getElem?_eq_getElem hlt, Option.map_some]
  have hnext : InTab tabs r.inner start (column + 1) ↔ _ := inTab_succ hle
  rw [hchar, hstop] at hnext
  unfold readCell copiedCell
  rw [hchar, List.getElem?_eq_getElem hlt]
  simp only [hcell, hstop, Option.bind_eq_bind, Option.bind_some, Option.map_some,
    Option.getD_some, decide_eq_true_eq]
  by_cases hskip : InTab tabs r.inner start column ∧ r.inner[column].c = ' ' ∧ tabs[column] = false
  · obtain ⟨htab, hblank, hnone⟩ := hskip
    have hin : InTab tabs r.inner start (column + 1) :=
      hnext.mpr (.inr ⟨htab, congrArg some hblank, congrArg some hnone⟩)
    have hne : some r.inner[column].c ≠ some '\t' := by
      rw [hblank]
      decide
    rw [if_pos htab, if_pos ⟨hin, hne⟩, decide_eq_true hin]
    simp only [hblank, hnone, Bool.false_or, Option.bind_some, List.append_nil]
    rfl
  · have hread : (if InTab tabs r.inner start column then
        some (!(tabs[column] || r.inner[column].c != ' ')) else some false) = some false := by
      split
      · next htab =>
          rw [Option.some.injEq, Bool.not_eq_eq_eq_not, Bool.not_false]
          by_contra hnot
          rw [Bool.not_eq_true, Bool.or_eq_false_iff, bne_eq_false_iff_eq] at hnot
          exact hskip ⟨htab, hnot.2, hnot.1⟩
      · rfl
    have hin : InTab tabs r.inner start (column + 1) ↔ r.inner[column].c = '\t' := by
      rw [hnext, Option.some.injEq, Option.some.injEq, Option.some.injEq, or_iff_left hskip]
    rw [hread, if_neg fun hc => hc.2 (congrArg some (hin.mp hc.1))]
    simp only [Option.bind_some, Bool.false_eq_true, if_false, Option.some.injEq, Prod.mk.injEq,
      and_true]
    rw [Bool.eq_iff_iff, beq_iff_eq, decide_eq_true_iff]
    exact hin.symm

theorem readCells_copied (tabs : List Bool) (r : Row Cell) (first : Nat) (hle : start ≤ first) (count : Nat)
    (hlen : first + count ≤ r.inner.length) (htabs : first + count ≤ tabs.length) (text : List Char) :
    (List.range' first count).foldlM (r.readCell tabs)
        (decide (InTab tabs r.inner start first), text) =
      some (decide (InTab tabs r.inner start (first + count)),
        text ++ (List.range' first count).flatMap (copiedCell tabs r.inner start)) := by
  induction count generalizing first text with
  | zero => simp only [List.range'_zero, List.flatMap_nil, List.append_nil, Nat.add_zero]; rfl
  | succ count ih =>
      rw [List.range'_succ, List.foldlM_cons, readCell_copied hle (by omega) (by omega),
        Option.bind_eq_bind, Option.bind_some, ih (first + 1) (by omega) (by omega) (by omega),
        List.flatMap_cons, List.append_assoc, Nat.add_right_comm, Nat.add_assoc]

theorem lineLength_occupied (hpos : 0 < r.inner.length) :
    r.lineLength = some (occupiedCells r.inner).length := by
  have hlast : r.get (r.len - 1) = r.inner.getLast? := by
    rw [List.getLast?_eq_getElem?]
    rfl
  have hne : r.inner ≠ [] := List.ne_nil_of_length_pos hpos
  unfold lineLength
  rw [show r.len = r.inner.length from rfl] at *
  rw [usub_of_le hpos]
  simp only [Option.bind_eq_bind, Option.bind_some, hlast, List.getLast?_eq_some_getLast hne]
  unfold occupiedCells
  rw [List.getLast?_eq_some_getLast hne, Option.any_some]
  split
  · rfl
  · rfl

end Row

namespace Row
variable {r : Row Cell}

theorem wideStart_le {start first : Nat} (h : r.wideStart start = some first) : first ≤ start := by
  simp only [wideStart, Option.bind_eq_bind, Option.bind_eq_some_iff] at h
  obtain ⟨cell, -, h⟩ := h
  split at h
  · rw [usub_eq_some] at h
    omega
  · exact Nat.le_of_eq (Option.some.inj h).symm

theorem wideStart_isSome {start : Nat} (hlt : start < r.len)
    (hzero : start = 0 → ∀ cell, r.get start = some cell → cell.flags.wideCharSpacer = false) :
    ∃ first, r.wideStart start = some first := by
  obtain ⟨cell, hcell, -⟩ := get_returns hlt
  unfold wideStart
  rw [hcell]
  simp only [Option.bind_eq_bind, Option.bind_some]
  split
  · next hspacer =>
      have hpos : 1 ≤ start := Nat.pos_of_ne_zero fun hstart =>
        Bool.false_ne_true ((hzero hstart cell hcell).symm.trans hspacer)
      exact ⟨_, usub_of_le hpos⟩
  · exact ⟨_, rfl⟩

/-- The last cell that counts toward the length of a line. -/
theorem get_lastOccupied : (if (occupiedCells r.inner).length = 0 then some false
    else (r.get ((occupiedCells r.inner).length - 1)).map fun cell => cell.flags.wrapline) =
      some ((occupiedCells r.inner).getLast?.any fun cell => cell.flags.wrapline) := by
  split
  · next hzero => rw [List.eq_nil_of_length_eq_zero hzero]; rfl
  · next hpos =>
      have hlt : (occupiedCells r.inner).length - 1 < (occupiedCells r.inner).length := by omega
      have hget : r.get ((occupiedCells r.inner).length - 1) = (occupiedCells r.inner).getLast? := by
        rw [List.getLast?_eq_getElem?, Row.get, List.getElem?_eq_getElem hlt]
        exact List.prefix_iff_getElem?.mp (occupiedCells_isPrefix r.inner) _ hlt
      rw [hget, List.getLast?_eq_getElem?, List.getElem?_eq_getElem hlt]
      rfl

end Row

namespace Term
variable {t : Term} {r : Row Cell} {line : Int} {start stop : Nat}

/-- What reading a line copies, and with which character of the line above it if it ends with the
first half of a wide character. -/
theorem lineToString_copied (ht : t.WF) (hget : t.grid.raw.get line = some r)
    (hstart : start < t.columns) (hstop : stop < t.columns)
    {first : Nat} (hfirst : r.wideStart start = some first) (includeWrappedWide : Bool) :
    t.lineToString line start stop includeWrappedWide =
      if stop = t.lastColumn ∧ (Row.occupiedCells r.inner).length = t.columns ∧
          (r.inner.getLast?.any fun cell => cell.flags.leadingWideCharSpacer) = true ∧
          includeWrappedWide = true then do
        let wide ← t.grid.cellAt ⟨line - 1, 0⟩
        some (copiedLine t.tabs r.inner first stop ++ [wide.c])
      else some (copiedLine t.tabs r.inner first stop) := by
  have hlen : r.inner.length = t.columns :=
    ((Storage.get_returns ht.grid.raw (Storage.hasLine_of_get hget)).of_eq hget).len_eq
  have htabs : t.tabs.length = t.columns := ht.tabs
  have htwo : 2 ≤ t.columns := ht.two_le
  have hocc := (Row.occupiedCells_isPrefix r.inner).length_le
  have hlast : t.lastColumn = t.columns - 1 := rfl
  have hle := Row.wideStart_le hfirst
  have hread := Row.readCells_copied t.tabs r first (Nat.le_refl first)
    (min (Row.occupiedCells r.inner).length (stop + 1) - first) (by omega) (by omega) []
  rw [decide_eq_false not_inTab_self, List.nil_append] at hread
  have hone : usub t.columns 1 = some (t.columns - 1) := usub_of_le (by omega)
  unfold lineToString
  simp only [hget, Row.lineLength_occupied (show 0 < r.inner.length by omega), hfirst,
    Option.bind_eq_bind, Option.bind_some, hread, hone]
  by_cases hend : stop = t.lastColumn
  · have hmin : min (Row.occupiedCells r.inner).length (stop + 1) =
        (Row.occupiedCells r.inner).length := by omega
    have hcopied : (if t.columns - 1 ≤ stop ∧
          ((Row.occupiedCells r.inner).getLast?.any fun cell => cell.flags.wrapline) = false then
            (List.range' first ((Row.occupiedCells r.inner).length - first)).flatMap
              (copiedCell t.tabs r.inner first) ++ ['\n']
        else (List.range' first ((Row.occupiedCells r.inner).length - first)).flatMap
              (copiedCell t.tabs r.inner first)) = copiedLine t.tabs r.inner first stop := by
      have hreach : t.columns - 1 ≤ stop := by omega
      have hall : r.inner.length ≤ stop + 1 := by omega
      simp only [copiedLine, hmin, hreach, hall, true_and]
      split
      · rfl
      · exact (List.append_nil _).symm
    have hleading : ((decide ((Row.occupiedCells r.inner).length = t.columns ∧
          2 ≤ (Row.occupiedCells r.inner).length) &&
        (r.get ((Row.occupiedCells r.inner).length - 1)).any fun cell =>
          cell.flags.leadingWideCharSpacer) && includeWrappedWide) = true ↔
        stop = t.lastColumn ∧ (Row.occupiedCells r.inner).length = t.columns ∧
          (r.inner.getLast?.any fun cell => cell.flags.leadingWideCharSpacer) = true ∧
          includeWrappedWide = true := by
      simp only [Bool.and_eq_true, decide_eq_true_eq]
      constructor
      · rintro ⟨⟨⟨hfull, -⟩, hany⟩, hinclude⟩
        refine ⟨hend, hfull, ?_, hinclude⟩
        rwa [List.getLast?_eq_getElem?, hlen, ← hfull]
      · rintro ⟨-, hfull, hany, hinclude⟩
        refine ⟨⟨⟨hfull, by omega⟩, ?_⟩, hinclude⟩
        rwa [List.getLast?_eq_getElem?, hlen, ← hfull] at hany
    rw [hmin, Row.get_lastOccupied]
    simp only [Option.bind_some]
    rw [hcopied]
    exact if_congr hleading rfl rfl
  · have hlt : stop < t.columns - 1 := by omega
    have hwrapped : ∃ b, (if min (Row.occupiedCells r.inner).length (stop + 1) = 0 then some false
        else (r.get (min (Row.occupiedCells r.inner).length (stop + 1) - 1)).map fun cell =>
          cell.flags.wrapline) = some b := by
      split
      · exact ⟨_, rfl⟩
      · obtain ⟨cell, hcell, -⟩ := Row.get_returns (r := r)
          (show min (Row.occupiedCells r.inner).length (stop + 1) - 1 < r.inner.length by omega)
        rw [hcell]
        exact ⟨_, rfl⟩
    obtain ⟨b, hb⟩ := hwrapped
    have hshort : decide (min (Row.occupiedCells r.inner).length (stop + 1) = t.columns ∧
        2 ≤ min (Row.occupiedCells r.inner).length (stop + 1)) = false :=
      decide_eq_false fun hfull => by omega
    have hcut : ¬ r.inner.length ≤ stop + 1 := by omega
    simp only [hb, Option.bind_some, hshort, Bool.false_and, Bool.false_eq_true, if_false]
    rw [if_neg fun hc => absurd hc.1 (by omega), if_neg fun hc => hend hc.1]
    simp only [copiedLine, hcut, false_and, if_false, List.append_nil]

def copiedRow (t : Term) (p q : Point) (line : Int) : List Char :=
  ((t.grid.raw.get line).map fun row =>
    let start := if line = p.line then p.column else 0
    let stop := if line = q.line then q.column else t.lastColumn
    copiedLine t.tabs row.inner ((row.wideStart start).getD start) stop).getD []

/-- The characters copied of the cells from one point to another, without a newline at the end. -/
def copiedText (t : Term) (p q : Point) : List Char :=
  let text := (lineRange p.line (q.line + 1)).flatMap (t.copiedRow p q)
  if text.getLast? = some '\n' then text.dropLast else text

/-- No line is read from a second half of a wide character whose first half is missing, and the
last cell is not a first half that was left blank at the end of its line. -/
structure Copyable (t : Term) (p q : Point) : Prop where
  first : ∀ line, p.line ≤ line → line ≤ q.line → (line = p.line → p.column = 0) →
    ∀ cell, t.grid.cellAt ⟨line, 0⟩ = some cell → cell.flags.wideCharSpacer = false
  last : q.column = t.lastColumn →
    ∀ cell, t.grid.cellAt q = some cell → cell.flags.leadingWideCharSpacer = false

theorem foldlM_append {ι β : Type} {read : ι → Option (List β)} {f : ι → List β} {xs : List ι}
    (h : ∀ x ∈ xs, read x = some (f x)) (res : List β) :
    xs.foldlM (fun (res : List β) x => do
      let text ← read x
      some (res ++ text)) res = some (res ++ xs.flatMap f) := by
  induction xs generalizing res with
  | nil => rw [List.flatMap_nil, List.append_nil]; rfl
  | cons x xs ih =>
      rw [List.foldlM_cons, h x List.mem_cons_self]
      simp only [Option.bind_eq_bind, Option.bind_some]
      refine (ih (fun y hy => h y (List.mem_cons_of_mem _ hy)) _).trans ?_
      rw [List.flatMap_cons, List.append_assoc]

/-- The text between two points is what is copied of its lines. -/
theorem boundsToString_copied {p q : Point} (ht : t.WF) (hp : t.InGrid p) (hq : t.InGrid q)
    (hcopy : t.Copyable p q) : t.boundsToString p q = some (t.copiedText p q) := by
  have hread : ∀ line ∈ lineRange p.line (q.line + 1),
      t.lineToString line (if line = p.line then p.column else 0)
        (if line = q.line then q.column else t.lastColumn) (decide (line = q.line)) =
      some (t.copiedRow p q line) := by
    intro line hline
    rw [mem_lineRange] at hline
    have hlast := lastColumn_lt ht.grid
    have hlines : t.bottommostLine = (t.grid.lines : Int) - 1 := rfl
    obtain ⟨hp₁, hp₂, hp₃⟩ := hp
    obtain ⟨hq₁, hq₂, hq₃⟩ := hq
    obtain ⟨row, hrow, hrwf⟩ := Storage.get_returns ht.grid.raw
      (ht.grid.hasLine (Int.le_trans hp₁ hline.1) (show line < _ by omega))
    have hcell (column : Nat) : t.grid.cellAt ⟨line, column⟩ = row.get column := by
      simp only [Grid.cellAt, hrow, Option.bind_eq_bind, Option.bind_some]
    have hstart : (if line = p.line then p.column else 0) < t.columns := by
      split
      · exact hp₃
      · omega
    have hstop : (if line = q.line then q.column else t.lastColumn) < t.columns := by
      split
      · exact hq₃
      · exact hlast
    obtain ⟨first, hfirst⟩ := Row.wideStart_isSome
      (Nat.lt_of_lt_of_eq hstart hrwf.len_eq.symm) fun hzero cell hget => by
      refine hcopy.first line hline.1 (by omega) (fun heq => ?_) cell (by rw [hcell, ← hzero, hget])
      rwa [if_pos heq] at hzero
    rw [lineToString_copied ht hrow hstart hstop hfirst, if_neg ?_]
    · simp only [copiedRow, hrow, Option.map_some, Option.getD_some, hfirst]
    · rintro ⟨hend, -, hany, heq⟩
      have heq : line = q.line := of_decide_eq_true heq
      rw [if_pos heq] at hend
      have hlen : row.inner.length = t.columns := hrwf.len_eq
      have hget : t.grid.cellAt q = row.inner.getLast? := by
        rw [List.getLast?_eq_getElem?, hlen, ← show t.lastColumn = t.columns - 1 from rfl, ← hend]
        have hq := hcell q.column
        rwa [heq] at hq
      rw [← hget] at hany
      obtain ⟨cell, hcell, hleading⟩ := (Option.any_eq_true _ _).mp hany
      exact Bool.false_ne_true ((hcopy.last hend cell hcell).symm.trans hleading)
  unfold boundsToString
  rw [foldlM_append hread]
  rfl

/-- An `a` at the end of a line that a fullwidth character did not fit on, with that character. -/
theorem boundsToString_copied_wrapped : ∃ t : Term, t.WF ∧
    t.boundsToString ⟨0, 0⟩ ⟨1, 1⟩ = some (t.copiedText ⟨0, 0⟩ ⟨1, 1⟩) ∧
    t.copiedText ⟨0, 0⟩ ⟨1, 1⟩ = ['a', '漢'] := by
  have hrun : Term.Reachable .fullwidth .initial 2 2 _ :=
    .step (.step .refl (a := .handler (.input 'a')) trivial rfl) (a := .handler (.input '漢')) trivial
      rfl
  have hwf := Term.Reachable.wf hrun (by decide) (by decide)
  refine ⟨_, hwf, boundsToString_copied hwf ⟨by decide, by decide, by decide⟩
    ⟨by decide, by decide, by decide⟩ ⟨fun line hlo hhi _ cell hcell => ?_, fun _ cell hcell => ?_⟩, rfl⟩
  · obtain rfl | rfl : line = 0 ∨ line = 1 := by
      simp only at hlo hhi
      omega
    · exact Option.some.inj hcell ▸ rfl
    · exact Option.some.inj hcell ▸ rfl
  · exact Option.some.inj hcell ▸ rfl

/-- The newline of a blank line is left out at the end of the text. The second half of a wide
character is copied as the whole character. The blanks that a tab stands for are not copied. A line
that ends with a leading spacer is completed from the line above it, which is outside of the grid. -/
theorem boundsToString_others :
    (new .initial 2 2).boundsToString ⟨0, 0⟩ ⟨0, 1⟩ = some [] ∧
    (∃ t, Term.Reachable .fullwidth .initial 2 2 t ∧
      (t.grid.cellAt ⟨0, 1⟩).map (fun cell => cell.flags.wideCharSpacer) = some true ∧
      t.boundsToString ⟨0, 1⟩ ⟨0, 1⟩ = some ['漢']) ∧
    (∃ t, Term.Reachable .ascii .initial 1 10 t ∧
      (t.grid.cellAt ⟨0, 1⟩).map Cell.c = some ' ' ∧
      t.boundsToString ⟨0, 0⟩ ⟨0, 8⟩ = some ['\t', 'x']) ∧
    ∃ t, Term.Reachable .fullwidth .initial 2 2 t ∧
      (t.grid.cellAt ⟨0, 1⟩).map (fun cell => cell.flags.leadingWideCharSpacer) = some true ∧
      t.boundsToString ⟨0, 0⟩ ⟨0, 1⟩ = none := by
  refine ⟨rfl, ⟨_, .step .refl (a := .handler (.input '漢')) trivial rfl, rfl, rfl⟩, ⟨_,
    .step (.step .refl (a := .handler (.putTab 1)) trivial rfl) (a := .handler (.input 'x')) trivial
      rfl, rfl, rfl⟩, ⟨_, .step (.step .refl (a := .handler (.input 'a')) trivial rfl)
        (a := .handler (.input '漢')) trivial rfl, rfl, rfl⟩⟩

end Term
end Velacritty
