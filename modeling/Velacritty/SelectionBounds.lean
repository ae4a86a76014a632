import Velacritty.CopiedText
import Velacritty.SemanticSearch
import Velacritty.SimpleSelection

/-! Which selections become ranges whose ends are in order, and what is read of them. -/
namespace Velacritty
open Fallible

/-- Characters with the Unicode property `White_Space`. -/
def isWhiteSpace (c : Char) : Bool :=
  let n := c.toNat
  decide (9 ≤ n ∧ n ≤ 13 ∨ 0x2000 ≤ n ∧ n ≤ 0x200A) ||
    [0x20, 0x85, 0xA0, 0x1680, 0x2028, 0x2029, 0x202F, 0x205F, 0x3000].contains n

/-- `str::trim_end`. -/
def trimEnd (text : List Char) : List Char := text.rdropWhile isWhiteSpace

namespace Term
variable {t : Term} {p q : Point}

def blockToString (t : Term) (start stop : Point) : Option (List Char) := do
  let res ← (lineRange start.line stop.line).foldlM (fun (res : List Char) line => do
    let text ← t.lineToString line start.column stop.column (decide (start.column ≠ 0))
    some (res ++ trimEnd text ++ ['\n'])) []
  let text ← t.lineToString stop.line start.column stop.column true
  some (res ++ trimEnd text)

def selectionToString (t : Term) : Option (Option (List Char)) :=
  match t.selection with
  | none => some none
  | some s => do
      match ← s.toRange t with
      | none => some none
      | some range =>
          match s.ty with
          | .block => (t.blockToString range.start range.stop).map some
          | .lines => do
              let res ← t.boundsToString range.start range.stop
              some (some (res ++ ['\n']))
          | .simple | .semantic => (t.boundsToString range.start range.stop).map some

/-- No line starts with the second half of a wide character, and the topmost line does not end
with a spacer for one. -/
structure Readable (t : Term) : Prop where
  first : ∀ line cell, t.grid.cellAt ⟨line, 0⟩ = some cell → cell.flags.wideCharSpacer = false
  topmost : ∀ cell, t.grid.cellAt ⟨t.topmostLine, t.lastColumn⟩ = some cell →
    cell.flags.leadingWideCharSpacer = false

theorem lineToString_returns (ht : t.WF) (hr : t.Readable) {line : Int} (htop : t.topmostLine ≤ line)
    (hbottom : line ≤ t.bottommostLine) {start stop : Nat} (hstart : start < t.columns)
    (hstop : stop < t.columns) (includeWrappedWide : Bool) :
    Returns (t.lineToString line start stop includeWrappedWide) fun _ => True := by
  have hlines : t.bottommostLine = (t.grid.lines : Int) - 1 := rfl
  have hpos := ht.grid.columns_pos
  obtain ⟨row, hrow, hrwf⟩ := Storage.get_returns ht.grid.raw (ht.grid.hasLine htop (by omega))
  have hcell (column : Nat) : t.grid.cellAt ⟨line, column⟩ = row.get column := by
    simp only [Grid.cellAt, hrow, Option.bind_eq_bind, Option.bind_some]
  obtain ⟨first, hfirst⟩ := Row.wideStart_isSome (Nat.lt_of_lt_of_eq hstart hrwf.len_eq.symm)
    fun hzero cell hget => hr.first line cell (by rw [hcell, ← hzero, hget])
  rw [lineToString_copied ht hrow hstart hstop hfirst]
  split
  · next hlead =>
      have hlen : row.inner.length = t.columns := hrwf.len_eq
      have hget : t.grid.cellAt ⟨line, t.lastColumn⟩ = row.inner.getLast? := by
        rw [List.getLast?_eq_getElem?, hlen]
        exact hcell t.lastColumn
      rw [← hget] at hlead
      obtain ⟨cell, hlast, hleading⟩ := (Option.any_eq_true _ _).mp hlead.2.2.1
      have hne : line ≠ t.topmostLine := fun heq =>
        Bool.false_ne_true ((hr.topmost cell (heq ▸ hlast)).symm.trans hleading)
      refine (Grid.cellAt_returns ht.grid (p := ⟨line - 1, 0⟩) ?_ ?_ hpos).bind fun cell _ => .pure trivial
      · have htop' : t.grid.dims.topmostLine = t.topmostLine := rfl
        simp only
        omega
      · simp only
        omega
  · exact .pure trivial

/-- The text between two points of the grid can be read. -/
theorem boundsToString_returns (ht : t.WF) (hr : t.Readable) (hp : t.InGrid p) (hq : t.InGrid q) :
    Returns (t.boundsToString p q) fun _ => True := by
  refine Returns.bind (P := fun _ => True) ?_ fun res _ => .pure trivial
  refine Returns.foldlM trivial fun res _ line hline => ?_
  rw [mem_lineRange] at hline
  refine (lineToString_returns ht hr (Int.le_trans hp.1 hline.1) ?_ ?_ ?_ _).bind fun text _ =>
    .pure trivial
  · have hbottom := hq.2.1
    omega
  · split
    · exact hp.2.2
    · exact ht.grid.columns_pos
  · split
    · exact hq.2.2
    · exact lastColumn_lt ht.grid

theorem blockToString_returns (ht : t.WF) (hr : t.Readable) (hp : t.InGrid p) (hq : t.InGrid q) :
    Returns (t.blockToString p q) fun _ => True := by
  refine Returns.bind (P := fun _ => True) ?_ fun res _ => ?_
  · refine Returns.foldlM trivial fun res _ line hline => ?_
    rw [mem_lineRange] at hline
    refine (lineToString_returns ht hr (Int.le_trans hp.1 hline.1) ?_ hp.2.2 hq.2.2 _).bind
      fun text _ => .pure trivial
    have hbottom := hq.2.1
    omega
  · exact (lineToString_returns ht hr hq.1 hq.2.1 hp.2.2 hq.2.2 true).bind fun text _ => .pure trivial

end Term

namespace Selection
variable {s : Selection} {t : Term} {A B : Point}

/-- The range is one of cells of the grid, in order, and its text can be read. -/
structure InBounds (t : Term) (s : Selection) (r : SelectionRange) : Prop where
  ordered : r.start ≤ r.stop
  start : t.InGrid r.start
  stop : t.InGrid r.stop
  columns : s.ty = .block → r.start.column ≤ r.stop.column
  reads : t.Readable → { t with selection := some s }.selectionToString.isSome

/-- Of the columns of a block, fewer than none are left between its halves. -/
def BlockCrossed (start stop : Anchor) : Prop :=
  let left := if stop.point.column < start.point.column then stop else start
  let right := if stop.point.column < start.point.column then start else stop
  start.point.line ≠ stop.point.line ∧
    (left.point.column = right.point.column ∧
        (left.side = .right ∨ right.side = .left ∧ 0 < right.point.column) ∨
      left.point.column + 1 = right.point.column ∧ left.side = .right ∧ right.side = .left)

instance (start stop : Anchor) : Decidable (BlockCrossed start stop) :=
  inferInstanceAs (Decidable (_ ∧ _))

/-- Nothing but spacers are from a needle left of the start to the end, which is the end of its
line or is followed by a needle. -/
def SemanticCrossed (t : Term) (start stop : Point) : Prop :=
  ∃ j k, j < t.dims.index start ∧ t.dims.index stop < k ∧ k < t.dims.cells ∧
    t.Matches t.config.semanticEscapeChars j ∧
    (∀ m, j ≤ m → m < t.dims.index start → ¬ t.Breaks m) ∧
    (∀ m, j < m → m < k → t.IsSpacer m) ∧ ¬ t.IsSpacer k ∧
    (t.Matches t.config.semanticEscapeChars k ∨ ∃ m, t.dims.index stop ≤ m ∧ m < k ∧ t.Breaks m)

/-- The two ends of the selection pass each other. -/
def Crossed (t : Term) (s : Selection) : Prop :=
  t.topmostLine ≤ s.lower.point.line ∧
    match s.ty with
    | .simple | .lines => False
    | .block => ¬ s.isEmpty = true ∧
        BlockCrossed { s.upper with point := s.upper.point.gridClamp t.dims .grid }
          { s.lower with point := s.lower.point.gridClamp t.dims .grid }
    | .semantic =>
        (s.upper.point.gridClamp t.dims .grid = s.lower.point.gridClamp t.dims .grid →
          t.bracketSearch (s.upper.point.gridClamp t.dims .grid) = some none) ∧
        SemanticCrossed t (s.upper.point.gridClamp t.dims .grid)
          (s.lower.point.gridClamp t.dims .grid)

theorem clamp_le_clamp (ht : t.WF) (s : Selection) :
    s.upper.point.gridClamp t.dims .grid ≤ s.lower.point.gridClamp t.dims .grid := by
  have hle := s.not_lower_lt
  have htop := Int.le_trans (Term.topmostLine_le_zero ht.grid) (Term.bottommostLine_nonneg ht.grid)
  rw [Point.lt_def] at hle
  rw [Point.le_def]
  rcases gridClamp_cases t s.upper.point with ⟨hu, hA⟩ | ⟨hu, hu', hA⟩ | ⟨hu, hu', hA⟩
  · rw [hA]
    rcases gridClamp_cases t s.lower.point with ⟨hl, hB⟩ | ⟨hl, hl', hB⟩ | ⟨hl, hl', hB⟩
    · rw [hB]
      exact .inr ⟨rfl, Nat.le_refl _⟩
    · rw [hB]
      simp only
      omega
    · rw [hB]
      simp only
      omega
  · rcases gridClamp_cases t s.lower.point with ⟨hl, hB⟩ | ⟨hl, hl', hB⟩ | ⟨hl, hl', hB⟩
    · omega
    · rw [hA, hB]
      exact .inr ⟨rfl, Nat.le_refl _⟩
    · omega
  · rcases gridClamp_cases t s.lower.point with ⟨hl, hB⟩ | ⟨hl, hl', hB⟩ | ⟨hl, hl', hB⟩
    · omega
    · rw [hA, hB]
      simp only
      omega
    · rw [hA, hB]
      simp only
      omega

theorem simple_ordered (ht : t.WF) {U L : Anchor} (hU : t.InGrid U.point) (hL : t.InGrid L.point)
    (hle : U.point ≤ L.point) :
    t.InGrid (simpleStart U (simpleStop U L t.columns) t.columns) ∧
      t.InGrid (simpleStop U L t.columns) ∧
      simpleStart U (simpleStop U L t.columns) t.columns ≤ simpleStop U L t.columns := by
  have hcolumns : 2 ≤ t.columns := ht.two_le
  obtain ⟨hU₁, hU₂, hU₃⟩ := hU
  obtain ⟨hL₁, hL₂, hL₃⟩ := hL
  rw [Point.le_def] at hle
  have hstop : t.InGrid (simpleStop U L t.columns) ∧ U.point ≤ simpleStop U L t.columns := by
    rcases simpleStop_cases U L t.columns with ⟨-, hne, ⟨hzero, heq⟩ | ⟨hpos, heq⟩⟩ | ⟨-, heq⟩
    · rw [ne_eq, Point.eq_iff] at hne
      rw [heq, Point.le_def]
      refine ⟨⟨?_, ?_, ?_⟩, ?_⟩
      · simp only
        omega
      · simp only
        omega
      · simp only
        omega
      · simp only
        omega
    · rw [ne_eq, Point.eq_iff] at hne
      rw [heq, Point.le_def]
      refine ⟨⟨hL₁, hL₂, ?_⟩, ?_⟩
      · simp only
        omega
      · simp only
        omega
    · rw [heq, Point.le_def]
      exact ⟨⟨hL₁, hL₂, hL₃⟩, hle⟩
  generalize simpleStop U L t.columns = q at hstop
  obtain ⟨⟨hq₁, hq₂, hq₃⟩, hUq⟩ := hstop
  rw [Point.le_def] at hUq
  rcases simpleStart_cases U q t.columns with ⟨-, hne, ⟨hlast, heq⟩ | ⟨hlast, heq⟩⟩ | ⟨-, heq⟩
  · rw [ne_eq, Point.eq_iff] at hne
    rw [heq, Point.le_def]
    refine ⟨⟨?_, ?_, ?_⟩, ⟨hq₁, hq₂, hq₃⟩, ?_⟩
    · simp only
      omega
    · simp only
      omega
    · simp only
      omega
    · simp only
      omega
  · rw [ne_eq, Point.eq_iff] at hne
    rw [heq, Point.le_def]
    refine ⟨⟨hU₁, hU₂, ?_⟩, ⟨hq₁, hq₂, hq₃⟩, ?_⟩
    · simp only
      omega
    · simp only
      omega
  · rw [heq]
    exact ⟨⟨hU₁, hU₂, hU₃⟩, ⟨hq₁, hq₂, hq₃⟩, Point.le_def.mpr hUq⟩

theorem blockStop_cases (start stop : Anchor) :
    (blockStop start stop).line = stop.point.line ∧
      ((stop.side = .left ∧ start.point ≠ stop.point ∧ 0 < stop.point.column) ∧
          (blockStop start stop).column + 1 = stop.point.column ∨
        ¬ (stop.side = .left ∧ start.point ≠ stop.point ∧ 0 < stop.point.column) ∧
          (blockStop start stop).column = stop.point.column) := by
  unfold blockStop
  split
  · next h => exact ⟨rfl, .inl ⟨h, Nat.sub_add_cancel h.2.2⟩⟩
  · next h => exact ⟨rfl, .inr ⟨h, rfl⟩⟩

theorem blockStart_cases (start : Anchor) (stop : Point) :
    (blockStart start stop).line = start.point.line ∧
      ((start.side = .right ∧ start.point ≠ stop) ∧
          (blockStart start stop).column = start.point.column + 1 ∨
        ¬ (start.side = .right ∧ start.point ≠ stop) ∧
          (blockStart start stop).column = start.point.column) := by
  unfold blockStart
  split
  · next h => exact ⟨rfl, .inl ⟨h, rfl⟩⟩
  · next h => exact ⟨rfl, .inr ⟨h, rfl⟩⟩

/-- The columns of a block, from left to right, are in order unless its sides cross. -/
theorem block_columns_iff {start stop : Anchor} (hle : start.point.column ≤ stop.point.column) :
    (blockStart start (blockStop start stop)).column ≤ (blockStop start stop).column ↔
      ¬ (start.point.line ≠ stop.point.line ∧
        (start.point.column = stop.point.column ∧
            (start.side = .right ∨ stop.side = .left ∧ 0 < stop.point.column) ∨
          start.point.column + 1 = stop.point.column ∧ start.side = .right ∧ stop.side = .left)) := by
  obtain ⟨hline, hstop⟩ := blockStop_cases start stop
  obtain ⟨-, hstart⟩ := blockStart_cases start (blockStop start stop)
  rw [ne_eq, Point.eq_iff] at hstop hstart
  generalize blockStop start stop = q at *
  generalize (blockStart start q).column = column at *
  cases hstartSide : start.side with
  | left =>
      simp only [hstartSide, reduceCtorEq, false_and, not_false_eq_true, true_and, false_or,
        or_false, and_false] at hstart ⊢
      cases hstopSide : stop.side with
      | left =>
          simp only [hstopSide, true_and] at hstop ⊢
          omega
      | right =>
          simp only [hstopSide, reduceCtorEq, false_and, and_false, not_false_eq_true, true_and,
            false_or, iff_true] at hstop ⊢
          omega
  | right =>
      simp only [hstartSide, true_and, true_or, and_true, not_not] at hstart ⊢
      cases hstopSide : stop.side with
      | left =>
          simp only [hstopSide, true_and, and_true] at hstop ⊢
          omega
      | right =>
          simp only [hstopSide, reduceCtorEq, false_and, and_false, or_false, not_false_eq_true,
            true_and, false_or] at hstop ⊢
          omega

theorem block_ordered_iff {U L : Anchor} (hU : t.InGrid U.point) (hL : t.InGrid L.point)
    (hle : U.point ≤ L.point) (hempty : ¬ s.isEmpty = true) :
    ∃ r, s.rangeBlock U L = some r ∧
      ((t.InGrid r.start ∧ t.InGrid r.stop ∧ r.start ≤ r.stop ∧ r.start.column ≤ r.stop.column) ↔
        ¬ BlockCrossed U L) := by
  obtain ⟨hU₁, hU₂, hU₃⟩ := hU
  obtain ⟨hL₁, hL₂, hL₃⟩ := hL
  rw [Point.le_def] at hle
  have hordered {start stop : Anchor} (hline : start.point.line = U.point.line)
      (hline' : stop.point.line = L.point.line) (hlt : stop.point.column < t.columns)
      (hcolumns : start.point.column ≤ stop.point.column) :
      (t.InGrid (blockStart start (blockStop start stop)) ∧ t.InGrid (blockStop start stop) ∧
          blockStart start (blockStop start stop) ≤ blockStop start stop ∧
          (blockStart start (blockStop start stop)).column ≤ (blockStop start stop).column) ↔
        ¬ (start.point.line ≠ stop.point.line ∧
          (start.point.column = stop.point.column ∧
              (start.side = .right ∨ stop.side = .left ∧ 0 < stop.point.column) ∨
            start.point.column + 1 = stop.point.column ∧ start.side = .right ∧ stop.side = .left)) := by
    obtain ⟨hstop, hstop'⟩ := blockStop_cases start stop
    obtain ⟨hstart, -⟩ := blockStart_cases start (blockStop start stop)
    rw [← block_columns_iff hcolumns]
    refine ⟨fun h => h.2.2.2, fun h => ⟨⟨?_, ?_, ?_⟩, ⟨?_, ?_, ?_⟩, ?_, h⟩⟩
    · omega
    · omega
    · omega
    · omega
    · omega
    · omega
    · rw [Point.le_def]
      omega
  by_cases hswap : L.point.column < U.point.column
  · refine ⟨⟨blockStart ⟨⟨U.point.line, L.point.column⟩, L.side⟩
        (blockStop ⟨⟨U.point.line, L.point.column⟩, L.side⟩ ⟨⟨L.point.line, U.point.column⟩, U.side⟩),
      blockStop ⟨⟨U.point.line, L.point.column⟩, L.side⟩ ⟨⟨L.point.line, U.point.column⟩, U.side⟩,
      true⟩, ?_, ?_⟩
    · unfold rangeBlock
      rw [if_neg hempty, if_pos hswap]
    · simp only [BlockCrossed, hswap, if_true]
      exact hordered rfl rfl hU₃ (Nat.le_of_lt hswap)
  · refine ⟨⟨blockStart U (blockStop U L), blockStop U L, true⟩, ?_, ?_⟩
    · unfold rangeBlock
      rw [if_neg hempty, if_neg hswap]
    · simp only [BlockCrossed, hswap, if_false]
      exact hordered rfl rfl hL₃ (Nat.not_lt.mp hswap)

/-- The start of a semantic selection passes its end if only spacers are between them. -/
theorem semantic_crossed {i j a b : Nat} (hij : i ≤ j) (ha : t.BlockStart i a) (hb : t.BlockStop j b)
    (hlt : b < a) (hcells : a < t.dims.cells) :
    ∃ k, k < i ∧ j < a ∧ t.Matches t.config.semanticEscapeChars k ∧
      (∀ m, k ≤ m → m < i → ¬ t.Breaks m) ∧ (∀ m, k < m → m < a → t.IsSpacer m) ∧ ¬ t.IsSpacer a ∧
      (t.Matches t.config.semanticEscapeChars a ∨ ∃ m, j ≤ m ∧ m < a ∧ t.Breaks m) := by
  have hjb := hb.le
  cases ha with
  | line le => omega
  | spacers lt => omega
  | @after k _ lt found goes last gt cells spacers stop =>
      refine ⟨k, lt, by omega, found, goes, spacers, stop, ?_⟩
      cases hb with
      | line le lt' none goes' stop' =>
          rcases stop' with hend | hbreak
          · omega
          · exact .inr ⟨b, le, hlt, hbreak⟩
      | before le lt' found' none goes' =>
          refine .inl ?_
          by_cases heq : b + 1 = a
          · exact heq ▸ found'
          · exact absurd (spacers (b + 1) (by omega) (by omega)) (Term.not_isSpacer_of_matches found')

/-- Where only spacers are between a needle and the end, the start passes the end. -/
theorem semantic_passes {i j a b k s : Nat} (ha : t.BlockStart i a) (hb : t.BlockStop j b) (hij : i ≤ j)
    (hk : k < i) (hs : j < s) (hcells : s < t.dims.cells)
    (hfound : t.Matches t.config.semanticEscapeChars k) (hgoes : ∀ m, k ≤ m → m < i → ¬ t.Breaks m)
    (hspacers : ∀ m, k < m → m < s → t.IsSpacer m) (hstop : ¬ t.IsSpacer s)
    (hnext : t.Matches t.config.semanticEscapeChars s ∨ ∃ m, j ≤ m ∧ m < s ∧ t.Breaks m) : b < a := by
  have has : a = s := by
    cases ha with
    | line le none start =>
        rcases Nat.lt_or_ge k a with hka | hak
        · rcases start with hzero | hbreak
          · omega
          · exact absurd hbreak (hgoes (a - 1) (by omega) (by omega))
        · exact absurd hfound (none k hak hk).1
    | spacers lt all =>
        exact absurd (all s (by omega) hcells) hstop
    | @after k' _ lt found goes last gt cells spacers stop =>
        obtain rfl : k' = k := by
          rcases Nat.lt_trichotomy k' k with hlt | heq | hgt
          · exact absurd hfound (last k hlt hk)
          · exact heq
          · exact absurd (hspacers k' hgt (by omega)) (Term.not_isSpacer_of_matches found)
        rcases Nat.lt_trichotomy a s with hlt | heq | hgt
        · exact absurd (hspacers a gt hlt) stop
        · exact heq
        · exact absurd (spacers s (by omega) hgt) hstop
  subst has
  cases hb with
  | line le lt none goes stop =>
      by_contra hnot
      rcases hnext with hmatch | ⟨m, hjm, hma, hbreak⟩
      · exact none a hs (by omega) hmatch
      · exact goes m hjm (by omega) hbreak
  | before le lt found none goes =>
      by_contra hnot
      rcases hnext with hmatch | ⟨m, hjm, hma, hbreak⟩
      · exact none a hs (by omega) hmatch
      · exact goes m hjm (by omega) hbreak

/-- The ends of a semantic selection are in order unless nothing but spacers is between them. -/
theorem semantic_ordered_iff (ht : t.WF) (hA : t.InGrid A) (hB : t.InGrid B) (hle : A ≤ B) :
    Returns (rangeSemantic t A B) fun r =>
      (t.InGrid r.start ∧ t.InGrid r.stop ∧ r.start ≤ r.stop) ↔
        ¬ ((A = B → t.bracketSearch A = some none) ∧ SemanticCrossed t A B) := by
  have hvalid : t.dims.Valid := ht.grid.valid
  have hij := (Dimensions.index_le_iff hA hB).mpr hle
  have hi := Dimensions.index_lt hvalid hA
  have hj := Dimensions.index_lt hvalid hB
  have hsearch : Returns (do
      let start ← t.semanticSearchLeft A
      let stop ← t.semanticSearchRight B
      some (⟨start, stop, false⟩ : SelectionRange)) fun r =>
        (t.InGrid r.start ∧ t.InGrid r.stop ∧ r.start ≤ r.stop) ↔ ¬ SemanticCrossed t A B := by
    have hleft := Term.semanticSearchLeft_returns ht.grid hi
    have hright := Term.semanticSearchRight_returns ht.grid hj
    rw [Dimensions.point_index hA] at hleft
    rw [Dimensions.point_index hB] at hright
    refine hleft.bind fun start ⟨a, ha, hstart, hblock⟩ => ?_
    refine hright.bind fun stop ⟨b, hb, hstop, hblock'⟩ => .pure ?_
    rw [hstart, hstop]
    simp only [Dimensions.point_le_iff hvalid ha hb]
    rw [and_iff_right (show t.InGrid (t.dims.point a) from Dimensions.point_has hvalid ha),
      and_iff_right (show t.InGrid (t.dims.point b) from Dimensions.point_has hvalid hb), ← Nat.not_lt]
    refine not_congr ⟨fun hlt => ?_, ?_⟩
    · obtain ⟨k, hk, hja, hfound, hgoes, hspacers, hstop, hnext⟩ :=
        semantic_crossed hij hblock hblock' hlt ha
      exact ⟨k, a, hk, hja, ha, hfound, hgoes, hspacers, hstop, hnext⟩
    · rintro ⟨k, s, hk, hs, hcells, hfound, hgoes, hspacers, hstop, hnext⟩
      exact semantic_passes hblock hblock' hij hk hs hcells hfound hgoes hspacers hstop hnext
  unfold rangeSemantic
  by_cases heq : A = B
  · subst heq
    have hbracket := Term.bracketSearch_returns ht.grid hi
    rw [Dimensions.point_index hA] at hbracket
    obtain ⟨r, hr, hin⟩ := hbracket
    rw [if_pos rfl, hr]
    cases r with
    | none =>
        refine hsearch.mono fun r hr => hr.trans (not_congr ?_)
        exact (and_iff_right fun _ => rfl).symm
    | some q =>
        have hq := hin q rfl
        have hno : ¬ ((True → some (some q) = some none) ∧ SemanticCrossed t A A) :=
          fun h => nomatch h.1 trivial
        simp only [Option.bind_eq_bind, Option.bind_some]
        split
        · next hbefore =>
            refine .pure (iff_of_true ⟨hq, hA, ?_⟩ hno)
            rw [Point.le_def]
            simp only
            omega
        · next hafter =>
            refine .pure (iff_of_true ⟨hA, hq, ?_⟩ hno)
            rw [Point.le_def]
            simp only
            omega
  · rw [if_neg heq]
    simp only [Option.bind_eq_bind, Option.bind_some]
    refine hsearch.mono fun r hr => hr.trans (not_congr ?_)
    exact (and_iff_right fun heq' => absurd heq' heq).symm

theorem lines_ordered (ht : t.WF) (hA : t.InGrid A) (hB : t.InGrid B) (hle : A ≤ B) :
    Returns (rangeLines t A B) fun r => t.InGrid r.start ∧ t.InGrid r.stop ∧ r.start ≤ r.stop := by
  refine (Term.lineSearchLeft_returns ht hA).bind fun q hq => ?_
  refine (Term.lineSearchRight_returns ht hB).bind fun q' hq' => .pure ⟨hq.1, hq'.1, ?_⟩
  have hlast := hq'.2.2
  rw [Point.le_def] at hle ⊢
  simp only
  omega

theorem selectionToString_isSome (ht : t.WF) {r : SelectionRange} (hrange : s.toRange t = some (some r))
    (hstart : t.InGrid r.start) (hstop : t.InGrid r.stop) (hr : t.Readable) :
    { t with selection := some s }.selectionToString.isSome := by
  have hsame : s.toRange { t with selection := some s } = some (some r) := hrange
  have hwf : Term.WF { t with selection := some s } := { ht with }
  have hread : Term.Readable { t with selection := some s } := ⟨hr.first, hr.topmost⟩
  have hbounds : Returns (Term.boundsToString { t with selection := some s } r.start r.stop)
      fun _ => True := Term.boundsToString_returns hwf hread hstart hstop
  have hblock : Returns (Term.blockToString { t with selection := some s } r.start r.stop)
      fun _ => True := Term.blockToString_returns hwf hread hstart hstop
  unfold Term.selectionToString
  simp only [hsame, Option.bind_eq_bind, Option.bind_some]
  obtain ⟨text, htext, -⟩ := hbounds
  obtain ⟨text', htext', -⟩ := hblock
  cases s.ty with
  | simple => rw [htext]; rfl
  | semantic => rw [htext]; rfl
  | lines => rw [htext]; rfl
  | block => rw [htext']; rfl

theorem inBounds_iff (ht : t.WF) {r : SelectionRange} (hrange : s.toRange t = some (some r)) :
    (∀ r', some r = some r' → InBounds t s r') ↔ t.InGrid r.start ∧ t.InGrid r.stop ∧
      r.start ≤ r.stop ∧ (s.ty = .block → r.start.column ≤ r.stop.column) := by
  constructor
  · intro h
    obtain ⟨hordered, hstart, hstop, hcolumns, -⟩ := h r rfl
    exact ⟨hstart, hstop, hordered, hcolumns⟩
  · rintro ⟨hstart, hstop, hordered, hcolumns⟩ r' hr'
    obtain rfl := Option.some.inj hr'
    exact ⟨hordered, hstart, hstop, hcolumns, selectionToString_isSome ht hrange hstart hstop⟩

/-- When the range of a selection is one of cells of the grid, in order. -/
theorem toRange_inBounds_iff (ht : t.WF) (s : Selection) :
    Returns (s.toRange t) fun range => (∀ r, range = some r → InBounds t s r) ↔ ¬ Crossed t s := by
  have hA := Term.gridClamp_inGrid ht.grid s.upper.point
  have hB := Term.gridClamp_inGrid ht.grid s.lower.point
  have hle := clamp_le_clamp ht s
  by_cases habove : s.lower.point.line < t.topmostLine
  · have hnone : s.toRange t = some none := if_pos habove
    refine ⟨none, hnone, iff_of_true (fun r hr => nomatch hr) fun hc => ?_⟩
    exact absurd habove (Int.not_lt.mpr hc.1)
  · have hin := Int.not_lt.mp habove
    unfold Crossed
    rw [and_iff_right hin]
    cases hty : s.ty with
    | simple =>
        simp only [not_false_eq_true, iff_true]
        by_cases hempty : s.isEmpty = true
        · exact ⟨none, toRange_empty hty hempty, fun r hr => nomatch hr⟩
        · obtain ⟨_, _, q, r, hrange, rfl, rfl, rfl, rfl⟩ := toRange_simple hty hin hempty
          refine ⟨_, hrange, (inBounds_iff ht hrange).mpr ?_⟩
          have hordered := simple_ordered ht (U := ⟨_, s.upper.side⟩) (L := ⟨_, s.lower.side⟩) hA hB hle
          exact ⟨hordered.1, hordered.2.1, hordered.2.2, fun h => nomatch hty.symm.trans h⟩
    | block =>
        by_cases hempty : s.isEmpty = true
        · have hnone : s.toRange t = some none := by
            unfold toRange rangeBlock
            simp only [hty]
            rw [if_neg habove, if_pos hempty]
          exact ⟨none, hnone, iff_of_true (fun r hr => nomatch hr) fun hc => hc.1 hempty⟩
        · obtain ⟨r, hblock, hordered⟩ := block_ordered_iff
            (U := { s.upper with point := s.upper.point.gridClamp t.dims .grid })
            (L := { s.lower with point := s.lower.point.gridClamp t.dims .grid }) hA hB hle hempty
          have hrange : s.toRange t = some (some r) := by
            unfold toRange
            simp only [hty]
            rw [if_neg habove, hblock]
          refine ⟨some r, hrange, (inBounds_iff ht hrange).trans ?_⟩
          rw [hty, forall_prop_of_true rfl]
          exact hordered.trans (not_congr (and_iff_right hempty).symm)
    | semantic =>
        obtain ⟨r, hsemantic, hordered⟩ := semantic_ordered_iff ht hA hB hle
        have hrange : s.toRange t = some (some r) := by
          unfold toRange
          simp only [hty]
          rw [if_neg habove, hsemantic, Option.map_some]
        refine ⟨some r, hrange, (inBounds_iff ht hrange).trans ?_⟩
        rw [hty]
        simp only [reduceCtorEq, false_imp_iff, and_true]
        exact hordered
    | lines =>
        obtain ⟨r, hlines, hordered⟩ := lines_ordered ht hA hB hle
        have hrange : s.toRange t = some (some r) := by
          unfold toRange
          simp only [hty]
          rw [if_neg habove, hlines, Option.map_some]
        refine ⟨some r, hrange, iff_of_true ((inBounds_iff ht hrange).mpr ?_) not_false⟩
        exact ⟨hordered.1, hordered.2.1, hordered.2.2, fun h => nomatch hty.symm.trans h⟩

/-- A block over the left one of two columns is in order. -/
theorem toRange_inBounds_block : InBounds (Term.new .initial 2 2)
    ⟨.block, ⟨⟨0, 0⟩, .left⟩, ⟨⟨1, 0⟩, .right⟩⟩ ⟨⟨0, 0⟩, ⟨1, 0⟩, true⟩ :=
  ((toRange_inBounds_iff (t := Term.new .initial 2 2) (Term.new_wf .initial (by decide) (by decide))
    ⟨.block, ⟨⟨0, 0⟩, .left⟩, ⟨⟨1, 0⟩, .right⟩⟩).of_eq rfl).mpr
      (fun hc => absurd hc.2.2 (by decide)) _ rfl

/-- A block whose sides cross in a column ends left of its start, which can be right of the last
column. From the second half of a wide escape character, a word can start behind its end. -/
theorem toRange_crossed :
    (toRange ⟨.block, ⟨⟨0, 1⟩, .right⟩, ⟨⟨1, 1⟩, .left⟩⟩ (Term.new .initial 2 2) =
        some (some ⟨⟨0, 2⟩, ⟨1, 0⟩, true⟩) ∧
      ¬ InBounds (Term.new .initial 2 2) ⟨.block, ⟨⟨0, 1⟩, .right⟩, ⟨⟨1, 1⟩, .left⟩⟩
        ⟨⟨0, 2⟩, ⟨1, 0⟩, true⟩ ∧
      Term.selectionToString { Term.new .initial 2 2 with
        selection := some ⟨.block, ⟨⟨0, 1⟩, .right⟩, ⟨⟨1, 1⟩, .left⟩⟩ } = none) ∧
    ∃ t, Term.Reachable .fullwidth { Config.initial with semanticEscapeChars := ['漢', ' '] } 1 4 t ∧
      toRange ⟨.semantic, ⟨⟨0, 1⟩, .left⟩, ⟨⟨0, 1⟩, .left⟩⟩ t =
        some (some ⟨⟨0, 2⟩, ⟨0, 1⟩, false⟩) ∧
      ¬ InBounds t ⟨.semantic, ⟨⟨0, 1⟩, .left⟩, ⟨⟨0, 1⟩, .left⟩⟩ ⟨⟨0, 2⟩, ⟨0, 1⟩, false⟩ :=
  ⟨⟨rfl, fun h => absurd (h.columns rfl) (by decide), rfl⟩, _,
    .step .refl (a := .handler (.input '漢')) trivial rfl, rfl,
    fun h => absurd h.ordered (by decide)⟩

end Selection
end Velacritty
