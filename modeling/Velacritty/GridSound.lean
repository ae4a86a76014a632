import Velacritty.Grid
import Velacritty.StorageSound

/-! Scrolling, clearing and iterating stay inside of the storage and keep the grid
well formed. -/
namespace Velacritty
open Fallible

namespace Grid
variable {T : Type}

theorem historySize_eq (g : Grid T) : g.historySize = g.raw.len - g.lines := rfl

structure InScreen (lines columns : Nat) (p : Point) : Prop where
  line_nonneg : 0 ≤ p.line
  line_lt : p.line < lines
  column_lt : p.column < columns

structure WF (g : Grid T) : Prop where
  raw : g.raw.WF g.columns
  visible : g.raw.visibleLines = g.lines
  columns_pos : 1 ≤ g.columns
  history_le : g.raw.len ≤ g.lines + g.maxScrollLimit
  cursor : InScreen g.lines g.columns g.cursor.point
  savedCursor : InScreen g.lines g.columns g.savedCursor.point

theorem WF.lines_pos {g : Grid T} (h : g.WF) : 1 ≤ g.lines := h.visible ▸ h.raw.visible_pos

theorem WF.lines_le {g : Grid T} (h : g.WF) : g.lines ≤ g.raw.len := h.visible ▸ h.raw.visible_le

theorem WF.hasLine {g : Grid T} (h : g.WF) {line : Int} (hlo : g.dims.topmostLine ≤ line)
    (hhi : line < g.lines) : g.raw.HasLine line := by
  have hle := h.lines_le
  simp only [Dimensions.topmostLine, Dimensions.historySize, dims] at hlo
  simp only [Storage.HasLine, h.visible]
  omega

theorem WF.hasScreenLine {g : Grid T} (h : g.WF) {line : Int} (hlo : 0 ≤ line)
    (hhi : line < g.lines) : g.raw.HasLine line := by
  refine h.hasLine ?_ hhi
  simp only [Dimensions.topmostLine]
  omega

/-- A screen region, as the terminal passes it to the scrolling functions. -/
structure InRegion (lines : Nat) (start stop : Int) : Prop where
  start_nonneg : 0 ≤ start
  start_le : start ≤ stop
  stop_le : stop ≤ lines

/-- Only rows, the history size and the viewport position differ. -/
structure SameScreen (g g' : Grid T) : Prop where
  cursor : g'.cursor = g.cursor
  savedCursor : g'.savedCursor = g.savedCursor
  columns : g'.columns = g.columns
  lines : g'.lines = g.lines
  maxScrollLimit : g'.maxScrollLimit = g.maxScrollLimit
  autoScrollEnabled : g'.autoScrollEnabled = g.autoScrollEnabled

theorem SameScreen.refl (g : Grid T) : g.SameScreen g := ⟨rfl, rfl, rfl, rfl, rfl, rfl⟩

theorem SameScreen.trans {a b c : Grid T} (h : a.SameScreen b) (h' : b.SameScreen c) :
    a.SameScreen c :=
  ⟨h'.cursor.trans h.cursor, h'.savedCursor.trans h.savedCursor, h'.columns.trans h.columns,
    h'.lines.trans h.lines, h'.maxScrollLimit.trans h.maxScrollLimit,
    h'.autoScrollEnabled.trans h.autoScrollEnabled⟩

theorem WF.withRaw {g : Grid T} (h : g.WF) {raw : Storage T} {offset : Nat}
    (hraw : raw.WF g.columns) (hvis : raw.visibleLines = g.raw.visibleLines)
    (hlen : raw.len ≤ g.lines + g.maxScrollLimit) :
    WF { g with raw, displayOffset := offset } :=
  ⟨hraw, hvis.trans h.visible, h.columns_pos, hlen, h.cursor, h.savedCursor⟩

/-- What only the owner of a grid sets. -/
structure SameLimits (g g' : Grid T) : Prop where
  maxScrollLimit : g'.maxScrollLimit = g.maxScrollLimit
  autoScrollEnabled : g'.autoScrollEnabled = g.autoScrollEnabled

theorem SameLimits.trans {a b c : Grid T} (h : a.SameLimits b) (h' : b.SameLimits c) : a.SameLimits c :=
  ⟨h'.maxScrollLimit.trans h.maxScrollLimit, h'.autoScrollEnabled.trans h.autoScrollEnabled⟩

theorem SameScreen.limits {a b : Grid T} (h : a.SameScreen b) : a.SameLimits b :=
  ⟨h.maxScrollLimit, h.autoScrollEnabled⟩

/-- What scrolling may do to a grid: the rows change, the shape does not. -/
structure SameSize (g g' : Grid T) : Prop extends SameScreen g g' where
  wf : g'.WF
  len : g'.raw.len = g.raw.len
  displayOffset : g'.displayOffset = g.displayOffset

theorem SameSize.trans {a b c : Grid T} (h : a.SameSize b) (h' : b.SameSize c) : a.SameSize c :=
  ⟨h.toSameScreen.trans h'.toSameScreen, h'.wf, h'.len.trans h.len,
    h'.displayOffset.trans h.displayOffset⟩

theorem WF.sameSize {g : Grid T} (h : g.WF) {raw : Storage T} (hraw : raw.WF g.columns)
    (hvis : raw.visibleLines = g.raw.visibleLines) (hlen : raw.len = g.raw.len) :
    g.SameSize { g with raw } :=
  ⟨⟨rfl, rfl, rfl, rfl, rfl, rfl⟩, h.withRaw hraw hvis (hlen ▸ h.history_le), hlen, rfl⟩

variable {g : Grid T}

theorem updateHistory_returns (h : g.WF) (n : Nat) :
    Returns (g.updateHistory n) fun g' => g'.WF ∧ g'.lines = g.lines ∧ g'.columns = g.columns ∧
      g'.historySize = min g.historySize n ∧ g'.displayOffset = min g.displayOffset n ∧
      g'.maxScrollLimit = n ∧ g'.cursor = g.cursor ∧ g'.savedCursor = g.savedCursor := by
  have hle := h.lines_le
  have hvis := h.visible
  refine Returns.bind (P := fun raw : Storage T => raw.WF g.columns ∧
    raw.visibleLines = g.raw.visibleLines ∧ raw.len = g.lines + min g.historySize n) ?_
      fun raw hraw => .pure ?_
  · split
    · next hn =>
        simp only [historySize_eq] at hn ⊢
        refine (Storage.shrinkLines_returns h.raw (by omega)).mono fun raw hraw => ?_
        exact ⟨hraw.1, hraw.2.1, by omega⟩
    · next hn =>
        simp only [historySize_eq] at hn ⊢
        exact .pure ⟨h.raw, rfl, by omega⟩
  · obtain ⟨hwf, hv, hlen⟩ := hraw
    refine ⟨⟨hwf, hv.trans hvis, h.columns_pos, ?_, h.cursor, h.savedCursor⟩, rfl, rfl, ?_, rfl, rfl,
      rfl, rfl⟩
    · simp only
      omega
    · simp only [historySize_eq] at *
      omega

theorem decreaseScrollLimit_returns (h : g.WF) (count : Nat) :
    Returns (g.decreaseScrollLimit count) fun g' => g'.WF ∧ g.SameScreen g' ∧
      g'.historySize = g.historySize - count ∧
      (min count g.historySize = 0 ∧ g'.displayOffset = g.displayOffset ∨
        g'.displayOffset = min g.displayOffset (g.historySize - count)) := by
  have hle := h.lines_le
  have hmax := h.history_le
  have hvis := h.visible
  have hhist : g.historySize = g.raw.len - g.lines := g.historySize_eq
  unfold decreaseScrollLimit
  simp only [Option.bind_eq_bind]
  split
  · next hc =>
      refine (Storage.shrinkLines_returns h.raw (by omega)).bind fun raw hraw => .pure ?_
      obtain ⟨hwf, hv, hlen⟩ := hraw
      have hsize : raw.len - g.lines = g.historySize - count := by omega
      refine ⟨h.withRaw hwf hv (by omega), ⟨rfl, rfl, rfl, rfl, rfl, rfl⟩, hsize, .inr ?_⟩
      exact congrArg (min g.displayOffset) hsize
  · next hc =>
      rw [not_ne_iff] at hc
      exact .pure ⟨h, .refl g, by omega, .inl ⟨hc, rfl⟩⟩

theorem pinViewport_wf (h : g.WF) (positions : Nat) :
    (g.pinViewport positions).WF ∧ g.SameScreen (g.pinViewport positions) ∧
      (g.pinViewport positions).raw = g.raw := by
  unfold pinViewport
  split
  · exact ⟨h.withRaw h.raw rfl h.history_le, ⟨rfl, rfl, rfl, rfl, rfl, rfl⟩, rfl⟩
  · exact ⟨h, .refl g, rfl⟩

theorem cell_returns (h : g.WF) {line : Int} {column : Nat} (hlo : g.dims.topmostLine ≤ line)
    (hhi : line < g.lines) (hc : column < g.columns) {stop : Point} :
    Returns (GridIterator.cell ⟨g, ⟨line, column⟩, stop⟩) fun _ => True := by
  refine (Storage.get_returns h.raw (h.hasLine hlo hhi)).bind fun row hrow => ?_
  exact Row.get_returns (by rw [hrow.len_eq]; exact hc)

/-- One step back stays in the grid, and moves the point back in reading order. -/
theorem prev_returns (h : g.WF) {line : Int} {column : Nat} {stop : Point}
    (hlo : g.dims.topmostLine ≤ line) (hhi : line < g.lines) (hc : column ≤ g.columns) :
    Returns (GridIterator.prev ⟨g, ⟨line, column⟩, stop⟩) fun r =>
      r.1 = none ∧ r.2 = ⟨g, ⟨line, column⟩, stop⟩ ∨
      ∃ line' column' cell, r = (some (⟨line', column'⟩, cell), ⟨g, ⟨line', column'⟩, stop⟩) ∧
        g.dims.topmostLine ≤ line' ∧
        (line' = line ∧ column = column' + 1 ∨
          line' = line - 1 ∧ column = 0 ∧ column' + 1 = g.columns) := by
  have hpos := h.columns_pos
  unfold GridIterator.prev
  split
  · exact .pure (.inl ⟨rfl, rfl⟩)
  · next hend =>
      rw [Point.le_def] at hend
      simp only at hend
      by_cases h0 : column = 0
      · subst h0
        have hline : g.dims.topmostLine ≤ line - 1 := by omega
        have hlast : g.dims.lastColumn + 1 = g.columns := Nat.sub_add_cancel hpos
        refine Returns.bind (P := fun _ => True) ?_ fun cell _ =>
          .pure (.inr ⟨line - 1, g.dims.lastColumn, cell, rfl, hline, .inr ⟨rfl, rfl, hlast⟩⟩)
        exact cell_returns h hline (by omega) (Nat.le_of_eq hlast)
      · simp only [h0, if_false]
        refine Returns.bind (P := fun _ => True) ?_ fun cell _ =>
          .pure (.inr ⟨line, column - 1, cell, rfl, hlo, .inl ⟨rfl, by omega⟩⟩)
        exact cell_returns h hlo hhi (by omega)

theorem clearHistory_returns (h : g.WF) :
    Returns g.clearHistory fun g' => g'.WF ∧ g.SameScreen g' ∧ g'.raw.len = g.lines ∧
      g'.displayOffset = 0 := by
  have hle := h.lines_le
  have hvis := h.visible
  have hhist : g.historySize = g.raw.len - g.lines := g.historySize_eq
  refine (Storage.shrinkLines_returns h.raw (by omega)).bind fun raw hraw => .pure ?_
  obtain ⟨hwf, hv, hlen⟩ := hraw
  have hlines : raw.len = g.lines := by omega
  exact ⟨h.withRaw hwf hv (by omega), ⟨rfl, rfl, rfl, rfl, rfl, rfl⟩, hlines, rfl⟩

theorem modifyCell_returns (h : g.WF) {point : Point} (hlo : g.dims.topmostLine ≤ point.line)
    (hhi : point.line < g.lines) (hc : point.column < g.columns) (f : T → T) :
    Returns (g.modifyCell point f) g.SameSize := by
  refine (Storage.modify_returns h.raw (h.hasLine hlo hhi) fun r hr =>
    Row.modify_returns hr hc f).bind fun raw hraw => .pure ?_
  exact h.sameSize hraw.1 hraw.2.visibleLines hraw.2.len

variable [GridCell T]

theorem new_wf {lines columns : Nat} (hl : 1 ≤ lines) (hc : 1 ≤ columns) (max : Nat) :
    (new lines columns max : Grid T).WF where
  raw := Storage.withCapacity_wf hl
  visible := rfl
  columns_pos := hc
  history_le := Nat.le_add_right _ _
  cursor := ⟨Int.le_refl 0, Int.ofNat_lt.mpr hl, hc⟩
  savedCursor := ⟨Int.le_refl 0, Int.ofNat_lt.mpr hl, hc⟩

theorem increaseScrollLimit_returns (h : g.WF) (count : Nat) :
    Returns (g.increaseScrollLimit count) fun g' => g'.WF ∧ g.SameScreen g' ∧
      g'.raw.len = min (g.raw.len + count) (g.lines + g.maxScrollLimit) ∧
      g'.displayOffset = g.displayOffset := by
  have hle := h.lines_le
  have hmax := h.history_le
  have hhist : g.historySize = g.raw.len - g.lines := g.historySize_eq
  unfold increaseScrollLimit
  simp only [usub_of_le (show g.historySize ≤ g.maxScrollLimit by omega), Option.bind_eq_bind,
    Option.bind_some]
  split
  · refine (Storage.initializeRows_returns h.raw _).bind fun raw hraw => .pure ?_
    obtain ⟨hwf, hv, hlen⟩ := hraw
    exact ⟨h.withRaw hwf hv (by omega), ⟨rfl, rfl, rfl, rfl, rfl, rfl⟩, by simp only; omega, rfl⟩
  · exact .pure ⟨h, .refl g, by omega, rfl⟩

theorem resetLines_returns (h : g.WF) {lines : List Int} (hl : ∀ l ∈ lines, g.raw.HasLine l) :
    Returns (g.resetLines lines) g.SameSize := by
  refine (Storage.resetLines_returns h.raw h.columns_pos _ hl).bind fun raw hraw => .pure ?_
  exact h.sameSize hraw.1 hraw.2.visibleLines hraw.2.len

theorem resetScreenLines_returns (h : g.WF) {start stop : Int} (hstart : 0 ≤ start)
    (hstop : stop ≤ g.lines) : Returns (g.resetLines (lineRange start stop)) g.SameSize := by
  refine resetLines_returns h fun l hl => ?_
  rw [mem_lineRange] at hl
  exact h.hasScreenLine (by omega) (by omega)

theorem scrollDown_returns (h : g.WF) {start stop : Int} (hr : InRegion g.lines start stop)
    (positions : Nat) : Returns (g.scrollDown start stop positions) g.SameSize := by
  obtain ⟨hstart, hle, hstop⟩ := hr
  have hscreen : ∀ {raw : Storage T}, raw.len = g.raw.len → raw.visibleLines = g.raw.visibleLines →
      ∀ l : Int, 0 ≤ l → l < g.lines → raw.HasLine l := by
    intro raw hlen hvis l hlo hhi
    have := h.hasScreenLine hlo hhi
    simpa only [Storage.HasLine, hlen, hvis] using this
  unfold scrollDown
  split
  · exact resetScreenLines_returns h hstart hstop
  · next hsize =>
      split
      · refine (Storage.swapLines_returns h.raw fun l hl => ?_).bind fun a ha => ?_
        · rw [mem_lineRange] at hl
          exact ⟨hscreen rfl rfl _ (by omega) (by omega), hscreen rfl rfl _ (by omega) (by omega)⟩
        refine (Storage.rotateDown_returns ha.1 positions).bind fun b hb => ?_
        have hbl := hb.2.2.trans ha.2.len
        have hbv := hb.2.1.trans ha.2.visibleLines
        refine (Storage.resetLines_returns hb.1 h.columns_pos _ fun l hl => ?_).bind fun c hc => ?_
        · rw [mem_lineRange] at hl
          exact hscreen hbl hbv _ (by omega) (by omega)
        have hcl := hc.2.len.trans hbl
        have hcv := hc.2.visibleLines.trans hbv
        refine (Storage.swapLines_returns hc.1 fun l hl => ?_).bind fun d hd => .pure ?_
        · rw [mem_lineRange] at hl
          exact ⟨hscreen hcl hcv _ (by omega) (by omega), hscreen hcl hcv _ (by omega) (by omega)⟩
        exact h.sameSize hd.1 (hd.2.visibleLines.trans hcv) (hd.2.len.trans hcl)
      · refine (Storage.swapLines_returns h.raw fun l hl => ?_).bind fun a ha => ?_
        · rw [List.mem_reverse, mem_lineRange] at hl
          exact ⟨hscreen rfl rfl _ (by omega) (by omega), hscreen rfl rfl _ (by omega) (by omega)⟩
        refine (Storage.resetLines_returns ha.1 h.columns_pos _ fun l hl => ?_).bind
          fun b hb => .pure ?_
        · rw [List.mem_reverse, mem_lineRange] at hl
          exact hscreen ha.2.len ha.2.visibleLines _ (by omega) (by omega)
        exact h.sameSize hb.1 (hb.2.visibleLines.trans ha.2.visibleLines)
          (hb.2.len.trans ha.2.len)

theorem rotateRegionUp_returns (h : g.WF) {start stop : Int} (hr : InRegion g.lines start stop)
    {positions : Nat} (hp : (positions : Int) ≤ stop - start) :
    Returns (g.rotateRegionUp start stop positions) fun g' => g'.WF ∧ g.SameScreen g' ∧
      g'.raw.len = (if start = 0 then min (g.raw.len + positions) (g.lines + g.maxScrollLimit)
        else g.raw.len) ∧ g'.displayOffset = g.displayOffset := by
  obtain ⟨hstart, hle, hstop⟩ := hr
  have hlines := h.lines_le
  have hmax := h.history_le
  unfold rotateRegionUp
  split
  · next h0 =>
      refine (increaseScrollLimit_returns h positions).bind fun a ha => ?_
      obtain ⟨hwf, hsame, hlen, hoff⟩ := ha
      have hvis := hwf.visible
      have hinner := hwf.raw.len_le
      have hal := hsame.lines
      refine (Storage.swapLines_returns hwf.raw fun l hl => ?_).bind fun b hb => ?_
      · rw [List.mem_reverse, mem_lineRange] at hl
        omega
      refine (Storage.rotate_returns hb.1 (c := -(positions : Int)) ?_).bind fun c hc => ?_
      · have := hb.2.inner
        omega
      have hcl := hc.2.2.trans hb.2.len
      have hcv := hc.2.1.trans hb.2.visibleLines
      refine (Storage.swapLines_returns hc.1 fun l hl => ?_).bind fun d hd => .pure ?_
      · rw [List.mem_reverse, mem_lineRange] at hl
        simp only [Storage.HasLine, hcl, hcv]
        omega
      have hdl := hd.2.len.trans hcl
      refine ⟨hwf.withRaw hd.1 (hd.2.visibleLines.trans hcv) (hdl ▸ hwf.history_le),
        hsame.trans ⟨rfl, rfl, rfl, rfl, rfl, rfl⟩, hdl.trans hlen, hoff⟩
  · next h0 =>
      refine (Storage.swapLines_returns h.raw fun l hl => ?_).bind fun a ha => .pure ?_
      · rw [mem_lineRange] at hl
        exact ⟨h.hasScreenLine (by omega) (by omega), h.hasScreenLine (by omega) (by omega)⟩
      have hs := h.sameSize ha.1 ha.2.visibleLines ha.2.len
      exact ⟨hs.wf, hs.toSameScreen, hs.len, rfl⟩

/-- Scrolling a whole region with fixed lines above it only resets it. -/
def ScrollsAll (start stop : Int) (positions : Nat) : Prop := stop - start ≤ positions ∧ start ≠ 0

instance (start stop : Int) (positions : Nat) : Decidable (ScrollsAll start stop positions) :=
  inferInstanceAs (Decidable (_ ∧ _))

theorem scrollUp_returns (h : g.WF) {start stop : Int} (hr : InRegion g.lines start stop)
    {positions : Nat} (hp : start = 0 → (positions : Int) ≤ stop) :
    Returns (g.scrollUp start stop positions) fun g' => g'.WF ∧ g.SameScreen g' ∧
      g'.raw.len = (if start = 0 then min (g.raw.len + positions) (g.lines + g.maxScrollLimit)
        else g.raw.len) ∧
      g'.displayOffset = (if ScrollsAll start stop positions then g.displayOffset
        else (g.pinViewport positions).displayOffset) := by
  obtain ⟨hstart, hle, hstop⟩ := hr
  unfold scrollUp
  split
  · next hall =>
      rw [if_neg hall.2, if_pos (show ScrollsAll start stop positions from hall)]
      refine (resetScreenLines_returns h hstart hstop).mono fun g' hg' => ?_
      exact ⟨hg'.wf, hg'.toSameScreen, hg'.len, hg'.displayOffset⟩
  · next hall =>
      rw [if_neg (show ¬ ScrollsAll start stop positions from hall)]
      obtain ⟨hpin, hsame, hraw⟩ := pinViewport_wf h positions
      have hsize : (positions : Int) ≤ stop - start := by
        by_cases h0 : start = 0
        · have := hp h0
          omega
        · by_contra hlt
          exact hall ⟨by omega, h0⟩
      refine (rotateRegionUp_returns hpin (hsame.lines.symm ▸ ⟨hstart, hle, hstop⟩) hsize).bind
        fun a ha => ?_
      obtain ⟨hwf, hsame', hlen, hoff⟩ := ha
      have hal := (hsame.trans hsame').lines
      refine (resetScreenLines_returns hwf (by omega) (hal ▸ hstop)).mono fun g' hg' => ?_
      refine ⟨hg'.wf, (hsame.trans hsame').trans hg'.toSameScreen, ?_, hg'.displayOffset.trans hoff⟩
      rw [hg'.len, hlen, hraw, hsame.lines, hsame.maxScrollLimit]

/-- The search for the last used line ends on the screen or right above it. -/
theorem prevWhile_returns (h : g.WF) :
    Returns ((g.iterFrom ⟨(g.lines : Int) - 1, g.columns⟩).prevWhile
        (fun point cell => GridCell.isEmpty cell && decide (0 ≤ point.line))
        (g.lines * g.columns + 2))
      fun it => -1 ≤ it.point.line ∧ it.point.line < g.lines := by
  have hlines := h.lines_pos
  have hcols := h.columns_pos
  have htop : g.dims.topmostLine ≤ 0 := by
    simp only [Dimensions.topmostLine]
    omega
  refine loop_returns (fun it : GridIterator T => it.point.line.toNat * g.columns + it.point.column)
    (P := fun it : GridIterator T => it.grid = g ∧ 0 ≤ it.point.line ∧ it.point.line < g.lines ∧
      it.point.column ≤ g.columns) ?_ ?_ ?_
  · exact ⟨rfl, by simp only [iterFrom]; omega, by simp only [iterFrom]; omega, Nat.le_refl _⟩
  · have heq : ((g.lines : Int) - 1).toNat = g.lines - 1 := by omega
    have hmul : (g.lines - 1) * g.columns + g.columns = g.lines * g.columns := by
      rw [← Nat.succ_mul, Nat.succ_eq_add_one, Nat.sub_add_cancel hlines]
    simp only [iterFrom, heq, hmul]
    omega
  · rintro ⟨grid, ⟨line, column⟩, stop⟩ ⟨hgrid, hlo, hhi, hc⟩
    simp only at hgrid hlo hhi hc
    subst hgrid
    refine (prev_returns h (by omega) hhi hc).bind fun r hr => ?_
    rcases hr with ⟨hnone, hsame⟩ | ⟨line', column', cell, rfl, htop', hmove⟩
    · obtain ⟨item, it⟩ := r
      simp only at hnone hsame
      subst hnone hsame
      exact .pure ⟨by simp only; omega, hhi⟩
    · simp only
      split
      · next hskip =>
          rw [Bool.and_eq_true, decide_eq_true_eq] at hskip
          have hskip := hskip.2
          refine .pure ⟨⟨rfl, hskip, by simp only; omega, by simp only; omega⟩, ?_⟩
          rcases hmove with ⟨rfl, hcol⟩ | ⟨hline, hcol, hcol'⟩
          · simp only [hcol]
            omega
          · have hnat : line.toNat = line'.toNat + 1 := by omega
            simp only [hnat, Nat.succ_mul, hcol]
            omega
      · exact .pure ⟨by simp only; omega, by simp only; omega⟩

theorem clearViewport_returns (h : g.WF) :
    Returns g.clearViewport fun g' => g'.WF ∧ g.SameScreen g' ∧
      ∃ positions ≤ g.lines,
        g'.raw.len = min (g.raw.len + positions) (g.lines + g.maxScrollLimit) ∧
        g'.displayOffset = (g.pinViewport positions).displayOffset := by
  refine (prevWhile_returns h).bind fun it hit => ?_
  obtain ⟨hlo, hhi⟩ := hit
  rw [toUsize_of_nonneg (by omega), Option.bind_eq_bind, Option.bind_some]
  refine (scrollUp_returns h ⟨Int.le_refl 0, by omega, Int.le_refl _⟩ fun _ => by omega).bind
    fun a ha => ?_
  obtain ⟨hwf, hsame, hlen, hoff⟩ := ha
  rw [usub_of_le (by rw [hsame.lines]; omega), Option.bind_some]
  refine (resetScreenLines_returns hwf (Int.le_refl 0) (by omega)).mono fun g' hg' => ?_
  refine ⟨hg'.wf, hsame.trans hg'.toSameScreen, (it.point.line + 1).toNat, by omega, ?_, ?_⟩
  · rw [hg'.len, hlen, if_pos rfl]
  · rw [hg'.displayOffset, hoff, if_neg fun hall => hall.2 rfl]

theorem reset_returns (h : g.WF) :
    Returns g.reset fun g' => g'.WF ∧ g'.lines = g.lines ∧ g'.columns = g.columns ∧
      g.SameLimits g' ∧ g'.raw.len = g.lines ∧ g'.displayOffset = 0 ∧
      g'.cursor = defaultCursor ∧ g'.savedCursor = defaultCursor := by
  refine (clearHistory_returns h).bind fun a ha => ?_
  obtain ⟨hwf, hsame, hlen, hoff⟩ := ha
  have hhome : InScreen a.lines a.columns (defaultCursor : Cursor T).point :=
    ⟨Int.le_refl 0, Int.ofNat_lt.mpr hwf.lines_pos, hwf.columns_pos⟩
  have hcleared : WF { a with
      savedCursor := defaultCursor, cursor := defaultCursor, displayOffset := 0 } :=
    ⟨hwf.raw, hwf.visible, hwf.columns_pos, hwf.history_le, hhome, hhome⟩
  refine (resetLines_returns hcleared fun l hl => ?_).mono fun g' hg' => ?_
  · rw [mem_lineRange] at hl
    exact hcleared.hasLine hl.1 hl.2
  · exact ⟨hg'.wf, hg'.lines.trans hsame.lines, hg'.columns.trans hsame.columns,
      hsame.limits.trans ⟨hg'.maxScrollLimit, hg'.autoScrollEnabled⟩, hg'.len.trans hlen, hg'.displayOffset, hg'.cursor,
      hg'.savedCursor⟩

theorem resetRegion_returns (h : g.WF) {start stop : Int} (hstart : 0 ≤ start)
    (hlt : start < g.lines) (hstop : stop ≤ g.lines) :
    Returns (g.resetRegion start stop) g.SameSize := by
  unfold resetRegion
  rw [if_pos ⟨hlt, hstop⟩]
  exact resetScreenLines_returns h hstart hstop

end Grid
end Velacritty
