import Velacritty.MachineInts
import Velacritty.StorageLines

/-! What scrolling does to the lines of the screen and of the history. -/
namespace Velacritty
open Fallible

namespace Grid
variable {T : Type} [GridCell T] {g g' : Grid T} {start stop : Int} {positions : Nat}

/-- A line that was just reset. -/
def Cleared (g g' : Grid T) (line : Int) : Prop :=
  ∃ row, g'.raw.get line = some row ∧ row.Fresh g.cursor.template g.columns

/-- The lines after the region was scrolled up. What leaves it at the top of the screen is
in the history. -/
structure LinesUp (start stop : Int) (positions : Nat) (g g' : Grid T) : Prop where
  screen : g.SameScreen g'
  moved : ∀ l, start ≤ l → l < stop - positions → g'.raw.get l = g.raw.get (l + positions)
  cleared : ∀ l, start ≤ l → stop - positions ≤ l → l < stop → Cleared g g' l
  fixed : ∀ l : Int, 0 ≤ l → l < g.lines → l < start ∨ stop ≤ l → g'.raw.get l = g.raw.get l
  historySize : g'.historySize =
    if start = 0 then min (g.historySize + positions) g.maxScrollLimit else g.historySize
  history : ∀ l : Int, -(g'.historySize : Int) ≤ l → l < 0 →
    g'.raw.get l = g.raw.get (if start = 0 then l + positions else l)

theorem increaseScrollLimit_lines (h : g.WF) (count : Nat) :
    Allows (g.increaseScrollLimit count) fun g' => g'.WF ∧ g.SameScreen g' ∧
      g'.historySize = min (g.historySize + count) g.maxScrollLimit ∧
      ∀ l, g.raw.HasLine l → g'.raw.get l = g.raw.get l := by
  intro g' hg'
  obtain ⟨hwf, hsame, hlen, -⟩ := (increaseScrollLimit_returns h count).of_eq hg'
  have hlines := h.lines_le
  have hmax := h.history_le
  refine ⟨hwf, hsame, ?_, ?_⟩
  · simp only [historySize_eq, hlen, hsame.lines]
    omega
  · simp only [increaseScrollLimit, Option.bind_eq_bind, Option.bind_eq_some_iff] at hg'
    obtain ⟨room, -, hg'⟩ := hg'
    split at hg'
    · simp only [Option.bind_eq_some_iff, Option.some.injEq] at hg'
      obtain ⟨raw, hraw, rfl⟩ := hg'
      exact (Storage.initializeRows_get h.raw hraw).2.2.2
    · cases hg'
      exact fun l _ => rfl

theorem resetLines_lines (h : g.WF) (lines : List Int) :
    Allows (g.resetLines lines) fun g' => g'.WF ∧ g.SameScreen g' ∧ g'.historySize = g.historySize ∧
      (∀ l ∈ lines, Cleared g g' l) ∧ ∀ l, l ∉ lines → g'.raw.get l = g.raw.get l := by
  intro g' hg'
  simp only [resetLines, Option.bind_eq_bind, Option.bind_eq_some_iff, Option.some.injEq] at hg'
  obtain ⟨raw, hraw, rfl⟩ := hg'
  obtain ⟨hwf, hshape, hreset, hkept⟩ := Storage.resetLines_get h.raw h.columns_pos raw hraw
  have hsize := h.sameSize hwf hshape.visibleLines hshape.len
  refine ⟨hsize.wf, hsize.toSameScreen, ?_, hreset, hkept⟩
  simp only [historySize_eq, hshape.len]

/-- The lines above the end of the region go up by rotating all lines; those below it are
put back. -/
theorem rotateRegionUp_top_lines (h : g.WF) (hpos : 0 ≤ stop) (hstop : stop ≤ g.lines) :
    Allows (g.rotateRegionUp 0 stop positions) fun a => a.WF ∧ g.SameScreen a ∧
      a.historySize = min (g.historySize + positions) g.maxScrollLimit ∧
      (∀ l, -(a.historySize : Int) ≤ l → l < stop - positions →
        a.raw.get l = g.raw.get (l + positions)) ∧
      ∀ l, stop ≤ l → l < g.lines → a.raw.get l = g.raw.get l := by
  intro a ha
  simp only [rotateRegionUp, if_true, Option.bind_eq_bind, Option.bind_eq_some_iff,
    Option.some.injEq] at ha
  obtain ⟨b, hb, c, hc, d, hd, e, he, rfl⟩ := ha
  obtain ⟨hwf, hsame, hsize, hgrown⟩ := increaseScrollLimit_lines h positions b hb
  rw [lineRange_eq_nil (Int.le_refl 0)] at hc
  cases hc
  obtain ⟨hdwf, hdvis, hdlen, hup⟩ := Storage.rotate_get hwf.raw hd
  obtain ⟨hewf, hshape, hchain, hexist⟩ := Storage.swapLines_get hdwf e he
  have hlines := h.lines_le
  have hblines := hwf.lines_le
  have hvis := hwf.visible
  have hgvis := h.visible
  have hsize' : historySize { b with raw := e } = b.historySize := by
    simp only [historySize_eq, hshape.len, hdlen]
  have hbhist : b.historySize = b.raw.len - b.lines := b.historySize_eq
  have hghist : g.historySize = g.raw.len - g.lines := g.historySize_eq
  have hsamelines := hsame.lines
  refine ⟨hwf.withRaw hewf (hshape.visibleLines.trans hdvis) ?_, hsame.trans ⟨rfl, rfl, rfl, rfl, rfl, rfl⟩,
    hsize'.trans hsize, fun l hlo hhi => ?_, fun l hlo hhi => ?_⟩
  · rw [hshape.len, hdlen]
    exact hwf.history_le
  · rw [hsize'] at hlo
    have hother : e.get l = d.get l := by
      rw [hchain]
      refine Swaps.chain_map_other _ fun i hi => ?_
      rw [List.mem_reverse, mem_lineRange] at hi
      exact ⟨by omega, by omega⟩
    have hline : b.raw.HasLine l := by
      simp only [Storage.HasLine]
      omega
    have hold : g.raw.HasLine (l + positions) := by
      simp only [Storage.HasLine]
      omega
    simp only
    rw [hother, hup l hline (by omega), hgrown _ hold]
  · have hmem : l ∈ (lineRange stop b.lines).reverse := by
      rw [List.mem_reverse, mem_lineRange]
      omega
    have htarget : e.get l = d.get (l + -(positions : Int)) := by
      rw [hchain]
      refine Swaps.chain_map_target ?_ _ hmem
      refine Swaps.ordered_map (List.pairwise_reverse.mpr (pairwise_lineRange _ _)) fun j k hjk => ?_
      exact ⟨by omega, by omega, by omega⟩
    have hline : b.raw.HasLine (l + -(positions : Int)) := by
      have hline := (hexist l hmem).2
      simpa only [Storage.HasLine, hdvis, hdlen] using hline
    have hold : g.raw.HasLine l := by
      simp only [Storage.HasLine]
      omega
    simp only
    rw [htarget, hup _ hline (by omega), Int.neg_add_cancel_right, hgrown l hold]

/-- Scrolling from the top of the screen: all lines above the end of the region go up, also
those of the history. -/
theorem scrollUp_top_lines (h : g.WF) (hpos : 0 ≤ stop) (hstop : stop ≤ g.lines) :
    Allows (g.scrollUp 0 stop positions) fun g' => g.SameScreen g' ∧
      g'.historySize = min (g.historySize + positions) g.maxScrollLimit ∧
      (∀ l, -(g'.historySize : Int) ≤ l → l < stop - positions →
        g'.raw.get l = g.raw.get (l + positions)) ∧
      (∀ l, stop - positions ≤ l → l < stop → Cleared g g' l) ∧
      ∀ l, stop ≤ l → l < g.lines → g'.raw.get l = g.raw.get l := by
  obtain ⟨hpin, hsame, hraw⟩ := pinViewport_wf h positions
  have hsize : (g.pinViewport positions).historySize = g.historySize := by
    simp only [historySize_eq, hraw, hsame.lines]
  unfold scrollUp
  rw [if_neg fun hall => hall.2 rfl]
  refine (rotateRegionUp_top_lines hpin hpos (hsame.lines.symm ▸ hstop)).bind fun a ha => ?_
  obtain ⟨hwf, hsame', hsize', hmoved, hfixed⟩ := ha
  rw [hraw] at hmoved hfixed
  rw [hsize, hsame.maxScrollLimit] at hsize'
  rw [hsame.lines] at hfixed
  refine (resetLines_lines hwf _).mono fun g' hg' => ?_
  obtain ⟨-, hsame'', hsize'', hreset, hkept⟩ := hg'
  have hscreen := (hsame.trans hsame').trans hsame''
  refine ⟨hscreen, hsize''.trans hsize', fun l hlo hhi => ?_, fun l hlo hhi => ?_, fun l hlo hhi => ?_⟩
  · rw [hkept l fun hmem => ?_, hmoved l (hsize'' ▸ hlo) hhi]
    rw [mem_lineRange] at hmem
    omega
  · obtain ⟨row, hrow, hfresh⟩ := hreset l (mem_lineRange.mpr ⟨hlo, hhi⟩)
    rw [(hsame.trans hsame').cursor, (hsame.trans hsame').columns] at hfresh
    exact ⟨row, hrow, hfresh⟩
  · rw [hkept l fun hmem => ?_, hfixed l hlo hhi]
    rw [mem_lineRange] at hmem
    omega

/-- Scrolling a region with fixed lines above it: only lines of the region change. -/
theorem scrollUp_region_lines (h : g.WF) (hr : InRegion g.lines start stop) (hne : start ≠ 0) :
    Allows (g.scrollUp start stop positions) fun g' => LinesUp start stop positions g g' ∧
      ∀ l, l < start ∨ stop ≤ l → g'.raw.get l = g.raw.get l := by
  obtain ⟨hstart, hle, hstop⟩ := hr
  unfold scrollUp
  split
  · next hall =>
      refine (resetLines_lines h _).mono fun g' hg' => ?_
      obtain ⟨-, hsame, hsize, hreset, hkept⟩ := hg'
      have hkept' : ∀ l, l < start ∨ stop ≤ l → g'.raw.get l = g.raw.get l := by
        intro l hl
        refine hkept l fun hmem => ?_
        rw [mem_lineRange] at hmem
        omega
      refine ⟨⟨hsame, fun l hlo hhi => ?_, fun l hlo _ hhi => hreset l (mem_lineRange.mpr ⟨hlo, hhi⟩),
        fun l _ _ hl => hkept' l hl, ?_, fun l _ hneg => ?_⟩, hkept'⟩
      · omega
      · rw [if_neg hne]
        exact hsize
      · rw [if_neg hne]
        exact hkept' l (.inl (by omega))
  · next hall =>
      have hsize : (positions : Int) < stop - start := by
        by_contra hlt
        exact hall ⟨by omega, hne⟩
      obtain ⟨hpin, hsame, hraw⟩ := pinViewport_wf h positions
      intro g' hg'
      simp only [rotateRegionUp, if_neg hne, Option.bind_eq_bind, Option.bind_eq_some_iff,
        Option.some.injEq] at hg'
      obtain ⟨b, ⟨c, hc, rfl⟩, hg'⟩ := hg'
      obtain ⟨hcwf, hshape, hchain, -⟩ := Storage.swapLines_get hpin.raw c hc
      have hbsize := hpin.sameSize hcwf hshape.visibleLines hshape.len
      obtain ⟨-, hsame', hsize', hreset, hkept⟩ := resetLines_lines hbsize.wf _ g' hg'
      have hscreen := (hsame.trans hbsize.toSameScreen).trans hsame'
      have hhist : g'.historySize = g.historySize := by
        refine hsize'.trans ?_
        simp only [historySize_eq, hshape.len, hraw, hsame.lines]
      rw [hraw] at hchain
      have hother : ∀ l, l < start ∨ stop ≤ l → g'.raw.get l = g.raw.get l := by
        intro l hl
        have hmem : l ∉ lineRange (stop - positions) stop := by
          rw [mem_lineRange]
          omega
        refine (hkept l hmem).trans ((congrFun hchain l).trans (Swaps.chain_map_other _ fun i hi => ?_))
        rw [mem_lineRange] at hi
        exact ⟨by omega, by omega⟩
      refine ⟨⟨hscreen, fun l hlo hhi => ?_, fun l _ hlo hhi => ?_, fun l _ _ hl => hother l hl, ?_,
        fun l _ hneg => ?_⟩, hother⟩
      · have hmem : l ∉ lineRange (stop - positions) stop := by
          rw [mem_lineRange]
          omega
        refine (hkept l hmem).trans ((congrFun hchain l).trans ?_)
        refine Swaps.chain_map_target ?_ _ (mem_lineRange.mpr ⟨hlo, hhi⟩)
        refine Swaps.ordered_map (pairwise_lineRange _ _) fun j k hjk => ?_
        exact ⟨by omega, by omega, by omega⟩
      · obtain ⟨row, hrow, hfresh⟩ := hreset l (mem_lineRange.mpr ⟨hlo, hhi⟩)
        simp only [hsame.cursor, hsame.columns] at hfresh
        exact ⟨row, hrow, hfresh⟩
      · rw [if_neg hne]
        exact hhist
      · rw [if_neg hne]
        exact hother l (.inl (by omega))

/-- Scrolling up by at most the size of the region moves its lines up, into the history if
the region starts at the top, and clears the lines that come in. -/
theorem scrollUp_lines (h : g.WF) (hr : InRegion g.lines start stop)
    (hp : (positions : Int) ≤ stop - start) :
    Returns (g.scrollUp start stop positions) (LinesUp start stop positions g) := by
  obtain ⟨g', hg', -⟩ : Returns (g.scrollUp start stop positions) _ :=
    scrollUp_returns h hr fun h0 => by omega
  refine ⟨g', hg', ?_⟩
  by_cases hne : start = 0
  · subst hne
    obtain ⟨hsame, hsize, hmoved, hcleared, hfixed⟩ :=
      scrollUp_top_lines h hr.start_le hr.stop_le g' hg'
    refine ⟨hsame, fun l hlo hhi => hmoved l ?_ hhi, fun l _ => hcleared l, fun l hlo hhi hl => ?_, ?_,
      fun l hlo hneg => ?_⟩
    · omega
    · exact hfixed l (hl.resolve_left (by omega)) hhi
    · rw [if_pos rfl]
      exact hsize
    · rw [if_pos rfl]
      exact hmoved l hlo (by omega)
  · exact (scrollUp_region_lines h hr hne g' hg').1

/-- Scrolling up a screen of two lines. -/
theorem scrollUp_lines_top : Returns ((new 2 2 5 : Grid Cell).scrollUp 0 2 1) fun g' =>
    g'.historySize = 1 ∧ g'.raw.get (-1) = (new 2 2 5 : Grid Cell).raw.get 0 := by
  refine (scrollUp_lines (new_wf (by decide) (by decide) 5) ⟨by decide, by decide, by decide⟩
    (by decide)).mono fun g' hg' => ?_
  have hsize : g'.historySize = 1 := hg'.historySize
  exact ⟨hsize, hg'.history (-1) (by rw [hsize]; decide) (by decide)⟩

/-! ### Scrolling down -/

/-- The lines after the region was scrolled down. -/
structure LinesDown (start stop : Int) (positions : Nat) (g g' : Grid T) : Prop where
  lines : g'.lines = g.lines
  columns : g'.columns = g.columns
  moved : ∀ l, start + positions ≤ l → l < stop → g'.raw.get l = g.raw.get (l - positions)
  cleared : ∀ l, start ≤ l → l < min (start + positions) stop → Cleared g g' l
  fixed : ∀ l : Int, 0 ≤ l → l < g.lines → l < start ∨ stop ≤ l → g'.raw.get l = g.raw.get l
  historySize : g'.historySize = g.historySize
  history : ∀ l : Int, l < 0 → g'.raw.get l = g.raw.get l

theorem scrollDown_reset_lines (h : g.WF) (hr : InRegion g.lines start stop)
    (hall : stop - start ≤ positions) :
    Allows (g.scrollDown start stop positions) (LinesDown start stop positions g) := by
  obtain ⟨hstart, hle, hstop⟩ := hr
  unfold scrollDown
  rw [if_pos hall]
  refine (resetLines_lines h _).mono fun g' hg' => ?_
  obtain ⟨-, hsame, hsize, hreset, hkept⟩ := hg'
  have hkept' : ∀ l, l < start ∨ stop ≤ l → g'.raw.get l = g.raw.get l := by
    intro l hl
    refine hkept l fun hmem => ?_
    rw [mem_lineRange] at hmem
    omega
  refine ⟨hsame.lines, hsame.columns, fun l hlo hhi => ?_, fun l hlo hhi => ?_, fun l _ _ hl => hkept' l hl,
    hsize, fun l hneg => hkept' l (.inl (by omega))⟩
  · omega
  · exact hreset l (mem_lineRange.mpr ⟨hlo, by omega⟩)

theorem scrollDown_swap_lines (h : g.WF) (hr : InRegion g.lines start stop)
    (hsize : (positions : Int) < stop - start) (hlimit : g.maxScrollLimit ≠ 0) :
    Allows (g.scrollDown start stop positions) (LinesDown start stop positions g) := by
  obtain ⟨hstart, hle, hstop⟩ := hr
  intro g' hg'
  simp only [scrollDown, if_neg (show ¬ stop - start ≤ positions by omega), if_neg hlimit,
    Option.bind_eq_bind, Option.bind_eq_some_iff, Option.some.injEq] at hg'
  obtain ⟨a, ha, b, hb, rfl⟩ := hg'
  obtain ⟨hawf, hshape, hchain, -⟩ := Storage.swapLines_get h.raw a ha
  obtain ⟨hbwf, hshape', hreset, hkept⟩ := Storage.resetLines_get hawf h.columns_pos b hb
  have hother : ∀ l, l < start ∨ stop ≤ l → b.get l = g.raw.get l := by
    intro l hl
    have hmem : l ∉ (lineRange start (start + positions)).reverse := by
      rw [List.mem_reverse, mem_lineRange]
      omega
    refine (hkept l hmem).trans ((congrFun hchain l).trans (Swaps.chain_map_other _ fun i hi => ?_))
    rw [List.mem_reverse, mem_lineRange] at hi
    exact ⟨by omega, by omega⟩
  refine ⟨rfl, rfl, fun l hlo hhi => ?_, fun l hlo hhi => ?_, fun l _ _ hl => hother l hl, ?_,
    fun l hneg => hother l (.inl (by omega))⟩
  · have hmem : l ∉ (lineRange start (start + positions)).reverse := by
      rw [List.mem_reverse, mem_lineRange]
      omega
    refine (hkept l hmem).trans ((congrFun hchain l).trans ?_)
    refine Swaps.chain_map_target ?_ _ ?_
    · refine Swaps.ordered_map (List.pairwise_reverse.mpr (pairwise_lineRange _ _)) fun j k hjk => ?_
      exact ⟨by omega, by omega, by omega⟩
    · rw [List.mem_reverse, mem_lineRange]
      exact ⟨hlo, hhi⟩
  · refine hreset l ?_
    rw [List.mem_reverse, mem_lineRange]
    omega
  · simp only [historySize_eq, hshape'.len, hshape.len]

/-- Without a history all lines are rotated, and the lines outside of the region are put
back: those below it before the rotation, those above it after. -/
theorem scrollDown_rotate_lines (h : g.WF) (hr : InRegion g.lines start stop)
    (hsize : (positions : Int) < stop - start) (hlimit : g.maxScrollLimit = 0) :
    Allows (g.scrollDown start stop positions) (LinesDown start stop positions g) := by
  obtain ⟨hstart, hle, hstop⟩ := hr
  intro g' hg'
  simp only [scrollDown, if_neg (show ¬ stop - start ≤ positions by omega), if_pos hlimit,
    Option.bind_eq_bind, Option.bind_eq_some_iff, Option.some.injEq] at hg'
  obtain ⟨a, ha, b, hb, c, hc, d, hd, rfl⟩ := hg'
  obtain ⟨hawf, hshape, hchain, -⟩ := Storage.swapLines_get h.raw a ha
  obtain ⟨hbwf, hbvis, hblen, hdown⟩ := Storage.rotateDown_get hawf hb
  obtain ⟨hcwf, hshape', hreset, hkept⟩ := Storage.resetLines_get hbwf h.columns_pos c hc
  obtain ⟨hdwf, hshape'', hchain', -⟩ := Storage.swapLines_get hcwf d hd
  have hvis := h.visible
  have hlen : g.raw.len = g.lines := by
    have hlines := h.lines_le
    have hmax := h.history_le
    omega
  have hhas : ∀ l : Int, a.HasLine l ↔ 0 ≤ l ∧ l < g.lines := by
    intro l
    simp only [Storage.HasLine, hshape.visibleLines, hshape.len]
    omega
  have hgone : ∀ l : Int, l < 0 → d.get l = g.raw.get l := by
    intro l hneg
    rw [Storage.get_eq_none, Storage.get_eq_none]
    · simp only [Storage.HasLine]
      omega
    · simp only [Storage.HasLine, hshape''.visibleLines, hshape''.len, hshape'.visibleLines,
        hshape'.len, hbvis, hblen, hshape.visibleLines, hshape.len]
      omega
  -- The lines below the region are `positions` lines further up in between.
  have hbelow : ∀ l, stop ≤ l → l < g.lines → a.get (l - positions) = g.raw.get l := by
    intro l hlo hhi
    have hback : a.get = Swaps.chain g.raw.get
        ((lineRange stop g.lines).map fun l => (l + -(positions : Int), l)) := by
      rw [hchain, ← Swaps.chain_map_swap, List.map_map]
      rfl
    rw [hback, Int.sub_eq_add_neg]
    refine Swaps.chain_map_target ?_ _ ?_
    · refine Swaps.ordered_map (pairwise_lineRange _ _) fun j k hjk => ?_
      exact ⟨by omega, by omega, by omega⟩
    · exact mem_lineRange.mpr ⟨hlo, hhi⟩
  have habove : ∀ l, l < stop - positions → a.get l = g.raw.get l := by
    intro l hl
    refine (congrFun hchain l).trans (Swaps.chain_map_other _ fun i hi => ?_)
    rw [mem_lineRange] at hi
    exact ⟨by omega, by omega⟩
  have hrotated : ∀ l : Int, positions ≤ l → l < g.lines →
      c.get l = g.raw.get (if stop ≤ l then l else l - positions) := by
    intro l hlo hhi
    have hmem : l ∉ lineRange 0 positions := by
      rw [mem_lineRange]
      omega
    rw [hkept l hmem, hdown l ((hhas l).mpr ⟨by omega, hhi⟩)
      ((hhas _).mpr ⟨by omega, by omega⟩)]
    split
    · next hle => exact hbelow l hle hhi
    · exact habove _ (by omega)
  have houtside : ∀ l, start + positions ≤ l → d.get l = c.get l := by
    intro l hl
    refine (congrFun hchain' l).trans (Swaps.chain_map_other _ fun i hi => ?_)
    rw [mem_lineRange] at hi
    exact ⟨by omega, by omega⟩
  have hordered : Swaps.Ordered ((lineRange 0 start).map fun l => (l, l + (positions : Int))) := by
    refine Swaps.ordered_map (pairwise_lineRange _ _) fun j k hjk => ?_
    exact ⟨by omega, by omega, by omega⟩
  refine ⟨rfl, rfl, fun l hlo hhi => ?_, fun l hlo hhi => ?_, fun l hlo hhi hl => ?_, ?_, hgone⟩
  · rw [houtside l hlo, hrotated l (by omega) (by omega), if_neg (by omega)]
  · rw [Cleared, hchain']
    refine Swaps.chain_rest (P := fun row : Option (Row T) => ∃ r, row = some r ∧
      r.Fresh g.cursor.template g.columns) hordered (D := fun l => 0 ≤ l ∧ l < start + positions) _ (fun p hp => ?_)
      (fun x hx hne => hreset x ?_) l ⟨by omega, by omega⟩ fun p hp => ?_
    · obtain ⟨i, hi, rfl⟩ := List.mem_map.mp hp
      rw [mem_lineRange] at hi
      exact ⟨⟨by simp only; omega, by simp only; omega⟩, by simp only; omega, by simp only; omega⟩
    · rw [mem_lineRange]
      by_contra hlt
      refine hne (x - positions, x) (List.mem_map.mpr ⟨x - positions, ?_, ?_⟩) rfl
      · rw [mem_lineRange]
        omega
      · rw [Int.sub_add_cancel]
    · obtain ⟨i, hi, rfl⟩ := List.mem_map.mp hp
      rw [mem_lineRange] at hi
      simp only
      omega
  · rcases hl with hl | hl
    · have htarget : d.get l = c.get (l + positions) := by
        rw [hchain']
        exact Swaps.chain_map_target hordered _ (mem_lineRange.mpr ⟨hlo, hl⟩)
      rw [htarget, hrotated _ (by omega) (by omega), if_neg (by omega), Int.add_sub_cancel]
    · rw [houtside l (by omega), hrotated l (by omega) hhi, if_pos hl]
  · simp only [historySize_eq, hshape''.len, hshape'.len, hblen, hshape.len]

theorem scrollDown_lines (h : g.WF) (hr : InRegion g.lines start stop) (positions limit : Nat)
    (hlimit : g.historySize ≤ limit) :
    Returns ({ g with maxScrollLimit := limit }.scrollDown start stop positions)
      (LinesDown start stop positions g) := by
  have hsize : g.historySize = g.raw.len - g.lines := g.historySize_eq
  have hwf : WF { g with maxScrollLimit := limit } :=
    ⟨h.raw, h.visible, h.columns_pos, by simp only; omega, h.cursor, h.savedCursor⟩
  have hdown : Allows ({ g with maxScrollLimit := limit }.scrollDown start stop positions)
      (LinesDown start stop positions { g with maxScrollLimit := limit }) := by
    by_cases hall : stop - start ≤ positions
    · exact scrollDown_reset_lines hwf hr hall
    · by_cases hzero : limit = 0
      · exact scrollDown_rotate_lines hwf hr (by omega) hzero
      · exact scrollDown_swap_lines hwf hr (by omega) hzero
  obtain ⟨g', hg', -⟩ := scrollDown_returns hwf hr positions
  obtain ⟨hlines, hcolumns, hmoved, hcleared, hfixed, hsize', hhistory⟩ := hdown g' hg'
  exact ⟨g', hg', hlines, hcolumns, hmoved, hcleared, hfixed, hsize', hhistory⟩

/-- `scroll_down` with its casts: compared with or added to a line, the positions are an
`i32`. -/
def scrollDownCast (g : Grid T) (start stop : Int) (positions : Nat) : Option (Grid T) :=
  if stop - start ≤ i32 positions then g.resetLines (lineRange start stop)
  else if g.maxScrollLimit = 0 then do
    let raw ← g.raw.swapLines (-i32 positions) (lineRange stop g.lines)
    let raw ← raw.rotateDown positions
    let raw ← raw.resetLines g.cursor.template (lineRange 0 positions)
    let raw ← raw.swapLines (i32 positions) (lineRange 0 start)
    some { g with raw }
  else do
    let raw ← g.raw.swapLines (-i32 positions) (lineRange (start + i32 positions) stop).reverse
    let raw ← raw.resetLines g.cursor.template (lineRange start (start + i32 positions)).reverse
    some { g with raw }

theorem scrollDownCast_eq (hfits : positions < 2 ^ 31) :
    g.scrollDownCast start stop positions = g.scrollDown start stop positions := by
  simp only [scrollDownCast, scrollDown, i32_natCast hfits]

/-- With any limit of the history, scrolling down by what an `i32` holds does the same to
the lines. -/
theorem scrollDownCast_lines (h : g.WF) (hr : InRegion g.lines start stop) (positions limit : Nat)
    (hfits : positions < 2 ^ 31) (hlimit : g.historySize ≤ limit) :
    Returns ({ g with maxScrollLimit := limit }.scrollDownCast start stop positions)
      (LinesDown start stop positions g) := by
  rw [scrollDownCast_eq hfits]
  exact scrollDown_lines h hr positions limit hlimit

/-- Scrolling down below a fixed line, with a limit of five lines. -/
theorem scrollDownCast_lines_fixed :
    Returns ({ (new 3 2 0 : Grid Cell) with maxScrollLimit := 5 }.scrollDownCast 1 3 1) fun g' =>
      g'.raw.get 0 = (new 3 2 0 : Grid Cell).raw.get 0 ∧
        g'.raw.get 2 = (new 3 2 0 : Grid Cell).raw.get 1 := by
  refine (scrollDownCast_lines (new_wf (by decide) (by decide) 0) ⟨by decide, by decide, by decide⟩ 1
    5 (by decide) (Nat.zero_le _)).mono fun g' hg' => ?_
  exact ⟨hg'.fixed 0 (by decide) (by decide) (.inl (by decide)), hg'.moved 2 (by decide) (by decide)⟩

def redGrid : Grid Cell :=
  { (new 2 1 5 : Grid Cell) with cursor.template.bg := .named .red }

theorem fresh_bg {template : Cell} {r : Row Cell} (h : r.Fresh template 1) :
    r.inner.map Cell.bg = [template.bg] := by
  obtain ⟨⟨inner, occ⟩, hwf, hreset⟩ := h
  obtain ⟨c, rfl⟩ := List.length_eq_one_iff.mp hwf.len_eq
  have hlast : (Row.mk [c] occ).last = some c := rfl
  have hocc : occ = 0 ∨ occ = 1 := Nat.le_one_iff_eq_zero_or_eq_one.mp hwf.occ_le
  simp only [Row.reset, hlast, Option.bind_eq_bind, Option.bind_some] at hreset
  by_cases hbg : c.bg = template.bg
  · have hsame : GridCell.sameDiscriminant c template = true := decide_eq_true hbg
    rw [if_pos hsame] at hreset
    rcases hocc with rfl | rfl
    · cases hreset
      exact congrArg (fun bg => [bg]) hbg
    · cases hreset
      rfl
  · have hother : ¬ GridCell.sameDiscriminant c template = true := fun h => hbg (of_decide_eq_true h)
    rw [if_neg hother] at hreset
    cases hreset
    rfl

/-- 2³² positions are none as an `i32`: the screen stays as it is. -/
theorem scrollDownCast_keeps : redGrid.WF ∧ InRegion redGrid.lines 0 2 ∧
    redGrid.scrollDownCast 0 2 (2 ^ 32) = some redGrid ∧ ¬ LinesDown 0 2 (2 ^ 32) redGrid redGrid := by
  have hnew : (new 2 1 5 : Grid Cell).WF := new_wf (by decide) (by decide) 5
  refine ⟨⟨hnew.raw, hnew.visible, hnew.columns_pos, hnew.history_le, hnew.cursor, hnew.savedCursor⟩,
    ⟨by decide, by decide, by decide⟩, by decide, fun hlines => ?_⟩
  obtain ⟨row, hrow, hfresh⟩ := hlines.cleared 0 (by decide) (by decide)
  have hcell : redGrid.raw.get 0 = some (Row.new 1) := by decide
  obtain rfl := Option.some.inj (hcell.symm.trans hrow)
  exact absurd (fresh_bg hfresh) (by decide)

end Grid
end Velacritty
