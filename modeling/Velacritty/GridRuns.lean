import Velacritty.GridResizeSound

/-! Runs of grid operations: the bounds of the storage, and the viewport inside of the
scrollback. -/
namespace Velacritty
open Fallible

/-- What the owner of a grid does with it. The last three are writes through its
public cursors and its indices. -/
inductive GridOp (T : Type) where
  | scrollUp (start stop : Int) (positions : Nat)
  | scrollDown (start stop : Int) (positions : Nat)
  | scrollDisplay (scroll : Scroll)
  | clearViewport
  | clearHistory
  | reset
  | resetRegion (start stop : Int)
  | updateHistory (historySize : Nat)
  | resize (reflow : Bool) (lines columns : Nat)
  | setAutoScrollEnabled (enabled : Bool)
  | setCursor (cursor : Cursor T)
  | setSavedCursor (cursor : Cursor T)
  | write (point : Point) (f : T → T)

namespace GridOp
variable {T : Type}

def step [GridCell T] (g : Grid T) : GridOp T → Option (Grid T)
  | scrollUp start stop positions => g.scrollUp start stop positions
  | scrollDown start stop positions => g.scrollDown start stop positions
  | scrollDisplay scroll => some (g.scrollDisplay scroll)
  | clearViewport => g.clearViewport
  | clearHistory => g.clearHistory
  | reset => g.reset
  | resetRegion start stop => g.resetRegion start stop
  | updateHistory historySize => g.updateHistory historySize
  | resize reflow lines columns => g.resize reflow lines columns
  | setAutoScrollEnabled enabled => some (g.setAutoScrollEnabled enabled)
  | setCursor cursor => some { g with cursor }
  | setSavedCursor cursor => some { g with savedCursor := cursor }
  | write point f => g.modifyCell point f

/-- What the terminal promises about the arguments: regions lie on the screen and
scroll at most by their size when they start at the top, cursors lie on the
screen, and `minColumns` bounds the width. -/
def Admissible (minColumns : Nat) (g : Grid T) : GridOp T → Prop
  | scrollUp start stop positions =>
      Grid.InRegion g.lines start stop ∧ (start = 0 → (positions : Int) ≤ stop)
  | scrollDown start stop _ => Grid.InRegion g.lines start stop
  | resetRegion start stop => 0 ≤ start ∧ start < g.lines ∧ stop ≤ g.lines
  | resize _ lines columns => 1 ≤ lines ∧ minColumns ≤ columns
  | setCursor cursor | setSavedCursor cursor => Grid.InScreen g.lines g.columns cursor.point
  | write point _ =>
      g.dims.topmostLine ≤ point.line ∧ point.line < g.lines ∧ point.column < g.columns
  | _ => True

/-- A region below the top of the screen scrolls without growing the history. Unless
it is cleared as a whole, the viewport must be at rest, or have room above it. -/
def OffsetSafe (g : Grid T) : GridOp T → Prop
  | scrollUp start stop positions =>
      start = 0 ∨ stop - start ≤ positions ∨
        (g.displayOffset = 0 ∧ g.autoScrollEnabled = true) ∨
        min (g.displayOffset + positions) g.maxScrollLimit ≤ g.historySize
  | _ => True

end GridOp

namespace Grid
variable {T : Type} {g : Grid T}

theorem SameSize.offsetBounded {g' : Grid T} (h : g.SameSize g') (hb : g.OffsetBounded) :
    g'.OffsetBounded := by
  simp only [OffsetBounded, historySize_eq] at hb ⊢
  rwa [h.displayOffset, h.len, h.lines]

theorem OffsetBounded.of_zero (h : g.displayOffset = 0) : g.OffsetBounded := by
  rw [OffsetBounded, h]
  exact Nat.zero_le _

variable [GridCell T]

theorem step_wf {minColumns : Nat} (hmin : 1 ≤ minColumns) (h : g.WF) {op : GridOp T}
    (hop : op.Admissible minColumns g) : ReturnsIf (2 ≤ minColumns) (op.step g) WF := by
  cases op with
  | scrollUp start stop positions =>
      exact ((scrollUp_returns h hop.1 hop.2).mono fun _ hg' => hg'.1).returnsIf
  | scrollDown start stop positions =>
      exact ((scrollDown_returns h hop positions).mono fun _ hg' => hg'.wf).returnsIf
  | scrollDisplay scroll =>
      exact .pure ⟨h.raw, h.visible, h.columns_pos, h.history_le, h.cursor, h.savedCursor⟩
  | clearViewport => exact ((clearViewport_returns h).mono fun _ hg' => hg'.1).returnsIf
  | clearHistory => exact ((clearHistory_returns h).mono fun _ hg' => hg'.1).returnsIf
  | reset => exact ((reset_returns h).mono fun _ hg' => hg'.1).returnsIf
  | resetRegion start stop =>
      exact ((resetRegion_returns h hop.1 hop.2.1 hop.2.2).mono fun _ hg' => hg'.wf).returnsIf
  | updateHistory historySize =>
      exact ((updateHistory_returns h historySize).mono fun _ hg' => hg'.1).returnsIf
  | resize reflow lines columns =>
      have hresize := resize_returns reflow h hop.1 (Nat.le_trans hmin hop.2)
      exact ⟨fun h2 => hresize.1 (Nat.le_trans h2 hop.2), hresize.2.mono fun _ hg' => hg'.1⟩
  | setAutoScrollEnabled enabled =>
      exact .pure ⟨h.raw, h.visible, h.columns_pos, h.history_le, h.cursor, h.savedCursor⟩
  | setCursor cursor =>
      exact .pure ⟨h.raw, h.visible, h.columns_pos, h.history_le, hop, h.savedCursor⟩
  | setSavedCursor cursor =>
      exact .pure ⟨h.raw, h.visible, h.columns_pos, h.history_le, h.cursor, hop⟩
  | write point f =>
      exact ((modifyCell_returns h hop.1 hop.2.1 hop.2.2 f).mono fun _ hg' => hg'.wf).returnsIf

theorem reaches_wf {minColumns lines columns max : Nat} (hmin : 1 ≤ minColumns) (hl : 1 ≤ lines)
    (hc : 1 ≤ columns)
    (h : Reaches GridOp.step (fun g op => op.Admissible minColumns g) (new lines columns max) g) :
    g.WF :=
  h.invariant (new_wf hl hc max) fun _ _ _ hwf hop hs => (step_wf hmin hwf hop).2 _ hs

/-- Every grid that a run of operations reaches is well formed, and no operation on it
indexes outside of a row or the storage, underflows or loops forever. -/
theorem run_wellFormed {lines columns max : Nat} (hl : 1 ≤ lines) (hc : 1 ≤ columns)
    (h : Reaches GridOp.step (fun g op => op.Admissible 2 g) (new lines columns max) g) :
    (∀ op : GridOp T, op.Admissible 2 g → (op.step g).isSome) ∧
      (∀ row ∈ g.raw.inner, row.len = g.columns) ∧
      g.lines ≤ g.dims.totalLines ∧ g.dims.totalLines ≤ g.lines + g.maxScrollLimit ∧
      InScreen g.lines g.columns g.cursor.point ∧ InScreen g.lines g.columns g.savedCursor.point := by
  have hwf := reaches_wf (by decide) hl hc h
  exact ⟨fun op hop => (step_wf (by decide) hwf hop).1 (Nat.le_refl 2),
    fun row hrow => (hwf.raw.rows row hrow).len_eq, hwf.lines_le, hwf.history_le, hwf.cursor,
    hwf.savedCursor⟩

/-- A filled line of four columns becomes two lines of two columns. -/
theorem run_wellFormed_narrowed :
    ∃ g : Grid Cell, Reaches GridOp.step (fun g op => op.Admissible 2 g) (new 2 4 0) g ∧
      g.columns = 2 ∧ ∀ row ∈ g.raw.inner, row.len = g.columns := by
  have hrun : Reaches GridOp.step (fun g op => op.Admissible 2 g) (new 2 4 0 : Grid Cell) _ :=
    .step (.step .refl (a := .write ⟨0, 3⟩ fun cell => { cell with c := 'x' })
      ⟨by decide, by decide, by decide⟩ rfl) (a := .resize true 2 2) ⟨by decide, by decide⟩ rfl
  exact ⟨_, hrun, by decide, (run_wellFormed (by decide) (by decide) hrun).2.1⟩

/-- A step keeps the viewport inside of the history exactly if it is safe. -/
theorem step_offsetBounded_iff {minColumns : Nat} (hmin : 1 ≤ minColumns) (h : g.WF)
    (hb : g.OffsetBounded) {op : GridOp T} (hop : op.Admissible minColumns g) :
    Allows (op.step g) fun g' => g'.OffsetBounded ↔ op.OffsetSafe g := by
  have htriv : ∀ {o : Option (Grid T)}, Returns o OffsetBounded →
      Allows o fun g' => g'.OffsetBounded ↔ True :=
    fun ho => (ho.mono fun _ hg' => iff_true_intro hg').allows
  have hlines := h.lines_le
  have hmax := h.history_le
  cases op with
  | scrollUp start stop positions =>
      refine (scrollUp_returns h hop.1 hop.2).allows.mono fun g' hg' => ?_
      obtain ⟨-, hsame, hlen, hoff⟩ := hg'
      have hl := hsame.lines
      have hregion := hop.1.start_nonneg
      simp only [GridOp.OffsetSafe]
      simp only [OffsetBounded, historySize_eq] at hb ⊢
      by_cases hall : ScrollsAll start stop positions
      · rw [if_pos hall] at hoff
        rw [if_neg hall.2] at hlen
        exact iff_of_true (by omega) (.inr (.inl hall.1))
      · rw [if_neg hall] at hoff
        by_cases h0 : start = 0
        · rw [if_pos h0] at hlen
          refine iff_of_true ?_ (.inl h0)
          rcases pinViewport_displayOffset g positions with hpin | hpin <;> omega
        · rw [if_neg h0] at hlen
          have hnot : ¬ stop - start ≤ positions := fun hle => hall ⟨hle, h0⟩
          unfold pinViewport at hoff
          split at hoff
          · next hpin =>
              simp only at hoff
              constructor
              · intro hle
                exact .inr (.inr (.inr (by omega)))
              · rintro (h0' | hle | ⟨hzero, hauto⟩ | hroom)
                · exact absurd h0' h0
                · exact absurd hle hnot
                · rw [hzero, hauto] at hpin
                  exact absurd hpin (by decide)
                · omega
          · next hpin =>
              rw [not_or, not_not, Bool.not_eq_false] at hpin
              exact iff_of_true (by omega) (.inr (.inr (.inl hpin)))
  | scrollDown start stop positions =>
      exact htriv ((scrollDown_returns h hop positions).mono fun g' hg' => hg'.offsetBounded hb)
  | scrollDisplay scroll =>
      refine htriv (.pure ?_)
      simp only [OffsetBounded, historySize_eq] at hb
      simp only [OffsetBounded, scrollDisplay, historySize_eq]
      cases scroll <;> simp only <;> omega
  | clearViewport =>
      refine htriv ((clearViewport_returns h).mono fun g' hg' => ?_)
      obtain ⟨-, hsame, positions, -, hlen, hoff⟩ := hg'
      have hl := hsame.lines
      simp only [OffsetBounded, historySize_eq] at hb ⊢
      rcases pinViewport_displayOffset g positions with hpin | hpin <;> omega
  | clearHistory =>
      exact htriv ((clearHistory_returns h).mono fun g' hg' => .of_zero hg'.2.2.2)
  | reset =>
      exact htriv ((reset_returns h).mono fun g' hg' => .of_zero hg'.2.2.2.2.2.1)
  | resetRegion start stop =>
      exact htriv ((resetRegion_returns h hop.1 hop.2.1 hop.2.2).mono
        fun g' hg' => hg'.offsetBounded hb)
  | updateHistory size =>
      refine htriv ((updateHistory_returns h size).mono fun g' hg' => ?_)
      simp only [OffsetBounded, hg'.2.2.2.1, hg'.2.2.2.2.1] at hb ⊢
      omega
  | resize reflow lines columns =>
      have hresize := resize_returns reflow h hop.1 (Nat.le_trans hmin hop.2)
      exact hresize.2.mono fun g' hg' => iff_true_intro (hg'.2.2.2.2 hb)
  | setAutoScrollEnabled enabled => exact htriv (.pure hb)
  | setCursor cursor => exact htriv (.pure hb)
  | setSavedCursor cursor => exact htriv (.pure hb)
  | write point f =>
      exact htriv ((modifyCell_returns h hop.1 hop.2.1 hop.2.2 f).mono
        fun g' hg' => hg'.offsetBounded hb)

end Grid
end Velacritty
