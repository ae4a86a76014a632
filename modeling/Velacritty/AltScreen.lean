import Velacritty.ScreenFrames

/-! The alternate screen: it has no history, and work on it does not touch the primary
screen. -/
namespace Velacritty
open Fallible

/-- The grid has no room for a history, and is not scrolled back. -/
def Grid.NoScrollback (g : Grid Cell) : Prop := g.maxScrollLimit = 0 ∧ g.displayOffset = 0

theorem Grid.NoScrollback.historySize {g : Grid Cell} (h : g.NoScrollback) (hg : g.WF) :
    g.historySize = 0 := by
  have hle := hg.history_le
  rw [h.1] at hle
  exact Nat.sub_eq_zero_of_le hle

/-- A viewport inside of no history is not scrolled back. -/
theorem Grid.NoScrollback.of_bounded {g g' : Grid Cell} (h : g.NoScrollback) (hg : g'.WF)
    (hmax : g'.maxScrollLimit = g.maxScrollLimit) (hb : g.OffsetBounded → g'.OffsetBounded) :
    g'.NoScrollback := by
  have hmax' : g'.maxScrollLimit = 0 := hmax.trans h.1
  have hle := hg.history_le
  have hoff : g'.displayOffset ≤ g'.raw.len - g'.lines := hb (.of_zero h.2)
  rw [hmax'] at hle
  exact ⟨hmax', by omega⟩

namespace TermOp

/-- Requests for the alternate screen. -/
def Enters (op : TermOp) : Prop :=
  op = .handler (.setPrivateMode (.named .swapScreenAndSetRestoreCursor)) ∨ op = .swapAlt

/-- Requests for the primary screen. -/
def Leaves (op : TermOp) : Prop :=
  op = .handler (.unsetPrivateMode (.named .swapScreenAndSetRestoreCursor)) ∨ op = .swapAlt

/-- Work on the shown screen: no reset, no swap back and no change of both screens. -/
def OnAlternate : TermOp → Prop
  | handler .resetState => False
  | handler (.unsetPrivateMode (.named .swapScreenAndSetRestoreCursor)) => False
  | resize _ _ => False
  | setOptions _ => False
  | swapAlt => False
  | _ => True

end TermOp

namespace Term
variable {t t' a : Term} {env : Env}

def alternateGrid (t : Term) : Grid Cell := if t.mode.altScreen then t.grid else t.inactiveGrid

theorem alternateGrid_shown (h : t.mode.altScreen = true) : t.alternateGrid = t.grid := if_pos h

theorem alternateGrid_hidden (h : t.mode.altScreen = false) : t.alternateGrid = t.inactiveGrid :=
  if_neg (Bool.eq_false_iff.mp h)

def primaryGrid (t : Term) : Grid Cell := if t.mode.altScreen then t.inactiveGrid else t.grid

theorem primaryGrid_shown (h : t.mode.altScreen = false) : t.primaryGrid = t.grid :=
  if_neg (Bool.eq_false_iff.mp h)

theorem primaryGrid_hidden (h : t.mode.altScreen = true) : t.primaryGrid = t.inactiveGrid := if_pos h

theorem WF.alternateGrid (h : t.WF) : t.alternateGrid.WF := by
  unfold Term.alternateGrid
  split
  · exact h.grid
  · exact h.inactiveGrid

/-- An update that swaps no screens keeps the alternate one without a scrollback if it
does so for each of the two grids, when that is the alternate one. -/
theorem noScrollback_update (hp : t.alternateGrid.NoScrollback)
    (hsame : t'.mode.altScreen = t.mode.altScreen)
    (hgrid : t.mode.altScreen = true → t.grid.NoScrollback → t'.grid.NoScrollback)
    (hinactive : t.mode.altScreen = false → t.inactiveGrid.NoScrollback → t'.inactiveGrid.NoScrollback) :
    t'.alternateGrid.NoScrollback := by
  cases halt : t.mode.altScreen with
  | true =>
      rw [alternateGrid_shown halt] at hp
      rw [alternateGrid_shown (hsame.trans halt)]
      exact hgrid halt hp
  | false =>
      rw [alternateGrid_hidden halt] at hp
      rw [alternateGrid_hidden (hsame.trans halt)]
      exact hinactive halt hp

theorem Framed.noScrollback (h : Framed t t') (hp : t.alternateGrid.NoScrollback) :
    t'.alternateGrid.NoScrollback := by
  refine noScrollback_update hp h.altScreen (fun _ hg => ?_) fun _ hg => h.inactiveGrid ▸ hg
  have hle := h.displayOffset
  rw [hg.1, hg.2] at hle
  exact ⟨h.maxScrollLimit.trans hg.1, Nat.le_zero.mp hle⟩

theorem Regioned.noScrollback {top : Nat} {bottom : Option Nat} (h : Regioned top bottom t t')
    (hp : t.alternateGrid.NoScrollback) : t'.alternateGrid.NoScrollback := h.framed.noScrollback hp

theorem Restarted.noScrollback (h : Restarted t t') (ht : t.WF) (hp : t.alternateGrid.NoScrollback) :
    t'.alternateGrid.NoScrollback := by
  have halt : t'.mode.altScreen = false := (congrArg (fun t => t.mode.altScreen) h.rest :)
  have hreset := h.inactiveGrid
  rw [alternateGrid_hidden halt]
  obtain ⟨-, -, -, hmax, -, hoff, -⟩ := (Grid.reset_returns ht.alternateGrid).of_eq hreset
  exact ⟨hmax.maxScrollLimit.trans hp.1, hoff⟩

theorem Swapped.altScreen (h : Swapped t t') : t'.mode.altScreen = !t.mode.altScreen :=
  (congrArg (fun t => t.mode.altScreen) h.rest :)

theorem Swapped.noScrollback (h : Swapped t t') (hp : t.alternateGrid.NoScrollback) :
    t'.alternateGrid.NoScrollback := by
  have hflag := h.altScreen
  cases halt : t.mode.altScreen with
  | true =>
      rw [alternateGrid_shown halt] at hp
      rw [halt] at hflag
      rw [alternateGrid_hidden hflag, (h.toPrimary halt).2]
      exact hp
  | false =>
      obtain ⟨hsame, -⟩ := h.toAlternate halt
      rw [alternateGrid_hidden halt] at hp
      rw [halt] at hflag
      rw [alternateGrid_shown hflag]
      exact ⟨hsame.maxScrollLimit.trans hp.1, hsame.displayOffset.trans hp.2⟩

theorem Viewed.altScreen (h : Viewed t t') : t'.mode.altScreen = t.mode.altScreen :=
  (congrArg (fun t => t.mode.altScreen) h.rest :)

theorem Viewed.inactiveGrid (h : Viewed t t') : t'.inactiveGrid = t.inactiveGrid :=
  (congrArg Term.inactiveGrid h.rest :)

theorem Viewed.noScrollback (h : Viewed t t') (ht : t.WF) (hp : t.alternateGrid.NoScrollback) :
    t'.alternateGrid.NoScrollback := by
  refine noScrollback_update hp h.altScreen (fun _ hg => ?_) fun _ hg => h.inactiveGrid ▸ hg
  exact hg.of_bounded (h.wf ht).grid (congrArg (fun t => t.grid.maxScrollLimit) h.rest :) h.offset

theorem Resized.noScrollback {lines columns : Nat} (h : Resized lines columns t t') (ht : t.WF)
    (hl : 1 ≤ lines) (hc : 2 ≤ columns) (hp : t.alternateGrid.NoScrollback) :
    t'.alternateGrid.NoScrollback := by
  have hpos := Nat.le_of_succ_le hc
  refine noScrollback_update hp (congrArg (fun t => t.mode.altScreen) h.rest :) (fun _ hg => ?_)
    fun _ hg => ?_
  · obtain ⟨hwf, -, -, hmax, hb⟩ := (Grid.resize_returns _ ht.grid hl hpos).2 _ h.grid
    exact hg.of_bounded hwf hmax.maxScrollLimit hb
  · obtain ⟨hwf, -, -, hmax, hb⟩ := (Grid.resize_returns _ ht.inactiveGrid hl hpos).2 _ h.inactiveGrid
    exact hg.of_bounded hwf hmax.maxScrollLimit hb

theorem Configured.noScrollback {options : Config} (h : Configured options t t')
    (hp : t.alternateGrid.NoScrollback) : t'.alternateGrid.NoScrollback := by
  obtain ⟨_, _, _, hrest, -⟩ := h.rest
  refine noScrollback_update hp (congrArg (fun t => t.mode.altScreen) hrest :) (fun halt hg => ?_)
    fun halt hg => ?_
  · exact (h.alternate halt).1 ▸ hg
  · exact (h.primary halt).1 ▸ hg

theorem step_noScrollback (ht : t.WF) (hp : t.alternateGrid.NoScrollback) {op : TermOp}
    (hop : op.Admissible t) : Allows (op.step env t) fun t' => t'.alternateGrid.NoScrollback := by
  refine (TermOp.step_stepped env ht hop).mono fun t' h => ?_
  cases h with
  | handler h =>
      cases h.reframed ht with
      | framed h => exact h.noScrollback hp
      | regioned _ ha h => exact h.noScrollback (ha.noScrollback hp)
      | restarted _ h => exact h.noScrollback ht hp
      | swapped _ h => exact h.noScrollback hp
  | viewed h => exact h.noScrollback ht hp
  | flagged h =>
      rw [h]
      exact noScrollback_update hp rfl (fun _ hg => hg) fun _ hg => hg
  | resized h => exact h.noScrollback ht hop.1 hop.2 hp
  | configured h => exact h.noScrollback hp
  | swapped h => exact h.noScrollback hp

/-! ### Isolation -/

structure Waits (g : Grid Cell) (t : Term) : Prop where
  wf : t.WF
  altScreen : t.mode.altScreen = true
  inactiveGrid : t.inactiveGrid = { g with savedCursor := g.cursor }

theorem enters_waits (ht : t.WF) (hprimary : t.mode.altScreen = false) {op : TermOp}
    (henter : op.Enters) : Allows (op.step env t) (Waits t.grid) := by
  have hswap : Allows t.swapAlt (Waits t.grid) := by
    refine (swapAlt_returns ht).allows.mono fun t' h => ⟨h.wf, ?_, (h.toAlternate hprimary).2⟩
    rw [h.altScreen, hprimary]
    rfl
  rcases henter with rfl | rfl
  · have hstep : TermOp.step env t (.handler (.setPrivateMode (.named .swapScreenAndSetRestoreCursor))) =
        t.swapAlt := if_pos hprimary
    rw [hstep]
    exact hswap
  · exact hswap

/-- Work on the alternate screen lets the primary one wait. -/
theorem onAlternate_waits {g : Grid Cell} (h : Waits g t) {op : TermOp} (hop : op.Admissible t)
    (hon : op.OnAlternate) : Allows (op.step env t) (Waits g) := by
  obtain ⟨hwf, halt, hinactive⟩ := h
  refine (TermOp.step_stepped env hwf hop).mono fun t' h => ?_
  have hwf' := h.wf hwf
  cases h with
  | @handler op h =>
      cases h.reframed hwf with
      | framed h => exact ⟨hwf', h.altScreen.trans halt, h.inactiveGrid.trans hinactive⟩
      | regioned _ ha h =>
          exact ⟨hwf', h.altScreen.trans (ha.framed.altScreen.trans halt),
            h.inactiveGrid.trans (ha.framed.inactiveGrid.trans hinactive)⟩
      | restarted hreset _ =>
          rw [hreset] at hon
          exact hon.elim
      | swapped hswap _ =>
          rcases hswap with ⟨-, hno⟩ | ⟨hleave, -⟩
          · exact absurd (halt.symm.trans hno) (by decide)
          · rw [hleave] at hon
            exact hon.elim
  | viewed h => exact ⟨hwf', h.altScreen.trans halt, h.inactiveGrid.trans hinactive⟩
  | flagged h =>
      subst h
      exact ⟨hwf', halt, hinactive⟩
  | resized _ => exact hon.elim
  | configured _ => exact hon.elim
  | swapped _ => exact hon.elim

theorem leaves_waiting {g : Grid Cell} (h : Waits g t) {op : TermOp} (hleave : op.Leaves) :
    Returns (op.step env t) fun t' =>
      t'.mode.altScreen = false ∧ t'.grid = { g with savedCursor := g.cursor } := by
  obtain ⟨hwf, halt, hinactive⟩ := h
  have hswap : Returns t.swapAlt fun t' =>
      t'.mode.altScreen = false ∧ t'.grid = { g with savedCursor := g.cursor } := by
    refine (swapAlt_returns hwf).mono fun t' h => ⟨?_, (h.toPrimary halt).1.trans hinactive⟩
    rw [h.altScreen, halt]
    rfl
  rcases hleave with rfl | rfl
  · have hstep : TermOp.step env t (.handler (.unsetPrivateMode (.named .swapScreenAndSetRestoreCursor))) =
        t.swapAlt := if_pos halt
    rw [hstep]
    exact hswap
  · exact hswap

/-- The alternate screen of a reachable terminal has no history and is not scrolled back.
Whatever is done on it between entering and leaving it, the primary screen is afterwards
as it was, but for its saved cursor. -/
theorem alternate_isolated {config : Config} {lines columns : Nat} (hl : 1 ≤ lines) (hc : 2 ≤ columns)
    (ht : Reachable env config lines columns t) :
    t.alternateGrid.historySize = 0 ∧ t.alternateGrid.displayOffset = 0 ∧
      (t.mode.altScreen = false → ∀ enter leave : TermOp, enter.Enters → leave.Leaves →
        ∀ s s' : Term, enter.step env t = some s →
          Reaches (TermOp.step env) (fun t op => op.Admissible t ∧ op.OnAlternate) s s' →
          Returns (leave.step env s') fun t' =>
            t'.mode.altScreen = false ∧ t'.grid = { t.grid with savedCursor := t.grid.cursor }) := by
  have hwf := ht.wf hl hc
  have hnone : t.alternateGrid.NoScrollback := by
    have hinv : t.WF ∧ t.alternateGrid.NoScrollback :=
      ht.invariant (P := fun t => t.WF ∧ t.alternateGrid.NoScrollback)
        ⟨new_wf config hl hc, rfl, rfl⟩ fun s op s' hs hop hstep =>
          ⟨(TermOp.step_stepped env hs.1 hop _ hstep).wf hs.1, step_noScrollback hs.1 hs.2 hop _ hstep⟩
    exact hinv.2
  refine ⟨hnone.historySize hwf.alternateGrid, hnone.2, ?_⟩
  intro hprimary enter leave henter hleave s s' hs hrun
  have hwaits : Waits t.grid s' := by
    refine hrun.invariant (P := Waits t.grid) (enters_waits hwf hprimary henter _ hs) ?_
    exact fun a op b ha hop hstep => onAlternate_waits ha hop.1 hop.2 _ hstep
  exact leaves_waiting hwaits hleave

/-- Printing on the alternate screen of a new terminal. -/
theorem alternate_isolated_printed : ∃ s s' : Term,
    TermOp.swapAlt.step .ascii (new .initial 1 2) = some s ∧
      (TermOp.handler (.input 'x')).step .ascii s = some s' ∧
      Returns (TermOp.swapAlt.step .ascii s') fun t' => t'.mode.altScreen = false ∧
        t'.grid = { (new .initial 1 2).grid with savedCursor := (new .initial 1 2).grid.cursor } := by
  refine ⟨_, _, rfl, rfl, ?_⟩
  exact (alternate_isolated (by decide) (by decide) .refl).2.2 rfl .swapAlt .swapAlt (.inr rfl) (.inr rfl)
    _ _ rfl (.step .refl (a := .handler (.input 'x')) (And.intro trivial trivial) rfl)

end Term
end Velacritty
