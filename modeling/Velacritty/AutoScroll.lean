import Velacritty.AltScreen

/-! The auto-scroll setting: the display has it, and each of the two grids has a copy. -/
namespace Velacritty
open Fallible

theorem Grid.updateHistory_autoScrollEnabled {g : Grid Cell} (n : Nat) :
    Allows (g.updateHistory n) fun g' => g'.autoScrollEnabled = g.autoScrollEnabled := by
  intro g' hg'
  simp only [updateHistory, Option.bind_eq_bind, Option.bind_eq_some_iff, Option.some.injEq] at hg'
  obtain ⟨raw, -, rfl⟩ := hg'
  rfl

/-- What the display knows of the setting. -/
structure Display where
  autoScrollEnabled : Bool
  deriving DecidableEq

structure WindowContext where
  display : Display
  terminal : Term

/-- The user's toggle, or any operation of the terminal. -/
inductive WindowOp where
  | toggleAutoScroll
  | terminal (op : TermOp)

namespace WindowContext
variable {w w' : WindowContext} {env : Env}

def new (config : Config) (autoScroll : Bool) (lines columns : Nat) : WindowContext :=
  let terminal := Term.new config lines columns
  { display := { autoScrollEnabled := autoScroll }
    terminal := { terminal with grid := terminal.grid.setAutoScrollEnabled autoScroll } }

def toggleAutoScroll (w : WindowContext) : WindowContext :=
  let newValue := !w.display.autoScrollEnabled
  { display := { autoScrollEnabled := newValue }
    terminal := { w.terminal with grid := w.terminal.grid.setAutoScrollEnabled newValue } }

end WindowContext

namespace WindowOp

def step (env : Env) (w : WindowContext) : WindowOp → Option WindowContext
  | toggleAutoScroll => some w.toggleAutoScroll
  | terminal op => do
      let terminal ← op.step env w.terminal
      some { w with terminal }

/-- The setting is written by the toggle only. -/
def Admissible (w : WindowContext) : WindowOp → Prop
  | toggleAutoScroll => True
  | terminal (.setAutoScrollEnabled _) => False
  | terminal op => op.Admissible w.terminal

/-- A toggle comes while the primary screen is shown. -/
def OnPrimary (w : WindowContext) (op : WindowOp) : Prop :=
  op = toggleAutoScroll → w.terminal.mode.altScreen = false

theorem Admissible.terminal {w : WindowContext} {op : TermOp} (h : (terminal op).Admissible w) :
    op.Admissible w.terminal ∧ ∀ enabled, op ≠ .setAutoScrollEnabled enabled := by
  cases op with
  | setAutoScrollEnabled enabled => exact h.elim
  | handler op => exact ⟨h, fun _ hno => TermOp.noConfusion hno⟩
  | resize lines columns => exact ⟨h, fun _ hno => TermOp.noConfusion hno⟩
  | setOptions options => exact ⟨h, fun _ hno => TermOp.noConfusion hno⟩
  | swapAlt => exact ⟨h, fun _ hno => TermOp.noConfusion hno⟩
  | scrollDisplay scroll => exact ⟨h, fun _ hno => TermOp.noConfusion hno⟩
  | toggleViMode => exact ⟨h, fun _ hno => TermOp.noConfusion hno⟩
  | viMotion motion => exact ⟨h, fun _ hno => TermOp.noConfusion hno⟩
  | viGotoPoint point => exact ⟨h, fun _ hno => TermOp.noConfusion hno⟩
  | setSelection selection => exact ⟨h, fun _ hno => TermOp.noConfusion hno⟩
  | damage => exact ⟨h, fun _ hno => TermOp.noConfusion hno⟩
  | resetDamage => exact ⟨h, fun _ hno => TermOp.noConfusion hno⟩

end WindowOp

namespace Term
variable {t t' : Term} {env : Env}

/-- An update that swaps no screens keeps the setting of the primary one if it does so
for each of the two grids, when that is the primary one. -/
theorem autoScroll_update (hsame : t'.mode.altScreen = t.mode.altScreen)
    (hgrid : t.mode.altScreen = false → t'.grid.autoScrollEnabled = t.grid.autoScrollEnabled)
    (hinactive : t.mode.altScreen = true →
      t'.inactiveGrid.autoScrollEnabled = t.inactiveGrid.autoScrollEnabled) :
    t'.primaryGrid.autoScrollEnabled = t.primaryGrid.autoScrollEnabled := by
  cases halt : t.mode.altScreen with
  | true =>
      rw [primaryGrid_hidden halt, primaryGrid_hidden (hsame.trans halt)]
      exact hinactive halt
  | false =>
      rw [primaryGrid_shown halt, primaryGrid_shown (hsame.trans halt)]
      exact hgrid halt

theorem Framed.primaryAutoScroll (h : Framed t t') :
    t'.primaryGrid.autoScrollEnabled = t.primaryGrid.autoScrollEnabled :=
  autoScroll_update h.altScreen (fun _ => h.autoScrollEnabled) fun _ => by rw [h.inactiveGrid]

theorem Regioned.primaryAutoScroll {top : Nat} {bottom : Option Nat} (h : Regioned top bottom t t') :
    t'.primaryGrid.autoScrollEnabled = t.primaryGrid.autoScrollEnabled := h.framed.primaryAutoScroll

theorem Restarted.primaryAutoScroll (h : Restarted t t') (ht : t.WF) :
    t'.primaryGrid.autoScrollEnabled = t.primaryGrid.autoScrollEnabled := by
  have halt : t'.mode.altScreen = false := (congrArg (fun t => t.mode.altScreen) h.rest :)
  have hwf : t.primaryGrid.WF := by
    unfold primaryGrid
    split
    · exact ht.inactiveGrid
    · exact ht.grid
  rw [primaryGrid_shown halt]
  obtain ⟨-, -, -, hlimits, -⟩ := (Grid.reset_returns hwf).of_eq h.grid
  exact hlimits.autoScrollEnabled

theorem Swapped.primaryAutoScroll (h : Swapped t t') :
    t'.primaryGrid.autoScrollEnabled = t.primaryGrid.autoScrollEnabled := by
  have hflag := h.altScreen
  cases halt : t.mode.altScreen with
  | true =>
      rw [halt] at hflag
      rw [primaryGrid_hidden halt, primaryGrid_shown hflag, (h.toPrimary halt).1]
  | false =>
      rw [halt] at hflag
      rw [primaryGrid_shown halt, primaryGrid_hidden hflag, (h.toAlternate halt).2]

theorem Viewed.primaryAutoScroll (h : Viewed t t') :
    t'.primaryGrid.autoScrollEnabled = t.primaryGrid.autoScrollEnabled := by
  refine autoScroll_update h.altScreen (fun _ => ?_) fun _ => by rw [h.inactiveGrid]
  exact (congrArg (fun t => t.grid.autoScrollEnabled) h.rest :)

theorem Resized.primaryAutoScroll {lines columns : Nat} (h : Resized lines columns t t') (ht : t.WF)
    (hl : 1 ≤ lines) (hc : 2 ≤ columns) :
    t'.primaryGrid.autoScrollEnabled = t.primaryGrid.autoScrollEnabled := by
  have hpos := Nat.le_of_succ_le hc
  refine autoScroll_update (congrArg (fun t => t.mode.altScreen) h.rest :) (fun _ => ?_) fun _ => ?_
  · obtain ⟨-, -, -, hlimits, -⟩ := (Grid.resize_returns _ ht.grid hl hpos).2 _ h.grid
    exact hlimits.autoScrollEnabled
  · obtain ⟨-, -, -, hlimits, -⟩ := (Grid.resize_returns _ ht.inactiveGrid hl hpos).2 _ h.inactiveGrid
    exact hlimits.autoScrollEnabled

theorem Configured.primaryAutoScroll {options : Config} (h : Configured options t t') :
    t'.primaryGrid.autoScrollEnabled = t.primaryGrid.autoScrollEnabled := by
  obtain ⟨_, _, _, hrest, -⟩ := h.rest
  refine autoScroll_update (congrArg (fun t => t.mode.altScreen) hrest :) (fun halt => ?_) fun halt => ?_
  · exact Grid.updateHistory_autoScrollEnabled _ _ (h.primary halt).2
  · exact Grid.updateHistory_autoScrollEnabled _ _ (h.alternate halt).2

/-- Every operation but the setter keeps the setting of the primary screen. -/
theorem step_primaryAutoScroll (ht : t.WF) {op : TermOp} (hop : op.Admissible t)
    (hset : ∀ enabled, op ≠ .setAutoScrollEnabled enabled) :
    Allows (op.step env t) fun t' =>
      t'.primaryGrid.autoScrollEnabled = t.primaryGrid.autoScrollEnabled := by
  refine (TermOp.step_stepped env ht hop).mono fun t' h => ?_
  cases h with
  | handler h =>
      cases h.reframed ht with
      | framed h => exact h.primaryAutoScroll
      | regioned _ ha h => exact h.primaryAutoScroll.trans ha.primaryAutoScroll
      | restarted _ h => exact h.primaryAutoScroll ht
      | swapped _ h => exact h.primaryAutoScroll
  | viewed h => exact h.primaryAutoScroll
  | flagged _ => exact absurd rfl (hset _)
  | resized h => exact h.primaryAutoScroll ht hop.1 hop.2
  | configured h => exact h.primaryAutoScroll
  | swapped h => exact h.primaryAutoScroll

theorem WF.setAutoScrollEnabled (h : t.WF) (enabled : Bool) :
    WF { t with grid := t.grid.setAutoScrollEnabled enabled } := by
  have hstep : TermStepped .ascii t { t with grid := t.grid.setAutoScrollEnabled enabled }
      (.setAutoScrollEnabled enabled) := .flagged rfl
  exact hstep.wf h

end Term

namespace WindowContext
variable {w w' : WindowContext} {env : Env}

/-- The primary screen has the setting of the display. -/
def Synced (w : WindowContext) : Prop :=
  w.terminal.primaryGrid.autoScrollEnabled = w.display.autoScrollEnabled

theorem toggleAutoScroll_synced_iff (h : w.Synced) :
    w.toggleAutoScroll.Synced ↔ w.terminal.mode.altScreen = false := by
  cases halt : w.terminal.mode.altScreen with
  | true =>
      have hkept : w.toggleAutoScroll.terminal.primaryGrid = w.terminal.inactiveGrid :=
        Term.primaryGrid_hidden halt
      have hsynced : w.terminal.inactiveGrid.autoScrollEnabled = w.display.autoScrollEnabled :=
        Term.primaryGrid_hidden halt ▸ h
      unfold Synced
      rw [hkept, hsynced]
      simp only [toggleAutoScroll, Bool.eq_not_self, Bool.true_eq_false]
  | false =>
      have hset : w.toggleAutoScroll.terminal.primaryGrid =
          w.terminal.grid.setAutoScrollEnabled !w.display.autoScrollEnabled :=
        Term.primaryGrid_shown halt
      unfold Synced
      rw [hset]
      exact ⟨fun _ => rfl, fun _ => rfl⟩

/-- A step keeps the two settings equal if and only if it is no toggle on the alternate
screen. -/
theorem step_synced_iff (hw : w.terminal.WF) (h : w.Synced) {op : WindowOp} (hop : op.Admissible w) :
    Allows (op.step env w) fun w' => w'.terminal.WF ∧ (w'.Synced ↔ op.OnPrimary w) := by
  cases op with
  | toggleAutoScroll =>
      refine .pure ⟨hw.setAutoScrollEnabled _, (toggleAutoScroll_synced_iff h).trans ?_⟩
      exact ⟨fun halt _ => halt, fun hon => hon rfl⟩
  | terminal op =>
      intro w' hw'
      simp only [WindowOp.step, Option.bind_eq_bind, Option.bind_eq_some_iff, Option.some.injEq] at hw'
      obtain ⟨t', hstep, rfl⟩ := hw'
      obtain ⟨hadmissible, hset⟩ := hop.terminal
      refine ⟨(TermOp.step_stepped env hw hadmissible _ hstep).wf hw, fun _ hno => ?_, fun _ => ?_⟩
      · exact WindowOp.noConfusion hno
      · exact (Term.step_primaryAutoScroll hw hadmissible hset _ hstep).trans h

/-- In every run that toggles on the primary screen only, the primary screen has the
setting of the display. The next step keeps that if and only if it is no toggle on the
alternate screen. -/
theorem run_autoScroll {config : Config} {autoScroll : Bool} {lines columns : Nat} (hl : 1 ≤ lines)
    (hc : 2 ≤ columns)
    (h : Reaches (WindowOp.step env) (fun w op => op.Admissible w ∧ op.OnPrimary w)
      (new config autoScroll lines columns) w) :
    w.terminal.primaryGrid.autoScrollEnabled = w.display.autoScrollEnabled ∧
      ∀ op : WindowOp, op.Admissible w → Allows (op.step env w) fun w' =>
        (w'.terminal.primaryGrid.autoScrollEnabled = w'.display.autoScrollEnabled ↔ op.OnPrimary w) := by
  have hinv : w.terminal.WF ∧ w.Synced := by
    refine h.invariant (P := fun w => w.terminal.WF ∧ w.Synced)
      ⟨(Term.new_wf config hl hc).setAutoScrollEnabled _, rfl⟩ fun s op s' hs hop hstep => ?_
    obtain ⟨hwf, hiff⟩ := step_synced_iff hs.1 hs.2 hop.1 _ hstep
    exact ⟨hwf, hiff.mpr hop.2⟩
  exact ⟨hinv.2, fun op hop => (step_synced_iff hinv.1 hinv.2 hop).mono fun _ h => h.2⟩

/-- A toggle at the start. -/
theorem run_autoScroll_toggled : ∃ w : WindowContext,
    Reaches (WindowOp.step .ascii) (fun w op => op.Admissible w ∧ op.OnPrimary w)
      (new .initial true 1 2) w ∧
      w.display.autoScrollEnabled = false ∧ w.terminal.primaryGrid.autoScrollEnabled = false := by
  have hrun : Reaches (WindowOp.step .ascii) (fun w op => op.Admissible w ∧ op.OnPrimary w)
      (new .initial true 1 2) _ :=
    .step .refl (a := .toggleAutoScroll) (And.intro trivial fun _ => rfl) rfl
  exact ⟨_, hrun, rfl, (run_autoScroll (by decide) (by decide) hrun).1⟩

/-- A toggle on the alternate screen does not reach the primary one. -/
theorem toggle_on_alternate : ∃ w : WindowContext,
    Reaches (WindowOp.step .ascii) (fun w op => op.Admissible w) (new .initial true 1 2) w ∧
      w.terminal.mode.altScreen = false ∧ w.display.autoScrollEnabled = false ∧
      w.terminal.primaryGrid.autoScrollEnabled = true :=
  ⟨_, .step (.step (.step .refl (a := .terminal .swapAlt) trivial rfl)
    (a := .toggleAutoScroll) trivial rfl) (a := .terminal .swapAlt) trivial rfl, rfl, rfl, rfl⟩

end WindowContext
end Velacritty
