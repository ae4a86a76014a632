import Velacritty.ScreenFrames

/-! The keyboard modes: a stack for each screen, the active mode, and the report of it. -/
namespace Velacritty
open Fallible

/-- A push that drops the oldest entry of a full stack. -/
def pushBounded {α : Type} (depth : Nat) (stack : List α) (entry : α) : List α :=
  (if depth ≤ stack.length then stack.tail else stack) ++ [entry]

namespace TermOp

/-- Calls about keyboard modes. -/
def OnKeyboard : TermOp → Prop
  | handler (.pushKeyboardMode _) | handler (.popKeyboardModes _) | handler (.setKeyboardMode _ _)
  | handler .reportKeyboardMode => True
  | _ => False

/-- Calls about keyboard modes and titles, and what swaps or drops them. -/
def OnStacks : TermOp → Prop
  | handler .pushTitle | handler .popTitle | handler .resetState
  | handler (.setPrivateMode (.named .swapScreenAndSetRestoreCursor))
  | handler (.unsetPrivateMode (.named .swapScreenAndSetRestoreCursor))
  | swapAlt | setOptions _ => True
  | op => op.OnKeyboard

/-- A keyboard mode is pushed onto a stack that is not full. -/
def HasRoom (t : Term) : TermOp → Prop
  | handler (.pushKeyboardMode _) =>
      t.config.kittyKeyboard = true → t.keyboardModeStack.length < keyboardModeStackMaxDepth
  | _ => True

/-- A mode that is set is the active one already. -/
def KeepsFlags (t : Term) : TermOp → Prop
  | handler (.setKeyboardMode mode apply) => t.config.kittyKeyboard = true → match apply with
      | .replace => mode = t.mode.keyboard
      | .union => t.mode.keyboard.union mode = t.mode.keyboard
      | .difference => t.mode.keyboard.difference mode = t.mode.keyboard
  | _ => True

theorem OnStacks.admissible {t : Term} {op : TermOp} (h : op.OnStacks) : op.Admissible t := by
  cases op with
  | handler op =>
      cases op with
      | setScrollingRegion => exact h.elim
      | _ => trivial
  | resize => exact h.elim
  | viGotoPoint => exact h.elim
  | _ => trivial

end TermOp

namespace Term
variable {t t' : Term} {env : Env}

/-! ### The stacks -/

structure Stacks where
  active : List KeyboardModes
  inactive : List KeyboardModes
  titles : List (Option String)
  flags : KeyboardModes
  kitty : Bool

def modeStacks (t : Term) : Stacks :=
  ⟨t.keyboardModeStack, t.inactiveKeyboardModeStack, t.titleStack, t.mode.keyboard, t.config.kittyKeyboard⟩

theorem Swapped.modeStacks (h : Swapped t t') : t'.modeStacks = { t.modeStacks with
    active := t.inactiveKeyboardModeStack, inactive := t.keyboardModeStack
    flags := t.inactiveKeyboardModeStack.getLast?.getD .noMode } := by
  rw [h.rest]
  rfl

theorem Restarted.modeStacks (h : Restarted t t') :
    t'.modeStacks = { t.modeStacks with active := [], inactive := [], titles := [], flags := .noMode } := by
  rw [h.rest]
  rfl

theorem Configured.modeStacks {options : Config} (h : Configured options t t') :
    t'.modeStacks = { t.modeStacks with kitty := options.kittyKeyboard } ∨
      t'.modeStacks = ⟨[], [], t.titleStack, .noMode, options.kittyKeyboard⟩ := by
  obtain ⟨stack, inactive, keyboard, hrest, hkitty⟩ := h.rest
  rw [hrest]
  split at hkitty
  · obtain ⟨rfl, rfl, rfl⟩ := hkitty
    exact .inl rfl
  · obtain ⟨rfl, rfl, rfl⟩ := hkitty
    exact .inr rfl

theorem pushKeyboardMode_eq (h : t.config.kittyKeyboard = true → t.keyboardModeStack.length < keyboardModeStackMaxDepth)
    (mode : KeyboardModes) : t.pushKeyboardMode mode = some (if t.config.kittyKeyboard then
      { t with keyboardModeStack := t.keyboardModeStack ++ [mode], mode.keyboard := mode } else t) := by
  unfold pushKeyboardMode
  split
  · next hkitty =>
      rw [if_neg (Nat.not_le.mpr (h hkitty))]
      rfl
  · rfl

/-- A full stack makes the push drop a title, and the modes exceed their depth. -/
theorem pushKeyboardMode_full (hkitty : t.config.kittyKeyboard = true)
    (hfull : keyboardModeStackMaxDepth ≤ t.keyboardModeStack.length) (mode : KeyboardModes) :
    t.pushKeyboardMode mode = t.titleStack.tail?.map fun titleStack => { t with
      titleStack, keyboardModeStack := t.keyboardModeStack ++ [mode], mode.keyboard := mode } := by
  unfold pushKeyboardMode
  rw [if_pos hkitty, if_pos hfull]
  cases t.titleStack with
  | nil => rfl
  | cons => rfl

/-- A push does what a bounded stack does, and leaves the titles alone, exactly if there
is room. -/
theorem pushKeyboardMode_bounded_iff (hkitty : t.config.kittyKeyboard = true) (mode : KeyboardModes) :
    (Returns (t.pushKeyboardMode mode) fun t' => t'.titleStack = t.titleStack ∧
      t'.keyboardModeStack = pushBounded keyboardModeStackMaxDepth t.keyboardModeStack mode) ↔
        t.keyboardModeStack.length < keyboardModeStackMaxDepth := by
  refine ⟨fun h => ?_, fun h => ?_⟩
  · by_contra hfull
    obtain ⟨t', ht', htitles, -⟩ := h
    rw [pushKeyboardMode_full hkitty (Nat.not_lt.mp hfull), Option.map_eq_some_iff] at ht'
    obtain ⟨titles, htail, rfl⟩ := ht'
    have hlength := congrArg List.length htitles
    cases hstack : t.titleStack with
    | nil =>
        rw [hstack] at htail
        cases htail
    | cons title rest =>
        rw [hstack] at htail hlength
        cases htail
        simp at hlength
  · rw [pushKeyboardMode_eq fun _ => h, if_pos hkitty]
    exact .pure ⟨rfl, by rw [pushBounded, if_neg (Nat.not_le.mpr h)]⟩

/-- Both keyboard mode stacks keep their depth. -/
structure Stacks.Bounded (s : Stacks) : Prop where
  active : s.active.length ≤ keyboardModeStackMaxDepth
  inactive : s.inactive.length ≤ keyboardModeStackMaxDepth

theorem Swapped.bounded (h : Swapped t t') (hp : t.modeStacks.Bounded) : t'.modeStacks.Bounded := by
  rw [h.modeStacks]
  exact ⟨hp.inactive, hp.active⟩

theorem swapAltIf_returns (ht : t.WF) (b : Bool) :
    Returns (t.swapAltIf b) fun t' => t' = t ∨ Swapped t t' := by
  unfold swapAltIf
  split
  · exact (swapAlt_returns ht).mono fun _ => .inr
  · exact .pure (.inl rfl)

theorem bounded_swapAltIf (h : t' = t ∨ Swapped t t') (hp : t.modeStacks.Bounded) : t'.modeStacks.Bounded := by
  rcases h with rfl | h
  · exact hp
  · exact h.bounded hp

/-- What a call does to the stacks: they keep their depth, calls about the keyboard leave
the titles alone, and a push drops the oldest mode only. -/
structure StacksKept (t : Term) (op : TermOp) (t' : Term) : Prop where
  bounded : t.modeStacks.Bounded → t'.modeStacks.Bounded
  titles : op.OnKeyboard → t'.titleStack = t.titleStack
  pushed : ∀ mode, op = .handler (.pushKeyboardMode mode) → t.config.kittyKeyboard = true →
    t'.keyboardModeStack = pushBounded keyboardModeStackMaxDepth t.keyboardModeStack mode

theorem step_stacksKept (ht : t.WF) {op : TermOp} (hop : op.OnStacks) (hroom : op.HasRoom t) :
    Returns (op.step env t) (StacksKept t op) := by
  -- Only a push says something about pushes, and only calls about the keyboard about titles.
  have hother {t' : Term} (hb : t.modeStacks.Bounded → t'.modeStacks.Bounded)
      (htitles : op.OnKeyboard → t'.titleStack = t.titleStack)
      (hpush : ∀ mode, op ≠ .handler (.pushKeyboardMode mode)) : StacksKept t op t' :=
    ⟨hb, htitles, fun mode heq => absurd heq (hpush mode)⟩
  cases op with
  | handler op =>
      cases op with
      | pushKeyboardMode mode =>
          rw [TermOp.step, HandlerOp.step, pushKeyboardMode_eq hroom]
          refine .pure ⟨fun hb => ?_, fun _ => ?_, fun mode' heq hkitty => ?_⟩
          · split
            · next hkitty =>
                refine ⟨?_, hb.inactive⟩
                have hlt := hroom hkitty
                simp only [modeStacks, List.length_append, List.length_singleton]
                omega
            · exact hb
          · split <;> rfl
          · cases heq
            rw [if_pos hkitty, pushBounded, if_neg (Nat.not_le.mpr (hroom hkitty))]
      | popKeyboardModes toPop =>
          refine .pure (hother (fun hb => ?_) (fun _ => ?_) fun mode heq => by cases heq)
          · simp only [popKeyboardModes]
            split
            · exact ⟨Nat.le_trans (List.length_take_le' _ _) hb.active, hb.inactive⟩
            · exact hb
          · simp only [popKeyboardModes]
            split <;> rfl
      | setKeyboardMode mode apply =>
          refine .pure (hother (fun hb => ?_) (fun _ => ?_) fun mode heq => by cases heq)
          · simp only [Term.setKeyboardMode]
            split <;> exact ⟨hb.active, hb.inactive⟩
          · simp only [Term.setKeyboardMode]
            split <;> rfl
      | reportKeyboardMode =>
          refine .pure (hother (fun hb => ?_) (fun _ => ?_) fun mode heq => by cases heq)
          · simp only [Term.reportKeyboardMode]
            split <;> exact ⟨hb.active, hb.inactive⟩
          · simp only [Term.reportKeyboardMode]
            split <;> rfl
      | pushTitle =>
          exact .pure (hother (fun hb => ⟨hb.active, hb.inactive⟩) False.elim fun mode heq => by cases heq)
      | popTitle =>
          refine .pure (hother (fun hb => ?_) False.elim fun mode heq => by cases heq)
          simp only [Term.popTitle]
          split <;> exact ⟨hb.active, hb.inactive⟩
      | resetState =>
          refine (resetState_returns ht).mono fun t' h =>
            hother (fun _ => ?_) False.elim fun mode heq => by cases heq
          rw [h.modeStacks]
          exact ⟨Nat.zero_le _, Nat.zero_le _⟩
      | setPrivateMode mode =>
          cases mode with
          | unknown _ => exact hop.elim
          | named mode =>
              cases mode with
              | swapScreenAndSetRestoreCursor =>
                  exact (swapAltIf_returns ht false).mono fun t' h =>
                    hother (bounded_swapAltIf h) False.elim fun mode heq => by cases heq
              | _ => exact hop.elim
      | unsetPrivateMode mode =>
          cases mode with
          | unknown _ => exact hop.elim
          | named mode =>
              cases mode with
              | swapScreenAndSetRestoreCursor =>
                  exact (swapAltIf_returns ht true).mono fun t' h =>
                    hother (bounded_swapAltIf h) False.elim fun mode heq => by cases heq
              | _ => exact hop.elim
      | _ => exact hop.elim
  | swapAlt =>
      exact (swapAlt_returns ht).mono fun t' h =>
        hother h.bounded False.elim fun mode heq => by cases heq
  | setOptions options =>
      refine (setOptions_returns ht options).mono fun t' h =>
        hother (fun hb => ?_) False.elim fun mode heq => by cases heq
      rcases h.modeStacks with heq | heq
      · rw [heq]
        exact ⟨hb.active, hb.inactive⟩
      · rw [heq]
        exact ⟨Nat.zero_le _, Nat.zero_le _⟩
  | _ => exact hop.elim

/-- In every run without a push onto a full stack, both keyboard mode stacks keep their
depth, and the next such call returns; a push adds its mode, dropping at most the oldest,
and no call about the keyboard touches the titles. -/
theorem run_keyboardStacks {config : Config} {lines columns : Nat} (hl : 1 ≤ lines) (hc : 2 ≤ columns)
    (h : Reaches (TermOp.step env) (fun t op => op.OnStacks ∧ op.HasRoom t)
      (new config lines columns) t) :
    t.keyboardModeStack.length ≤ keyboardModeStackMaxDepth ∧
      t.inactiveKeyboardModeStack.length ≤ keyboardModeStackMaxDepth ∧
      ∀ op : TermOp, op.OnStacks → op.HasRoom t → Returns (op.step env t) fun t' =>
        (op.OnKeyboard → t'.titleStack = t.titleStack) ∧
          ∀ mode, op = .handler (.pushKeyboardMode mode) → t.config.kittyKeyboard = true →
            t'.keyboardModeStack =
              pushBounded keyboardModeStackMaxDepth t.keyboardModeStack mode := by
  have hinv : t.WF ∧ t.modeStacks.Bounded := by
    refine h.invariant (P := fun t => t.WF ∧ t.modeStacks.Bounded)
      ⟨new_wf config hl hc, Nat.zero_le _, Nat.zero_le _⟩ fun s op s' hs hop hstep => ?_
    exact ⟨(TermOp.step_stepped env hs.1 hop.1.admissible _ hstep).wf hs.1,
      ((step_stacksKept hs.1 hop.1 hop.2).of_eq hstep).bounded hs.2⟩
  obtain ⟨hwf, hbounded⟩ := hinv
  refine ⟨hbounded.active, hbounded.inactive, fun op hop hroom => ?_⟩
  exact (step_stacksKept hwf hop hroom).mono fun t' h => ⟨h.titles, h.pushed⟩

def newKitty : Term := new { Config.initial with kittyKeyboard := true } 1 2

/-- Pushing one mode, and another one. -/
theorem run_keyboardStacks_pushed : ∃ t t' : Term,
    Reaches (TermOp.step .ascii) (fun t op => op.OnStacks ∧ op.HasRoom t) newKitty t ∧
      (TermOp.handler (.pushKeyboardMode .noMode)).step .ascii t = some t' ∧
      t'.keyboardModeStack = pushBounded keyboardModeStackMaxDepth t.keyboardModeStack .noMode := by
  have hrun : Reaches (TermOp.step .ascii) (fun t op => op.OnStacks ∧ op.HasRoom t) newKitty _ :=
    .step .refl (a := .handler (.pushKeyboardMode ⟨true, false, false, false, false⟩))
      (And.intro trivial fun _ => by decide) rfl
  obtain ⟨-, -, hnext⟩ := run_keyboardStacks (by decide) (by decide) hrun
  obtain ⟨t', ht', -, hpush⟩ :=
    hnext (.handler (.pushKeyboardMode .noMode)) trivial fun _ => by decide
  exact ⟨_, t', hrun, ht', hpush _ rfl rfl⟩

theorem reaches_pushed {P : Term → TermOp → Prop}
    (hpush : ∀ t, P t (.handler (.pushKeyboardMode .noMode))) (n : Nat) (h : n ≤ keyboardModeStackMaxDepth) :
    Reaches (TermOp.step .ascii) P newKitty
      { newKitty with keyboardModeStack := List.replicate n .noMode } := by
  induction n with
  | zero => exact .refl
  | succ n ih =>
      refine .step (ih (Nat.le_of_succ_le h)) (hpush _) ?_
      have hroom : (List.replicate n KeyboardModes.noMode).length < keyboardModeStackMaxDepth := by
        rw [List.length_replicate]
        exact h
      rw [TermOp.step, HandlerOp.step, pushKeyboardMode_eq fun _ => hroom, List.replicate_succ']
      rfl

/-- The push after the stack is full panics if no title was pushed. -/
theorem full_push_panics : ∃ t : Term,
    Reaches (TermOp.step .ascii) (fun _ op => op.OnStacks) newKitty t ∧
      t.keyboardModeStack.length = keyboardModeStackMaxDepth ∧
      (TermOp.handler (.pushKeyboardMode .noMode)).step .ascii t = none := by
  obtain ⟨n, hn⟩ : ∃ n, n = keyboardModeStackMaxDepth := ⟨_, rfl⟩
  have hrun := reaches_pushed (P := fun _ op => op.OnStacks) (fun _ => trivial) n (Nat.le_of_eq hn)
  have hlength : (List.replicate n KeyboardModes.noMode).length = n := List.length_replicate
  refine ⟨_, hrun, hlength.trans hn, ?_⟩
  have hfull : keyboardModeStackMaxDepth ≤ (List.replicate n KeyboardModes.noMode).length :=
    Nat.le_of_eq (hlength.trans hn).symm
  exact pushKeyboardMode_full (t := { newKitty with keyboardModeStack := List.replicate n .noMode }) rfl
    hfull _

/-! ### The active mode -/

def Stacks.Agree (s : Stacks) : Prop := s.flags = s.active.getLast?.getD .noMode

theorem Swapped.agree (h : Swapped t t') : t'.modeStacks.Agree := by
  rw [h.modeStacks]
  exact rfl

theorem agree_swapAltIf (h : t' = t ∨ Swapped t t') (hp : t.modeStacks.Agree) : t'.modeStacks.Agree := by
  rcases h with rfl | h
  · exact hp
  · exact h.agree

/-- A call keeps the active mode on top of the stack exactly if it sets no other one. -/
theorem step_agree_iff (ht : t.WF) (hp : t.modeStacks.Agree) {op : TermOp} (hop : op.OnStacks) :
    Allows (op.step env t) fun t' => t'.modeStacks.Agree ↔ op.KeepsFlags t := by
  cases op with
  | handler op =>
      cases op with
      | pushKeyboardMode mode =>
          refine Allows.mono (P := fun t' => t'.modeStacks.Agree) ?_ fun _ h => iff_of_true h trivial
          intro t' ht'
          simp only [TermOp.step, HandlerOp.step, pushKeyboardMode] at ht'
          split at ht'
          · simp only [Option.bind_eq_bind, Option.bind_eq_some_iff, Option.some.injEq] at ht'
            obtain ⟨a, -, rfl⟩ := ht'
            have htop : (a.keyboardModeStack ++ [mode]).getLast? = some mode := List.getLast?_concat
            simp only [Stacks.Agree, modeStacks, applyKeyboardMode, htop, Option.getD_some]
          · exact Option.some.inj ht' ▸ hp
      | popKeyboardModes toPop =>
          refine .pure (iff_of_true ?_ trivial)
          simp only [popKeyboardModes]
          split
          · exact rfl
          · exact hp
      | setKeyboardMode mode apply =>
          refine .pure ?_
          simp only [Term.setKeyboardMode, TermOp.KeepsFlags]
          split
          · next hkitty =>
              have htop : t.keyboardModeStack.getLast?.getD .noMode = t.mode.keyboard := hp.symm
              simp only [Stacks.Agree, modeStacks, applyKeyboardMode, htop, hkitty, true_implies]
              cases apply <;> exact Iff.rfl
          · next hkitty => exact iff_of_true hp fun h => absurd h hkitty
      | reportKeyboardMode =>
          refine .pure (iff_of_true ?_ trivial)
          simp only [Term.reportKeyboardMode]
          split <;> exact hp
      | pushTitle => exact .pure (iff_of_true hp trivial)
      | popTitle =>
          refine .pure (iff_of_true ?_ trivial)
          simp only [Term.popTitle]
          split <;> exact hp
      | resetState =>
          refine (resetState_returns ht).allows.mono fun t' h => iff_of_true ?_ trivial
          rw [h.modeStacks]
          exact rfl
      | setPrivateMode mode =>
          cases mode with
          | unknown _ => exact hop.elim
          | named mode =>
              cases mode with
              | swapScreenAndSetRestoreCursor =>
                  exact (swapAltIf_returns ht false).allows.mono fun t' h =>
                    iff_of_true (agree_swapAltIf h hp) trivial
              | _ => exact hop.elim
      | unsetPrivateMode mode =>
          cases mode with
          | unknown _ => exact hop.elim
          | named mode =>
              cases mode with
              | swapScreenAndSetRestoreCursor =>
                  exact (swapAltIf_returns ht true).allows.mono fun t' h =>
                    iff_of_true (agree_swapAltIf h hp) trivial
              | _ => exact hop.elim
      | _ => exact hop.elim
  | swapAlt => exact (swapAlt_returns ht).allows.mono fun t' h => iff_of_true h.agree trivial
  | setOptions options =>
      refine (setOptions_returns ht options).allows.mono fun t' h => iff_of_true ?_ trivial
      rcases h.modeStacks with heq | heq
      · rw [heq]
        exact hp
      · rw [heq]
        exact rfl
  | _ => exact hop.elim

/-- In every run that sets no other mode than the active one, the report has the flags
that are active. -/
theorem run_report {config : Config} {lines columns : Nat} (hl : 1 ≤ lines) (hc : 2 ≤ columns)
    (h : Reaches (TermOp.step env) (fun t op => op.OnStacks ∧ op.KeepsFlags t)
      (new config lines columns) t) (hkitty : t.config.kittyKeyboard = true) :
    let bits := t.mode.keyboard.bits
    t.reportKeyboardMode = t.ptyWrite s!"\x1b[?{bits}u" := by
  have hinv : t.WF ∧ t.modeStacks.Agree := by
    refine h.invariant (P := fun t => t.WF ∧ t.modeStacks.Agree)
      ⟨new_wf config hl hc, rfl⟩ fun s op s' hs hop hstep => ?_
    exact ⟨(TermOp.step_stepped env hs.1 hop.1.admissible _ hstep).wf hs.1,
      (step_agree_iff hs.1 hs.2 hop.1 _ hstep).mpr hop.2⟩
  have hagree : t.mode.keyboard = t.keyboardModeStack.getLast?.getD .noMode := hinv.2
  simp only [reportKeyboardMode, hkitty, if_true, hagree]

/-- A pushed mode is reported. -/
theorem run_report_pushed : ∃ t : Term,
    Reaches (TermOp.step .ascii) (fun t op => op.OnStacks ∧ op.KeepsFlags t) newKitty t ∧
      t.mode.keyboard.bits = 1 ∧ t.reportKeyboardMode = t.ptyWrite "\x1b[?1u" := by
  have hrun : Reaches (TermOp.step .ascii) (fun t op => op.OnStacks ∧ op.KeepsFlags t) newKitty _ :=
    .step .refl (a := .handler (.pushKeyboardMode ⟨true, false, false, false, false⟩))
      (And.intro trivial trivial) rfl
  exact ⟨_, hrun, rfl, run_report (by decide) (by decide) hrun rfl⟩

/-- A mode that is set, not pushed, is active but not reported. -/
theorem report_misses_set_mode : ∃ t : Term,
    Reaches (TermOp.step .ascii) (fun _ op => op.OnStacks) newKitty t ∧
      t.config.kittyKeyboard = true ∧ t.mode.keyboard.bits = 1 ∧
      t.reportKeyboardMode = t.ptyWrite "\x1b[?0u" ∧
      t.reportKeyboardMode ≠ t.ptyWrite "\x1b[?1u" := by
  have hrun : Reaches (TermOp.step .ascii) (fun _ op => op.OnStacks) newKitty _ :=
    .step .refl (a := .handler (.setKeyboardMode ⟨true, false, false, false, false⟩ .replace)) trivial rfl
  refine ⟨_, hrun, rfl, rfl, rfl, fun h => ?_⟩
  exact absurd (congrArg Term.events h) (by decide)

end Term
end Velacritty
