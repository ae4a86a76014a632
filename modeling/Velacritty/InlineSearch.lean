import Velacritty.SemanticSearch
import Velacritty.ViCursor

/-! Jumps of the vi mode cursor to a character within its line. -/
namespace Velacritty
open Fallible

def Side.opposite : Side → Side
  | .left => .right
  | .right => .left

structure InlineSearchState where
  /-- Whether inline search is currently waiting for search character input. -/
  charPending : Bool := false
  character : Option Char := none
  direction : Side := .right
  stopShort : Bool := false
  deriving DecidableEq, Repr

structure InlineSearch where
  terminal : Term
  inlineSearchState : InlineSearchState
  imeAllowed : Bool
  dirty : Bool

/-- An action, or a text that was typed or pasted. -/
inductive InlineSearchOp where
  | start (direction : Side) (stopShort : Bool)
  | next
  | previous
  | text (text : List Char)
  deriving DecidableEq, Repr

namespace InlineSearch

def startInlineSearch (s : InlineSearch) (direction : Side) (stopShort : Bool) : InlineSearch :=
  { s with inlineSearchState := { charPending := true, character := none, direction, stopShort } }

/-- Where a search goes whose match is at a point. -/
def goal (t : Term) (direction : Side) (stopShort : Bool) (point : Point) : Option Point :=
  if stopShort then
    match direction with
    | .right => (t.grid.iterFrom point).prev.map fun (item, _) => item.elim point Prod.fst
    | .left => (t.grid.iterFrom point).next.map fun (item, _) => item.elim point Prod.fst
  else some point

def inlineSearch (s : InlineSearch) (direction : Side) : Option InlineSearch :=
  match s.inlineSearchState.character with
  | none => some s
  | some c => do
      let viPoint := s.terminal.viModeCursor
      let point ← (match direction with
        | .right => s.terminal.inlineSearchRight viPoint [c]
        | .left => s.terminal.inlineSearchLeft viPoint [c])
      match point with
      | .error _ => some s
      | .ok point =>
          let point ← goal s.terminal direction s.inlineSearchState.stopShort point
          some { s with terminal := s.terminal.viGotoPoint point, dirty := true }

def inlineSearchNext (s : InlineSearch) : Option InlineSearch :=
  s.inlineSearch s.inlineSearchState.direction

def inlineSearchPrevious (s : InlineSearch) : Option InlineSearch :=
  s.inlineSearch s.inlineSearchState.direction.opposite

def inlineSearchInput (s : InlineSearch) (text : List Char) : Option InlineSearch :=
  match text with
  | [] => some s
  | c :: _ =>
      { s with
        inlineSearchState := { s.inlineSearchState with charPending := false, character := some c }
        imeAllowed := false }.inlineSearchNext

def step (s : InlineSearch) : InlineSearchOp → Option InlineSearch
  | .start direction stopShort => some (s.startInlineSearch direction stopShort)
  | .next => s.inlineSearchNext
  | .previous => s.inlineSearchPrevious
  | .text text => if s.inlineSearchState.charPending then s.inlineSearchInput text else some s

end InlineSearch

/-! ### Where a search leads -/

namespace Term
variable {t t' : Term} {c : Char} {i j k : Nat} {direction : Side} {short : Bool}

/-- The nearest cell in a direction that has the character, with no end of a line in between. -/
inductive Nearest (t : Term) (c : Char) (i : Nat) : Side → Nat → Prop
  | right {j : Nat} (gt : i < j) (lt : j < t.dims.cells) (found : t.Matches [c] j)
      (none : ∀ k, i < k → k < j → ¬ t.Matches [c] k) (goes : ∀ k, i ≤ k → k < j → ¬ t.Breaks k) :
      Nearest t c i .right j
  | left {j : Nat} (lt : j < i) (found : t.Matches [c] j)
      (none : ∀ k, j < k → k < i → ¬ t.Matches [c] k) (goes : ∀ k, j ≤ k → k < i → ¬ t.Breaks k) :
      Nearest t c i .left j

/-- The cell that a search stops at: the match, or the one before it. -/
def stopAt : Side → Bool → Nat → Nat
  | _, false, j => j
  | .right, true, j => j - 1
  | .left, true, j => j + 1

/-- Where a search for a character from a cell leaves the cursor. -/
inductive Jumped (t : Term) (c : Char) (i : Nat) (direction : Side) (short : Bool) : Nat → Prop
  | found {j : Nat} (nearest : t.Nearest c i direction j) : Jumped t c i direction short (stopAt direction short j)
  | missed (none : ∀ j, ¬ t.Nearest c i direction j) : Jumped t c i direction short i

/-- No line ends between the two cells. -/
def SameLine (t : Term) (i j : Nat) : Prop := ∀ k, min i j ≤ k → k < max i j → ¬ t.Breaks k

theorem SameLine.refl (t : Term) (i : Nat) : t.SameLine i i := fun k hlo hhi => absurd hhi (by omega)

theorem SameLine.trans (h : t.SameLine i j) (h' : t.SameLine j k) : t.SameLine i k := by
  intro m hlo hhi
  by_cases hm : min i j ≤ m ∧ m < max i j
  · exact h m hm.1 hm.2
  · exact h' m (by omega) (by omega)

theorem Nearest.unique (h : t.Nearest c i direction j) (h' : t.Nearest c i direction k) : j = k := by
  cases h with
  | right gt lt found none goes =>
      obtain ⟨gt', lt', found', none', goes'⟩ := h'
      rcases Nat.lt_trichotomy j k with hlt | heq | hgt
      · exact absurd found (none' j gt hlt)
      · exact heq
      · exact absurd found' (none k gt' hgt)
  | left lt found none goes =>
      obtain - | ⟨lt', found', none', goes'⟩ := h'
      rcases Nat.lt_trichotomy j k with hlt | heq | hgt
      · exact absurd found' (none k hlt lt')
      · exact heq
      · exact absurd found (none' j hgt lt)

/-- A search leads to one cell. -/
theorem Jumped.unique (h : t.Jumped c i direction short j) (h' : t.Jumped c i direction short k) : j = k := by
  cases h with
  | found nearest =>
      cases h' with
      | found nearest' => rw [nearest.unique nearest']
      | missed none => exact absurd nearest (none _)
  | missed none =>
      cases h' with
      | found nearest' => exact absurd nearest' (none _)
      | missed _ => rfl

theorem Nearest.stopAt (h : t.Nearest c i direction j) (hi : i < t.dims.cells) (short : Bool) :
    stopAt direction short j < t.dims.cells ∧ t.SameLine i (stopAt direction short j) := by
  cases h with
  | right gt lt found none goes =>
      have hstop : i ≤ stopAt .right short j ∧ stopAt .right short j ≤ j := by
        cases short <;> simp only [Term.stopAt] <;> omega
      exact ⟨by omega, fun k hlo hhi => goes k (by omega) (by omega)⟩
  | left lt found none goes =>
      have hstop : j ≤ stopAt .left short j ∧ stopAt .left short j ≤ i := by
        cases short <;> simp only [Term.stopAt] <;> omega
      exact ⟨by omega, fun k hlo hhi => goes k (by omega) (by omega)⟩

theorem Jumped.sameLine (h : t.Jumped c i direction short j) (hi : i < t.dims.cells) :
    j < t.dims.cells ∧ t.SameLine i j := by
  cases h with
  | found nearest => exact nearest.stopAt hi short
  | missed _ => exact ⟨hi, .refl t i⟩

/-- A search that stops before its match finds the same one again. -/
theorem Jumped.again (h : t.Jumped c i direction true j) (h' : t.Jumped c j direction true k) : k = j := by
  cases h with
  | missed none => exact h'.unique (.missed none)
  | @found m nearest =>
      cases nearest with
      | right gt lt found none goes =>
          have hnearest : t.Nearest c (m - 1) .right m :=
            .right (by omega) lt found (fun k hk hkm => absurd hk (by omega))
              fun k hk hkm => goes k (by omega) hkm
          exact h'.unique (.found hnearest)
      | left lt found none goes =>
          have hnearest : t.Nearest c (m + 1) .left m :=
            .left (by omega) found (fun k hk hkm => absurd hk (by omega))
              fun k hk hkm => goes k hk (by omega)
          exact h'.unique (.found hnearest)

theorem FoundRight.nearest_iff {r : Except Point Point} (h : t.FoundRight [c] i r) :
    (∃ j, r = .ok (t.dims.point j) ∧ t.Nearest c i .right j) ∨
      (∃ p, r = .error p) ∧ ∀ j, ¬ t.Nearest c i .right j := by
  cases h with
  | ok gt lt found none goes => exact .inl ⟨_, rfl, .right gt lt found none goes⟩
  | @error j le lt none goes stop =>
      refine .inr ⟨⟨_, rfl⟩, fun k hnearest => ?_⟩
      obtain ⟨gt, lt', found, -, goes'⟩ := hnearest
      by_cases hkj : k ≤ j
      · exact none k gt hkj found
      · rcases stop with hlast | hbreak
        · omega
        · exact goes' j le (by omega) hbreak

theorem FoundLeft.nearest_iff {r : Except Point Point} (h : t.FoundLeft [c] i r) :
    (∃ j, r = .ok (t.dims.point j) ∧ t.Nearest c i .left j) ∨
      (∃ p, r = .error p) ∧ ∀ j, ¬ t.Nearest c i .left j := by
  cases h with
  | @ok j lt found goes none =>
      refine .inl ⟨_, rfl, .left lt found (fun k hjk hki => (none k hjk hki).1) fun k hjk hki => ?_⟩
      by_cases heq : k = j
      · exact heq ▸ goes
      · exact (none k (by omega) hki).2
  | @error j le none start =>
      refine .inr ⟨⟨_, rfl⟩, fun k hnearest => ?_⟩
      obtain - | ⟨lt, found, -, goes⟩ := hnearest
      by_cases hjk : j ≤ k
      · exact (none k hjk lt).1 found
      · rcases start with hfirst | hbreak
        · omega
        · exact goes (j - 1) (by omega) (by omega) hbreak

theorem Viewed.cellNo (h : Viewed t t') (i : Nat) : t'.grid.cellNo i = t.grid.cellNo i := by
  have hgrid : t'.grid = { t.grid with displayOffset := t'.grid.displayOffset } :=
    congrArg Term.grid h.rest
  rw [hgrid]
  rfl

theorem Viewed.breaks (h : Viewed t t') (i : Nat) : t'.Breaks i ↔ t.Breaks i := by
  have hlast : t'.lastColumn = t.lastColumn := congrArg Dimensions.lastColumn h.dims
  rw [Breaks, Breaks, h.cellNo, h.dims, hlast]

theorem Viewed.matches (h : Viewed t t') (needles : List Char) (i : Nat) :
    t'.Matches needles i ↔ t.Matches needles i := by
  rw [Matches, Matches, h.cellNo]

theorem Viewed.nearest (h : Viewed t t') : t'.Nearest c i direction j ↔ t.Nearest c i direction j := by
  constructor
  · rintro (⟨gt, lt, found, none, goes⟩ | ⟨lt, found, none, goes⟩)
    · simp only [h.matches, h.breaks, h.dims] at lt found none goes
      exact .right gt lt found none goes
    · simp only [h.matches, h.breaks] at found none goes
      exact .left lt found none goes
  · rintro (⟨gt, lt, found, none, goes⟩ | ⟨lt, found, none, goes⟩)
    · simp only [← h.matches, ← h.breaks, ← h.dims] at lt found none goes
      exact .right gt lt found none goes
    · simp only [← h.matches, ← h.breaks] at found none goes
      exact .left lt found none goes

theorem Viewed.jumped (h : Viewed t t') (hjump : t'.Jumped c i direction short j) :
    t.Jumped c i direction short j := by
  cases hjump with
  | found nearest => exact .found (h.nearest.mp nearest)
  | missed none => exact .missed fun j hnearest => none j (h.nearest.mpr hnearest)

end Term

/-! ### The cursor over a run -/

namespace InlineSearch
variable {s s' : InlineSearch} {t : Term} {c : Char} {i j : Nat} {direction : Side} {short : Bool}

/-- A search that stops before its match goes one cell back from it. -/
theorem goal_returns (h : t.grid.WF) (hi : i < t.dims.cells) (hj : t.Nearest c i direction j) :
    goal t direction short (t.dims.point j) = some (t.dims.point (Term.stopAt direction short j)) := by
  cases short with
  | false => rfl
  | true =>
      cases hj with
      | right gt lt found none goes =>
          obtain ⟨cell, hcell⟩ := Grid.cellNo_isSome h (show j - 1 < t.dims.cells by omega)
          simp only [goal, if_true, Term.iterFrom_prev h lt, if_pos (show 0 < j by omega), hcell,
            Option.map_some, Option.elim_some, Term.stopAt]
      | left lt found none goes =>
          obtain ⟨cell, hcell⟩ := Grid.cellNo_isSome h (show j + 1 < t.dims.cells by omega)
          simp only [goal, if_true, Term.iterFrom_next h (show j < t.dims.cells by omega),
            if_pos (show j + 1 < t.dims.cells by omega), hcell, Option.map_some, Option.elim_some,
            Term.stopAt]

/-- The search changes the view of the terminal only, and leaves its cursor at a cell. -/
structure Leads (s : InlineSearch) (j : Nat) (s' : InlineSearch) : Prop where
  viewed : Term.Viewed s.terminal s'.terminal
  cursor : s'.terminal.viModeCursor = s.terminal.dims.point j
  state : s'.inlineSearchState = s.inlineSearchState

theorem viGotoPoint_cursor (t : Term) (point : Point) : (t.viGotoPoint point).viModeCursor = point := by
  obtain ⟨-, -, hcursor⟩ :=
    Term.viModeRecomputeSelection_same { t.scrollToPoint point with viModeCursor := point }
  rw [Term.viGotoPoint, hcursor]

theorem inlineSearch_returns (h : s.terminal.grid.WF) (hi : i < s.terminal.dims.cells)
    (hcursor : s.terminal.viModeCursor = s.terminal.dims.point i)
    (hc : s.inlineSearchState.character = some c) :
    Returns (s.inlineSearch direction) fun s' => ∃ j, s.Leads j s' ∧
      s.terminal.Jumped c i direction s.inlineSearchState.stopShort j := by
  have hfound : Returns (match direction with
      | .right => s.terminal.inlineSearchRight (s.terminal.dims.point i) [c]
      | .left => s.terminal.inlineSearchLeft (s.terminal.dims.point i) [c]) fun r =>
      (∃ j, r = .ok (s.terminal.dims.point j) ∧ s.terminal.Nearest c i direction j) ∨
        (∃ p, r = .error p) ∧ ∀ j, ¬ s.terminal.Nearest c i direction j := by
    cases direction with
    | right => exact (Term.inlineSearchRight_returns h hi [c]).mono fun r hr => hr.nearest_iff
    | left => exact (Term.inlineSearchLeft_returns h hi [c]).mono fun r hr => hr.nearest_iff
  simp only [inlineSearch, hc, hcursor]
  refine hfound.bind fun r hr => ?_
  rcases hr with ⟨j, rfl, hnearest⟩ | ⟨⟨p, rfl⟩, hnone⟩
  · simp only [goal_returns h hi hnearest, Option.bind_eq_bind, Option.bind_some]
    exact .pure ⟨_, ⟨Term.viGotoPoint_viewed _ _, viGotoPoint_cursor _ _, rfl⟩, .found hnearest⟩
  · exact .pure ⟨i, ⟨.refl _, hcursor, rfl⟩, .missed hnone⟩

end InlineSearch

/-- What a text or an action does to the state and the number of the cursor's cell, in the terms of
the line. -/
inductive InlineSearchState.Step (t : Term) :
    InlineSearchOp → Nat × InlineSearchState → Nat × InlineSearchState → Prop
  | start {direction short i state} :
      Step t (.start direction short) (i, state) (i, ⟨true, none, direction, short⟩)
  | next {state c i j} (hc : state.character = some c)
      (jumped : t.Jumped c i state.direction state.stopShort j) : Step t .next (i, state) (j, state)
  | previous {state c i j} (hc : state.character = some c)
      (jumped : t.Jumped c i state.direction.opposite state.stopShort j) :
      Step t .previous (i, state) (j, state)
  | unset {op state i} (hop : op = .next ∨ op = .previous) (hc : state.character = none) :
      Step t op (i, state) (i, state)
  | text {state c rest i j} (pending : state.charPending = true)
      (jumped : t.Jumped c i state.direction state.stopShort j) :
      Step t (.text (c :: rest)) (i, state) (j, { state with charPending := false, character := some c })
  | ignored {state text i} (h : state.charPending = false ∨ text = []) :
      Step t (.text text) (i, state) (i, state)

/-- What the texts and actions of a run do, one after the other. -/
def InlineSearchState.Steps (t : Term) :
    List InlineSearchOp → Nat × InlineSearchState → Nat × InlineSearchState → Prop
  | [], a, b => b = a
  | op :: ops, a, b => ∃ m, Step t op a m ∧ Steps t ops m b

namespace InlineSearchState
variable {t t' : Term} {op : InlineSearchOp} {a b b' : Nat × InlineSearchState}

theorem Step.unique (h : Step t op a b) (h' : Step t op a b') : b' = b := by
  cases h with
  | start =>
      cases h' with
      | start => rfl
      | unset hop _ => rcases hop with hop | hop <;> cases hop
  | next hc jumped =>
      cases h' with
      | next hc' jumped' =>
          obtain rfl := Option.some.inj (hc.symm.trans hc')
          rw [jumped.unique jumped']
      | unset _ hc' => cases hc.symm.trans hc'
  | previous hc jumped =>
      cases h' with
      | previous hc' jumped' =>
          obtain rfl := Option.some.inj (hc.symm.trans hc')
          rw [jumped.unique jumped']
      | unset _ hc' => cases hc.symm.trans hc'
  | unset hop hc =>
      cases h' with
      | start => rcases hop with hop | hop <;> cases hop
      | next hc' _ => cases hc.symm.trans hc'
      | previous hc' _ => cases hc.symm.trans hc'
      | unset _ _ => rfl
      | text _ _ => rcases hop with hop | hop <;> cases hop
      | ignored _ => rfl
  | text pending jumped =>
      cases h' with
      | unset hop _ => rcases hop with hop | hop <;> cases hop
      | text _ jumped' => rw [jumped.unique jumped']
      | ignored h =>
          rcases h with hpending | hempty
          · cases pending.symm.trans hpending
          · cases hempty
  | ignored h =>
      cases h' with
      | unset _ _ => rfl
      | text pending _ =>
          rcases h with hpending | hempty
          · cases pending.symm.trans hpending
          · cases hempty
      | ignored _ => rfl

theorem Step.viewed (hview : Term.Viewed t t') (h : Step t' op a b) : Step t op a b := by
  cases h with
  | start => exact .start
  | next hc jumped => exact .next hc (hview.jumped jumped)
  | previous hc jumped => exact .previous hc (hview.jumped jumped)
  | unset hop hc => exact .unset hop hc
  | text pending jumped => exact .text pending (hview.jumped jumped)
  | ignored h => exact .ignored h

theorem Step.sameLine (h : Step t op a b) (ha : a.1 < t.dims.cells) :
    b.1 < t.dims.cells ∧ t.SameLine a.1 b.1 := by
  cases h with
  | next _ jumped => exact jumped.sameLine ha
  | previous _ jumped => exact jumped.sameLine ha
  | text _ jumped => exact jumped.sameLine ha
  | start => exact ⟨ha, .refl t _⟩
  | unset _ _ => exact ⟨ha, .refl t _⟩
  | ignored _ => exact ⟨ha, .refl t _⟩

theorem Steps.viewed (hview : Term.Viewed t t') {ops : List InlineSearchOp} (h : Steps t' ops a b) :
    Steps t ops a b := by
  induction ops generalizing a with
  | nil => exact h
  | cons op ops ih =>
      obtain ⟨m, hstep, hsteps⟩ := h
      exact ⟨m, hstep.viewed hview, ih hsteps⟩

theorem Steps.unique {ops : List InlineSearchOp} (h : Steps t ops a b) (h' : Steps t ops a b') : b' = b := by
  induction ops generalizing a with
  | nil => exact h'.trans h.symm
  | cons op ops ih =>
      obtain ⟨m, hstep, hsteps⟩ := h
      obtain ⟨m', hstep', hsteps'⟩ := h'
      obtain rfl := hstep.unique hstep'
      exact ih hsteps hsteps'

theorem Steps.sameLine {ops : List InlineSearchOp} (h : Steps t ops a b) (ha : a.1 < t.dims.cells) :
    b.1 < t.dims.cells ∧ t.SameLine a.1 b.1 := by
  induction ops generalizing a with
  | nil =>
      obtain rfl := h
      exact ⟨ha, .refl t _⟩
  | cons op ops ih =>
      obtain ⟨m, hstep, hsteps⟩ := h
      obtain ⟨hm, hline⟩ := hstep.sameLine ha
      obtain ⟨hb, hline'⟩ := ih hsteps hm
      exact ⟨hb, hline.trans hline'⟩

/-- Once a search that stops before its match has been made, it does not move the cursor again. -/
theorem Steps.stuck {i j : Nat} {state state' : InlineSearchState} (hshort : state.stopShort = true)
    (h : Step t .next (i, state) (j, state')) {n : Nat}
    (hsteps : Steps t (List.replicate n .next) (j, state') b) : b = (j, state') := by
  have hnext : ∀ m, Step t .next (j, state') m → m = (j, state') := by
    intro m hm
    cases h with
    | unset hop hc => exact Step.unique (.unset hop hc) hm
    | next hc jumped =>
        cases hm with
        | unset _ hc' => cases hc.symm.trans hc'
        | next hc' jumped' =>
            obtain rfl := Option.some.inj (hc.symm.trans hc')
            rw [hshort] at jumped jumped'
            rw [jumped.again jumped']
  induction n with
  | zero => exact hsteps
  | succ n ih =>
      obtain ⟨m, hm, hsteps⟩ := hsteps
      obtain rfl := hnext m hm
      exact ih hsteps

end InlineSearchState

namespace InlineSearch
variable {s : InlineSearch} {i : Nat}

theorem step_returns (h : s.terminal.grid.WF) (hi : i < s.terminal.dims.cells)
    (hcursor : s.terminal.viModeCursor = s.terminal.dims.point i) (op : InlineSearchOp) :
    Returns (s.step op) fun s' => Term.Viewed s.terminal s'.terminal ∧ ∃ j,
      s'.terminal.viModeCursor = s.terminal.dims.point j ∧
        InlineSearchState.Step s.terminal op (i, s.inlineSearchState) (j, s'.inlineSearchState) := by
  cases op with
  | start direction short => exact .pure ⟨.refl _, i, hcursor, .start⟩
  | next =>
      cases hc : s.inlineSearchState.character with
      | none =>
          simp only [step, inlineSearchNext, inlineSearch, hc]
          exact .pure ⟨.refl _, i, hcursor, .unset (.inl rfl) hc⟩
      | some c =>
          refine (inlineSearch_returns h hi hcursor hc).mono fun s' ⟨j, hleads, hjumped⟩ => ?_
          refine ⟨hleads.viewed, j, hleads.cursor, ?_⟩
          rw [hleads.state]
          exact .next hc hjumped
  | previous =>
      cases hc : s.inlineSearchState.character with
      | none =>
          simp only [step, inlineSearchPrevious, inlineSearch, hc]
          exact .pure ⟨.refl _, i, hcursor, .unset (.inr rfl) hc⟩
      | some c =>
          refine (inlineSearch_returns h hi hcursor hc).mono fun s' ⟨j, hleads, hjumped⟩ => ?_
          refine ⟨hleads.viewed, j, hleads.cursor, ?_⟩
          rw [hleads.state]
          exact .previous hc hjumped
  | text text =>
      simp only [step]
      split
      · next hpending =>
          cases text with
          | nil => exact .pure ⟨.refl _, i, hcursor, .ignored (.inr rfl)⟩
          | cons c rest =>
              refine (inlineSearch_returns (s := { s with
                inlineSearchState := { s.inlineSearchState with charPending := false, character := some c }
                imeAllowed := false }) h hi hcursor rfl).mono fun s' ⟨j, hleads, hjumped⟩ => ?_
              refine ⟨hleads.viewed, j, hleads.cursor, ?_⟩
              rw [hleads.state]
              exact .text hpending hjumped
      · next hpending => exact .pure ⟨.refl _, i, hcursor, .ignored (.inl (Bool.not_eq_true _ ▸ hpending))⟩

theorem run_returns (h : s.terminal.WF) (hi : i < s.terminal.dims.cells)
    (hcursor : s.terminal.viModeCursor = s.terminal.dims.point i) (ops : List InlineSearchOp) :
    Returns (runOps step s ops) fun s' => Term.Viewed s.terminal s'.terminal ∧ ∃ j,
      s'.terminal.viModeCursor = s.terminal.dims.point j ∧
        InlineSearchState.Steps s.terminal ops (i, s.inlineSearchState) (j, s'.inlineSearchState) := by
  induction ops generalizing s i with
  | nil => exact .pure ⟨.refl _, i, hcursor, rfl⟩
  | cons op ops ih =>
      refine (step_returns h.grid hi hcursor op).bind fun m ⟨hview, j, hj, hstep⟩ => ?_
      have hcells : j < m.terminal.dims.cells := hview.dims.symm ▸ (hstep.sameLine hi).1
      refine (ih (hview.wf h) hcells (hj.trans (by rw [hview.dims]))).mono fun s' ⟨hview', k, hk, hsteps⟩ => ?_
      rw [hview.dims] at hk
      exact ⟨hview.trans hview', k, hk, _, hstep, hsteps.viewed hview⟩

/-- Over a run of texts and actions the terminal changes its view only, and the cursor takes the
jumps within its line that the texts and actions stand for, and no others. -/
theorem run_exact (h : s.terminal.WF) (hcursor : s.terminal.InGrid s.terminal.viModeCursor)
    (ops : List InlineSearchOp) :
    Returns (runOps step s ops) fun s' => Term.Viewed s.terminal s'.terminal ∧
      s.terminal.InGrid s'.terminal.viModeCursor ∧
      s.terminal.SameLine (s.terminal.dims.index s.terminal.viModeCursor)
        (s.terminal.dims.index s'.terminal.viModeCursor) ∧
      ∀ b, InlineSearchState.Steps s.terminal ops
          (s.terminal.dims.index s.terminal.viModeCursor, s.inlineSearchState) b ↔
        b = (s.terminal.dims.index s'.terminal.viModeCursor, s'.inlineSearchState) := by
  obtain ⟨i, hi, hpoint⟩ := Term.InGrid.exists_index h.grid hcursor
  refine (run_returns h hi hpoint ops).mono fun s' ⟨hview, j, hj, hsteps⟩ => ?_
  obtain ⟨hcells, hline⟩ := hsteps.sameLine hi
  rw [hpoint, hj, Dimensions.index_point, Dimensions.index_point]
  refine ⟨hview, Dimensions.point_has h.grid.valid hcells, hline, fun b => ⟨hsteps.unique, ?_⟩⟩
  rintro rfl
  exact hsteps

/-- Two blanks to the right, and back to before the first of them. -/
theorem run_exact_blanks : ∃ s', runOps step ⟨Term.new .initial 1 5, {}, true, false⟩
      [.start .right false, .text [' '], .next, .start .left true, .text [' ']] = some s' ∧
    s'.terminal.viModeCursor = ⟨0, 2⟩ ∧ (Term.new .initial 1 5).SameLine 0 2 := by
  obtain ⟨s', hrun, -, -, hline, -⟩ := run_exact (s := ⟨Term.new .initial 1 5, {}, true, false⟩)
    (Term.new_wf .initial (by decide) (by decide)) (show _ ∧ _ ∧ _ by decide)
    [.start .right false, .text [' '], .next, .start .left true, .text [' ']]
  have hcursor : (runOps step ⟨Term.new .initial 1 5, {}, true, false⟩
      [.start .right false, .text [' '], .next, .start .left true, .text [' ']]).map
        (fun s => s.terminal.viModeCursor) = some ⟨0, 2⟩ := by decide
  rw [hrun] at hcursor
  have hcursor : s'.terminal.viModeCursor = ⟨0, 2⟩ := Option.some.inj hcursor
  rw [hcursor] at hline
  exact ⟨s', hrun, hcursor, hline⟩

/-- With a match ahead that the search stops before, further searches do not move the cursor. -/
theorem run_stuck (h : s.terminal.WF) (hcursor : s.terminal.InGrid s.terminal.viModeCursor)
    (hshort : s.inlineSearchState.stopShort = true) {s₁ : InlineSearch} (hnext : s.step .next = some s₁)
    (n : Nat) : Returns (runOps step s₁ (List.replicate n .next)) fun s' =>
      s'.terminal.viModeCursor = s₁.terminal.viModeCursor := by
  obtain ⟨i, hi, hpoint⟩ := Term.InGrid.exists_index h.grid hcursor
  obtain ⟨hview, j, hj, hstep⟩ := (step_returns h.grid hi hpoint .next).of_eq hnext
  have hcells : j < s₁.terminal.dims.cells := hview.dims.symm ▸ (hstep.sameLine hi).1
  rw [← hview.dims] at hj
  refine (run_returns (hview.wf h) hcells hj _).mono fun s' ⟨_, k, hk, hsteps⟩ => ?_
  have hstuck := InlineSearchState.Steps.stuck hshort hstep (hsteps.viewed hview)
  rw [hk, (Prod.mk.inj hstuck).1, hj]

end InlineSearch
end Velacritty
