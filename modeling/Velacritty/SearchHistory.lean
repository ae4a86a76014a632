import Velacritty.SearchState

/-! What becomes of the entries of the search history. -/
namespace Velacritty
open Fallible
variable {R : Type}

namespace SearchState

/-- The position in the history is an entry, and the history is no longer than it may be. -/
structure Valid (s : SearchState R) : Prop where
  index : ∀ i, s.historyIndex = some i → i < s.history.length
  length : s.history.length ≤ maxSearchHistorySize

end SearchState

/-- The entries from `lo` on move back by `n`, with their texts, and fall off only at the end of a
full history. -/
structure Keeps (lo n : Nat) (history history' : List (List Char)) : Prop where
  length : history'.length = min maxSearchHistorySize (history.length + n)
  entries : ∀ i, lo ≤ i → i + n < history'.length → history'[i + n]? = history[i]?

namespace Keeps
variable {lo m n : Nat} {history history' a : List (List Char)}

theorem refl (h : history.length ≤ maxSearchHistorySize) : Keeps lo 0 history history :=
  ⟨(Nat.min_eq_right h).symm, fun _ _ _ => rfl⟩

theorem trans (h : Keeps lo m history a) (h' : Keeps 1 n a history') (hlo : 1 ≤ lo + m) :
    Keeps lo (m + n) history history' := by
  have hlength := h.length
  have hlength' := h'.length
  refine ⟨by omega, fun i hi hlt => ?_⟩
  calc history'[i + (m + n)]? = history'[i + m + n]? := by rw [Nat.add_assoc]
    _ = a[i + m]? := h'.entries (i + m) (by omega) (by omega)
    _ = history[i]? := h.entries i hi (by omega)

/-- A new entry in front moves all others back. -/
theorem push (entry : List Char) (history : List (List Char)) :
    Keeps lo 1 history ((entry :: history).take maxSearchHistorySize) := by
  refine ⟨by simp [List.length_take], fun i _ hlt => ?_⟩
  rw [List.length_take] at hlt
  rw [List.getElem?_take_of_lt (Nat.lt_of_lt_of_le hlt (Nat.min_le_left _ _)), List.getElem?_cons_succ]

theorem set (h : Keeps 1 n history history') (entry : List Char) :
    Keeps 1 n history (history'.set 0 entry) := by
  have hlength := h.length
  refine ⟨by simpa using hlength, fun i hi hlt => ?_⟩
  rw [List.length_set] at hlt
  rw [List.getElem?_set_ne (by omega)]
  exact h.entries i hi hlt

end Keeps

namespace SearchOp

/-- How many entries an operation puts in front of the history. -/
def entering (ctx : ActionContext R) : SearchOp R → Nat
  | startSearch _ => if ctx.searchState.history.head? = some [] then 0 else 1
  | _ => 0

/-- Removing a word edits the entry that is shown; it is the current input, not an older one. -/
def HistorySafe (ctx : ActionContext R) : SearchOp R → Prop
  | searchPopWord _ => ∀ i, ctx.searchState.historyIndex = some i → i = 0
  | _ => True

end SearchOp

/-- An operation leaves a valid state, and all entries but the current input as they are. A new
search makes the current input one of them. -/
structure HistoryStep (op : SearchOp R) (ctx ctx' : ActionContext R) : Prop where
  valid : ctx'.searchState.Valid
  keeps : Keeps (1 - op.entering ctx) (op.entering ctx) ctx.searchState.history
    ctx'.searchState.history

namespace HistoryStep
variable {op : SearchOp R} {ctx ctx' a : ActionContext R}

theorem then_same (h : HistoryStep op ctx a) (hsame : SameInputs a ctx') : HistoryStep op ctx ctx' := by
  obtain ⟨⟨hindex, hlength⟩, hkeeps⟩ := h
  refine ⟨⟨?_, hsame.history ▸ hlength⟩, hsame.history ▸ hkeeps⟩
  rw [hsame.history, hsame.historyIndex]
  exact hindex

/-- Only the current input and the position in the history change. -/
theorem of_tail (hv : ctx.searchState.Valid) (hop : op.entering ctx = 0)
    (hlength : ctx'.searchState.history.length = ctx.searchState.history.length)
    (htail : ∀ i, 1 ≤ i → ctx'.searchState.history[i]? = ctx.searchState.history[i]?)
    (hindex : ∀ i, ctx'.searchState.historyIndex = some i → i < ctx.searchState.history.length) :
    HistoryStep op ctx ctx' := by
  have hmax := hv.length
  refine ⟨⟨fun i hi => hlength ▸ hindex i hi, hlength ▸ hmax⟩, ?_⟩
  rw [hop]
  refine ⟨by omega, fun i hi _ => htail i hi⟩

theorem of_same (hv : ctx.searchState.Valid) (hop : op.entering ctx = 0)
    (hsame : SameInputs ctx ctx') : HistoryStep op ctx ctx' := by
  refine .then_same (of_tail hv hop rfl (fun i _ => rfl) hv.index) hsame

end HistoryStep

namespace ActionContext
variable {ctx a : ActionContext R} {op : SearchOp R}

theorem startSearch_historyStep (hv : ctx.searchState.Valid) (direction : Side) :
    HistoryStep (.startSearch direction) ctx (ctx.startSearch direction) := by
  by_cases hempty : ctx.searchState.history.head? = some []
  · have hhistory : (ctx.startSearch direction).searchState.history = ctx.searchState.history :=
      if_pos hempty
    have hpos : 0 < ctx.searchState.history.length :=
      List.length_pos_iff.mpr fun hnil => by simp [hnil] at hempty
    refine .of_tail hv (if_pos hempty) (by rw [hhistory]) (fun i _ => by rw [hhistory]) ?_
    intro i hi
    exact Option.some.inj hi ▸ hpos
  · have hhistory : (ctx.startSearch direction).searchState.history =
        ([] :: ctx.searchState.history).take maxSearchHistorySize := if_neg hempty
    have hentering : (SearchOp.startSearch (R := R) direction).entering ctx = 1 := if_neg hempty
    have hkeeps : Keeps 0 1 ctx.searchState.history (ctx.startSearch direction).searchState.history :=
      hhistory ▸ .push [] _
    have hlength := hkeeps.length
    refine ⟨⟨?_, ?_⟩, ?_⟩
    · intro i hi
      have hzero : 0 = i := Option.some.inj hi
      simp only [maxSearchHistorySize] at hlength
      omega
    · omega
    · rw [hentering]
      exact hkeeps

/-- A typed character replaces the current input, which shows the entry it came from. -/
theorem searchInput_historyStep (hv : ctx.searchState.Valid) (engine : RegexEngine R) (c : Char) :
    Returns (ctx.searchInput engine c) (HistoryStep (.searchInput engine c) ctx) := by
  unfold searchInput
  split
  · exact .pure (.of_same hv rfl (.refl ctx))
  · next index hindex =>
      have hlt := hv.index index hindex
      have hleft : Returns (ctx.leaveHistory index) fun a =>
          HistoryStep (.searchInput engine c) ctx a ∧ a.searchState.historyIndex = some 0 := by
        unfold leaveHistory
        split
        · next hzero => exact .pure ⟨.of_same hv rfl (.refl ctx), hzero ▸ hindex⟩
        · refine Returns.bind (P := fun _ => True) ⟨_, List.getElem?_eq_getElem hlt, trivial⟩ ?_
          intro regex _
          refine .pure ⟨.of_tail hv rfl List.length_set ?_ ?_, rfl⟩
          · intro i hi
            exact List.getElem?_set_ne (by omega)
          · intro i hi
            have hzero : 0 = i := Option.some.inj hi
            omega
      refine hleft.bind fun a ⟨ha, hzero⟩ => ?_
      have hpos := ha.valid.index 0 hzero
      refine Returns.bind (P := fun _ => True) ⟨_, List.getElem?_eq_getElem hpos, trivial⟩ ?_
      intro regex _
      split
      · exact .pure ha
      · next regex' _ =>
          have hset : HistoryStep (.searchInput engine c) ctx
              { a with searchState.history := a.searchState.history.set 0 regex' } := by
            refine ⟨⟨fun i hi => ?_, ?_⟩, ha.keeps.set regex'⟩
            · rw [List.length_set]
              exact ha.valid.index i hi
            · rw [List.length_set]
              exact ha.valid.length
          refine .pure (.then_same ?_ (updateSearch_sameInputs _ engine))
          refine hset.then_same ?_
          split
          · exact ⟨rfl, rfl, rfl⟩
          · exact .refl _

theorem searchPopWord_historyStep (hv : ctx.searchState.Valid) (engine : RegexEngine R)
    (hsafe : (SearchOp.searchPopWord engine).HistorySafe ctx) :
    HistoryStep (.searchPopWord engine) ctx (ctx.searchPopWord engine) := by
  unfold searchPopWord
  split
  · exact .of_same hv rfl (.refl ctx)
  · next index hindex =>
      have hzero := hsafe index hindex
      subst hzero
      split
      · exact .of_same hv rfl (.refl ctx)
      · refine .then_same ?_ (updateSearch_sameInputs _ engine)
        refine .of_tail hv rfl List.length_set ?_ hv.index
        intro i hi
        exact List.getElem?_set_ne (by omega)

theorem searchHistoryPrevious_historyStep (hv : ctx.searchState.Valid) (engine : RegexEngine R) :
    HistoryStep (.searchHistoryPrevious engine) ctx (ctx.searchHistoryPrevious engine) := by
  unfold searchHistoryPrevious
  split
  · exact .of_same hv rfl (.refl ctx)
  · next index _ =>
      split
      · exact .of_same hv rfl (.refl ctx)
      · next hlast =>
          refine .then_same ?_ (updateSearch_sameInputs _ engine)
          refine .of_tail hv rfl rfl (fun i _ => rfl) fun i hi => ?_
          exact Option.some.inj hi ▸ Nat.lt_of_not_le hlast

theorem searchHistoryNext_historyStep (hv : ctx.searchState.Valid) (engine : RegexEngine R) :
    HistoryStep (.searchHistoryNext engine) ctx (ctx.searchHistoryNext engine) := by
  unfold searchHistoryNext
  split
  · exact .of_same hv rfl (.refl ctx)
  · exact .of_same hv rfl (.refl ctx)
  · next index hindex =>
      refine .then_same ?_ (updateSearch_sameInputs _ engine)
      refine .of_tail hv rfl rfl (fun i _ => rfl) fun i hi => ?_
      exact Option.some.inj hi ▸ Nat.lt_of_succ_lt (hv.index _ hindex)

theorem exitSearch_historyStep (h : HistoryStep op ctx a) : HistoryStep op ctx a.exitSearch :=
  ⟨⟨fun i hi => (by cases hi), h.valid.length⟩, h.keeps⟩

theorem cancelSearch_historyStep (hv : ctx.searchState.Valid) :
    HistoryStep .cancelSearch ctx ctx.cancelSearch := by
  obtain ⟨a, ha, hleft⟩ := ctx.cancelSearch_leaves
  rw [hleft]
  exact exitSearch_historyStep (.of_same hv rfl ha)

theorem confirmSearch_historyStep (hv : ctx.searchState.Valid) (engine : RegexEngine R) :
    HistoryStep (.confirmSearch engine) ctx (ctx.confirmSearch engine) := by
  obtain ⟨a, ha, hleft⟩ := ctx.confirmSearch_leaves engine
  rw [hleft]
  exact exitSearch_historyStep (.of_same hv rfl ha)

theorem step_historyStep (hv : ctx.searchState.Valid) (hsafe : op.HistorySafe ctx) :
    Returns (ctx.step op) (HistoryStep op ctx) := by
  cases op with
  | startSearch direction => exact .pure (startSearch_historyStep hv direction)
  | searchInput engine c => exact searchInput_historyStep hv engine c
  | searchPopWord engine => exact .pure (searchPopWord_historyStep hv engine hsafe)
  | searchHistoryPrevious engine => exact .pure (searchHistoryPrevious_historyStep hv engine)
  | searchHistoryNext engine => exact .pure (searchHistoryNext_historyStep hv engine)
  | confirmSearch engine => exact .pure (confirmSearch_historyStep hv engine)
  | cancelSearch => exact .pure (cancelSearch_historyStep hv)
  | scroll scroll => exact .pure (.of_same hv rfl (scroll_sameInputs ctx scroll))
  | gotoMatch engine limit => exact .pure (.of_same hv rfl (gotoMatch_sameInputs ctx engine limit))

end ActionContext

/-! ### Runs -/

/-- A state that another one came to by safe operations, and how many entries they put in front.
The terminal may do anything in between. -/
inductive Searches : ActionContext R → Nat → ActionContext R → Prop
  | refl (ctx : ActionContext R) : Searches ctx 0 ctx
  | step {ctx a ctx' : ActionContext R} {n : Nat} (op : SearchOp R) : Searches ctx n a →
      op.HistorySafe a → a.step op = some ctx' → Searches ctx (n + op.entering a) ctx'
  | other {ctx a : ActionContext R} {n : Nat} (ctx' : ActionContext R) : Searches ctx n a →
      ctx'.searchState = a.searchState → Searches ctx n ctx'

namespace Searches
variable {ctx a ctx' : ActionContext R} {m n : Nat}

/-- From a valid state on, all entries but the current input are kept. -/
theorem keeps (h : Searches ctx n ctx') (hv : ctx.searchState.Valid) :
    ctx'.searchState.Valid ∧ Keeps 1 n ctx.searchState.history ctx'.searchState.history := by
  induction h with
  | refl => exact ⟨hv, .refl hv.length⟩
  | @step a ctx' n op _ hsafe hstep ih =>
      obtain ⟨hvalid, hkeeps⟩ := (ActionContext.step_historyStep ih.1 hsafe).of_eq hstep
      have hone : Keeps 1 (op.entering a) a.searchState.history ctx'.searchState.history :=
        ⟨hkeeps.length, fun i hi => hkeeps.entries i (by omega)⟩
      exact ⟨hvalid, ih.2.trans hone (by omega)⟩
  | other ctx' _ hsame ih =>
      rw [hsame]
      exact ih

/-- In every run that removes no word of an older entry, the position in the history is an entry,
and each entry but the current input keeps its text and order; only the oldest ones of a full
history fall off. -/
theorem history_kept (hinitial : ctx.searchState = .initial) (ha : Searches ctx m a)
    (h : Searches a n ctx') :
    ctx'.searchState.Valid ∧ Keeps 1 n a.searchState.history ctx'.searchState.history ∧
      ∀ op : SearchOp R, op.HistorySafe ctx' → Returns (ctx'.step op) (HistoryStep op ctx') := by
  have hfirst : ctx.searchState.Valid := by
    rw [hinitial]
    exact ⟨fun i hi => (by cases hi), Nat.zero_le _⟩
  obtain ⟨hvalid, hkeeps⟩ := h.keeps (ha.keeps hfirst).1
  exact ⟨hvalid, hkeeps, fun op hsafe => ActionContext.step_historyStep hvalid hsafe⟩

/-- A search on an empty terminal, which finds nothing. -/
def blank : ActionContext Unit := .initial (.new .initial 1 2)

def blankEngine : RegexEngine Unit := ⟨fun _ => some (), fun _ _ _ _ _ _ => none⟩

/-- An older entry that is shown is copied when it is changed, and stays an entry when the next
search begins. -/
theorem history_kept_copied : ∃ a ctx' : ActionContext Unit, Searches blank 2 a ∧ Searches a 1 ctx' ∧
    a.searchState.history = [['b'], ['a']] ∧ ctx'.searchState.history = [[], ['a', 'c'], ['a']] ∧
    ctx'.searchState.Valid ∧ Keeps 1 1 a.searchState.history ctx'.searchState.history := by
  have ha : Searches blank 2 _ :=
    .step (.searchInput blankEngine 'b') (.step (.startSearch .right) (.step .cancelSearch
      (.step (.searchInput blankEngine 'a') (.step (.startSearch .right) (.refl blank) trivial rfl)
        trivial rfl) trivial rfl) trivial rfl) trivial rfl
  have hreached {a : ActionContext Unit} (_ : Searches blank 2 a) : Searches a 0 a := .refl a
  have h : Searches _ 1 _ :=
    .step (.startSearch .right) (.step .cancelSearch (.step (.searchInput blankEngine 'c')
      (.step (.searchHistoryPrevious blankEngine) (hreached ha) trivial rfl) trivial rfl) trivial rfl)
      trivial rfl
  obtain ⟨hvalid, hkeeps, -⟩ := history_kept rfl ha h
  exact ⟨_, _, ha, h, rfl, rfl, hvalid, hkeeps⟩

/-- Removing the last word while an older entry is shown rewrites that entry. -/
theorem history_rewritten : ¬ ∀ (ctx a ctx' : ActionContext Unit) (ops : List (SearchOp Unit))
    (op : SearchOp Unit), ctx.searchState = .initial → runOps ActionContext.step ctx ops = some a →
    a.step op = some ctx' → Keeps (1 - op.entering a) (op.entering a) a.searchState.history
      ctx'.searchState.history := by
  intro h
  have hkeeps := h blank _ _ [.startSearch .right, .searchInput blankEngine 'a', .cancelSearch,
    .startSearch .right, .searchHistoryPrevious blankEngine] (.searchPopWord blankEngine) rfl rfl rfl
  have hentry := hkeeps.entries 1 (by decide) (by decide)
  cases hentry

end Searches
end Velacritty
