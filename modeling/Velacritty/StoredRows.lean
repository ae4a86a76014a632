import Velacritty.GridCells
import Velacritty.GridResize
import Velacritty.StorageRows

/-! What holds of every stored row, cached ones included. -/
namespace Velacritty
open Fallible

namespace Storage
variable {T : Type} {s s' : Storage T} {P Q : Row T → Prop} {line : Int}

def Holds (P : Row T → Prop) (s : Storage T) : Prop := ∀ r ∈ s.inner, P r

/-- Every stored row satisfies `Q`, and all but the one of `line` satisfy `P`. -/
def HoldsBut (P Q : Row T → Prop) (line : Int) (s : Storage T) : Prop :=
  ∀ i r, s.inner[i]? = some r → Q r ∧ (s.computeIndex line ≠ some i → P r)

theorem Holds.get (h : s.Holds P) : Allows (s.get line) P := by
  intro r hr
  simp only [Storage.get, Option.bind_eq_bind, Option.bind_eq_some_iff] at hr
  obtain ⟨i, -, hr⟩ := hr
  exact h r (List.mem_of_getElem? hr)

theorem modify_inner {f : Row T → Option (Row T)} (hs : s.modify line f = some s') :
    ∃ i r r', s.computeIndex line = some i ∧ s.inner[i]? = some r ∧ f r = some r' ∧
      s' = { s with inner := s.inner.set i r' } := by
  simp only [modify, Option.bind_eq_bind, Option.bind_eq_some_iff, Option.some.injEq] at hs
  obtain ⟨i, hi, r, hr, r', hr', hs⟩ := hs
  exact ⟨i, r, r', hi, hr, hr', hs.symm⟩

theorem Holds.modify (h : s.Holds P) {f : Row T → Option (Row T)}
    (hf : ∀ r, P r → Allows (f r) P) : Allows (s.modify line f) (Holds P) := by
  intro s' hs'
  obtain ⟨i, r, r', -, hr, hr', rfl⟩ := modify_inner hs'
  intro x hx
  rcases List.mem_or_eq_of_mem_set hx with hx | rfl
  · exact h x hx
  · exact hf r (h r (List.mem_of_getElem? hr)) x hr'

theorem Holds.modify_but (h : s.Holds P) (hpq : ∀ r, P r → Q r) {f : Row T → Option (Row T)}
    (hf : ∀ r, P r → Allows (f r) Q) : Allows (s.modify line f) (HoldsBut P Q line) := by
  intro s' hs'
  obtain ⟨i, r, r', hi, hr, hr', rfl⟩ := modify_inner hs'
  have hshape : s.SameShape { s with inner := s.inner.set i r' } := ⟨rfl, rfl, rfl, List.length_set⟩
  intro k x hx
  rw [hshape.computeIndex, hi]
  by_cases hk : i = k
  · subst hk
    rw [List.getElem?_set_self (List.getElem?_eq_some_iff.mp hr).1] at hx
    cases hx
    exact ⟨hf r (h r (List.mem_of_getElem? hr)) _ hr', fun hne => absurd rfl hne⟩
  · rw [List.getElem?_set_ne hk] at hx
    have hmem := h x (List.mem_of_getElem? hx)
    exact ⟨hpq x hmem, fun _ => hmem⟩

theorem Holds.but (h : s.Holds P) (hpq : ∀ r, P r → Q r) : s.HoldsBut P Q line :=
  fun _ r hr => ⟨hpq r (h r (List.mem_of_getElem? hr)), fun _ => h r (List.mem_of_getElem? hr)⟩

theorem HoldsBut.modify (h : s.HoldsBut P Q line) {l : Int} {f : Row T → Option (Row T)}
    (hp : ∀ r, P r → Allows (f r) P) (hq : ∀ r, Q r → Allows (f r) Q) :
    Allows (s.modify l f) (HoldsBut P Q line) := by
  intro s' hs'
  obtain ⟨i, r, r', hi, hr, hr', rfl⟩ := modify_inner hs'
  have hshape : s.SameShape { s with inner := s.inner.set i r' } := ⟨rfl, rfl, rfl, List.length_set⟩
  intro k x hx
  rw [hshape.computeIndex]
  by_cases hk : i = k
  · subst hk
    rw [List.getElem?_set_self (List.getElem?_eq_some_iff.mp hr).1] at hx
    cases hx
    exact ⟨hq r (h i r hr).1 _ hr', fun hne => hp r ((h i r hr).2 hne) _ hr'⟩
  · rw [List.getElem?_set_ne hk] at hx
    exact h k x hx

theorem HoldsBut.settle (h : s.HoldsBut P Q line) {f : Row T → Option (Row T)}
    (hf : ∀ r, Q r → Allows (f r) P) : Allows (s.modify line f) (Holds P) := by
  intro s' hs'
  obtain ⟨i, r, r', hi, hr, hr', rfl⟩ := modify_inner hs'
  intro x hx
  obtain ⟨k, hk⟩ := List.getElem?_of_mem hx
  by_cases hik : i = k
  · subst hik
    rw [List.getElem?_set_self (List.getElem?_eq_some_iff.mp hr).1] at hk
    cases hk
    exact hf r (h i r hr).1 _ hr'
  · rw [List.getElem?_set_ne hik] at hk
    refine (h k x hk).2 fun hline => hik ?_
    exact Option.some.inj (hi.symm.trans hline)

/-! ### The calls of the storage -/

theorem Holds.swap (h : s.Holds P) {a b : Int} : Allows (s.swap a b) (Holds P) := by
  intro s' hs'
  simp only [Storage.swap, Option.bind_eq_bind, Option.bind_eq_some_iff, Option.some.injEq] at hs'
  obtain ⟨i, -, j, -, x, hx, y, hy, rfl⟩ := hs'
  intro r hr
  rcases List.mem_or_eq_of_mem_set hr with hr | rfl
  · rcases List.mem_or_eq_of_mem_set hr with hr | rfl
    · exact h r hr
    · exact h r (List.mem_of_getElem? hy)
  · exact h r (List.mem_of_getElem? hx)

theorem Holds.swapLines (h : s.Holds P) {delta : Int} {lines : List Int} :
    Allows (s.swapLines delta lines) (Holds P) := fun _ hs' =>
  foldlM_invariant h (fun _ _ _ ha _ hstep => ha.swap _ hstep) hs'

theorem Holds.rezero (h : s.Holds P) : Allows s.rezero (Holds P) := by
  intro s' hs'
  unfold Storage.rezero at hs'
  split at hs'
  · cases hs'
    exact fun r hr => h r (List.mem_rotate.mp hr)
  · cases hs'

theorem Holds.truncate (h : s.Holds P) : Allows s.truncate (Holds P) :=
  h.rezero.bind fun _ ha => .pure fun r hr => ha r (List.mem_of_mem_take hr)

theorem Holds.shrinkLines (h : s.Holds P) {shrinkage : Nat} :
    Allows (s.shrinkLines shrinkage) (Holds P) := by
  refine Allows.bind (P := fun _ => True) (fun _ _ => trivial) fun len _ => ?_
  have hlen : Holds P { s with len } := h
  simp only
  split
  · exact hlen.truncate
  · exact .pure hlen

theorem Holds.shrinkVisibleLines (h : s.Holds P) {next : Nat} :
    Allows (s.shrinkVisibleLines next) (Holds P) := by
  refine Allows.bind (P := fun _ => True) (fun _ _ => trivial) fun shrinkage _ => ?_
  exact h.shrinkLines.bind fun a ha => .pure ha

theorem Holds.rotate (h : s.Holds P) {count : Int} : Allows (s.rotate count) (Holds P) := by
  intro s' hs'
  unfold Storage.rotate at hs'
  split at hs'
  · cases hs'
    exact h
  · cases hs'

theorem Holds.rotateDown (h : s.Holds P) {count : Nat} : Allows (s.rotateDown count) (Holds P) := by
  intro s' hs'
  unfold Storage.rotateDown at hs'
  split at hs'
  · cases hs'
    exact h
  · cases hs'

theorem Holds.takeAll (h : s.Holds P) : Allows s.takeAll fun p => ∀ r ∈ p.1, P r :=
  h.truncate.bind fun _ ha => .pure ha

variable [GridCell T]

/-- Fresh rows satisfy `P`, and a reset keeps it. -/
structure Lasting (P : Row T → Prop) : Prop where
  new : ∀ columns, P (Row.new columns)
  reset : ∀ r template, P r → Allows (r.reset template) P

variable (hP : Lasting P)
include hP

theorem Lasting.withCapacity (visibleLines columns : Nat) :
    (withCapacity visibleLines columns : Storage T).Holds P :=
  fun _ hr => List.eq_of_mem_replicate hr ▸ hP.new columns

theorem Lasting.resetLines (h : s.Holds P) {template : T} {lines : List Int} :
    Allows (s.resetLines template lines) (Holds P) := fun _ hs' =>
  foldlM_invariant h (fun _ _ _ ha _ hstep => ha.modify (fun r hr => hP.reset r template hr) _ hstep) hs'

theorem Lasting.initializeRows (h : s.Holds P) {additionalRows columns : Nat} :
    Allows (s.initializeRows additionalRows columns) (Holds P) := by
  refine Allows.bind (P := Holds P) ?_ fun a ha => .pure ha
  split
  · refine h.rezero.bind fun a ha => .pure fun r hr => ?_
    rcases List.mem_append.mp hr with hr | hr
    · exact ha r hr
    · exact List.eq_of_mem_replicate hr ▸ hP.new columns
  · exact .pure h

theorem Lasting.growVisibleLines (h : s.Holds P) {next : Nat} :
    Allows (s.growVisibleLines next) (Holds P) := by
  refine Allows.bind (P := fun _ => True) (fun _ _ => trivial) fun additionalLines _ => ?_
  refine Allows.bind (P := fun _ => True) (fun _ _ => trivial) fun row _ => ?_
  exact (hP.initializeRows h).bind fun a ha => .pure ha

end Storage

namespace Grid
open Storage (Lasting)
variable {T : Type} {g g' a : Grid T} {P : Row T → Prop}

/-- The stored rows of the new grid satisfy `P`, and the cursors are where they were. -/
structure Restocked (P : Row T → Prop) (g g' : Grid T) : Prop where
  rows : g'.raw.Holds P
  cursor : g'.cursor = g.cursor
  savedCursor : g'.savedCursor = g.savedCursor

theorem restocked_of_raw {raw : Storage T} (h : raw.Holds P) : Restocked P g { g with raw } :=
  ⟨h, rfl, rfl⟩

theorem Restocked.trans (h : Restocked P g a) (h' : Restocked P a g') : Restocked P g g' :=
  ⟨h'.rows, h'.cursor.trans h.cursor, h'.savedCursor.trans h.savedCursor⟩

theorem decreaseScrollLimit_restocked (h : g.raw.Holds P) (count : Nat) :
    Allows (g.decreaseScrollLimit count) (Restocked P g) := by
  simp only [decreaseScrollLimit]
  split
  · exact h.shrinkLines.bind fun raw hraw => .pure ⟨hraw, rfl, rfl⟩
  · exact .pure ⟨h, rfl, rfl⟩

theorem updateHistory_restocked (h : g.raw.Holds P) (historySize : Nat) :
    Allows (g.updateHistory historySize) (Restocked P g) := by
  refine Allows.bind (P := Storage.Holds P) ?_ fun raw hraw => .pure ⟨hraw, rfl, rfl⟩
  split
  · exact h.shrinkLines
  · exact .pure h

theorem clearHistory_restocked (h : g.raw.Holds P) : Allows g.clearHistory (Restocked P g) :=
  h.shrinkLines.bind fun _ hraw => .pure ⟨hraw, rfl, rfl⟩

theorem pinViewport_restocked (h : g.raw.Holds P) (positions : Nat) :
    Restocked P g (g.pinViewport positions) := by
  unfold pinViewport
  split
  · exact ⟨h, rfl, rfl⟩
  · exact ⟨h, rfl, rfl⟩

variable [GridCell T] (hP : Lasting P)
include hP

theorem new_holds (lines columns maxScrollLimit : Nat) :
    (new lines columns maxScrollLimit : Grid T).raw.Holds P := hP.withCapacity lines columns

theorem increaseScrollLimit_restocked (h : g.raw.Holds P) (count : Nat) :
    Allows (g.increaseScrollLimit count) (Restocked P g) := by
  refine Allows.bind (P := fun _ => True) (fun _ _ => trivial) fun room _ => ?_
  simp only
  split
  · exact (hP.initializeRows h).bind fun raw hraw => .pure (restocked_of_raw hraw)
  · exact .pure ⟨h, rfl, rfl⟩

theorem resetLines_restocked (h : g.raw.Holds P) (lines : List Int) :
    Allows (g.resetLines lines) (Restocked P g) :=
  (hP.resetLines h).bind fun _ hraw => .pure (restocked_of_raw hraw)

theorem scrollDown_restocked (h : g.raw.Holds P) (start stop : Int) (positions : Nat) :
    Allows (g.scrollDown start stop positions) (Restocked P g) := by
  unfold scrollDown
  split
  · exact resetLines_restocked hP h _
  · split
    · refine h.swapLines.bind fun a ha => ?_
      refine ha.rotateDown.bind fun b hb => ?_
      refine (hP.resetLines hb).bind fun c hc => ?_
      exact hc.swapLines.bind fun d hd => .pure (restocked_of_raw hd)
    · refine h.swapLines.bind fun a ha => ?_
      exact (hP.resetLines ha).bind fun b hb => .pure (restocked_of_raw hb)

theorem rotateRegionUp_restocked (h : g.raw.Holds P) (start stop : Int) (positions : Nat) :
    Allows (g.rotateRegionUp start stop positions) (Restocked P g) := by
  unfold rotateRegionUp
  split
  · refine (increaseScrollLimit_restocked hP h positions).bind fun a ha => ?_
    refine ha.rows.swapLines.bind fun b hb => ?_
    refine hb.rotate.bind fun c hc => ?_
    exact hc.swapLines.bind fun d hd => .pure ⟨hd, ha.cursor, ha.savedCursor⟩
  · exact h.swapLines.bind fun a ha => .pure (restocked_of_raw ha)

theorem scrollUp_restocked (h : g.raw.Holds P) (start stop : Int) (positions : Nat) :
    Allows (g.scrollUp start stop positions) (Restocked P g) := by
  unfold scrollUp
  split
  · exact resetLines_restocked hP h _
  · have hpin := pinViewport_restocked h positions
    refine (rotateRegionUp_restocked hP hpin.rows start stop positions).bind fun a ha => ?_
    exact (resetLines_restocked hP ha.rows _).mono fun b hb => (hpin.trans ha).trans hb

theorem clearViewport_restocked (h : g.raw.Holds P) : Allows g.clearViewport (Restocked P g) := by
  refine Allows.bind (P := fun _ => True) (fun _ _ => trivial) fun iter _ => ?_
  refine Allows.bind (P := fun _ => True) (fun _ _ => trivial) fun positions _ => ?_
  refine (scrollUp_restocked hP h _ _ _).bind fun a ha => ?_
  refine Allows.bind (P := fun _ => True) (fun _ _ => trivial) fun rest _ => ?_
  exact (resetLines_restocked hP ha.rows _).mono fun b hb => ha.trans hb

theorem resetRegion_restocked (h : g.raw.Holds P) (start stop : Int) :
    Allows (g.resetRegion start stop) (Restocked P g) := by
  unfold resetRegion
  split
  · exact resetLines_restocked hP h _
  · exact fun _ ha => nomatch ha

theorem reset_restocked (h : g.raw.Holds P) : Allows g.reset fun g' => g'.raw.Holds P ∧
    g'.cursor = defaultCursor ∧ g'.savedCursor = defaultCursor := by
  refine (clearHistory_restocked h).bind fun a ha => ?_
  have hrows : Storage.Holds P
      { a with savedCursor := defaultCursor, cursor := defaultCursor, displayOffset := 0 }.raw := ha.rows
  exact (resetLines_restocked hP hrows _).mono fun b hb => ⟨hb.rows, hb.cursor, hb.savedCursor⟩

/-- The screen gets more or less lines; only the cursors' lines change. -/
theorem growLines_holds (h : g.raw.Holds P) (target : Nat) :
    Allows (g.growLines target) fun g' => g'.raw.Holds P ∧
      g'.savedCursor.template = g.savedCursor.template := by
  refine Allows.bind (P := fun _ => True) (fun _ _ => trivial) fun linesAdded _ => ?_
  refine (hP.growVisibleLines h).bind fun raw hraw => ?_
  refine Allows.bind (P := Restocked P { g with raw, lines := target }) ?_ fun a ha => ?_
  · split
    · exact scrollUp_restocked hP hraw _ _ _
    · exact .pure ⟨hraw, rfl, rfl⟩
  · refine (decreaseScrollLimit_restocked ?_ _).mono fun b hb => ⟨hb.rows, ?_⟩
    · exact ha.rows
    · rw [hb.savedCursor]
      simp only [ha.savedCursor]

theorem shrinkLines_holds (h : g.raw.Holds P) (target : Nat) :
    Allows (g.shrinkLines target) fun g' => g'.raw.Holds P ∧
      g'.savedCursor.template = g.savedCursor.template := by
  refine Allows.bind (P := fun _ => True) (fun _ _ => trivial) fun cursorLine _ => ?_
  refine Allows.bind (P := fun a : Grid T => a.raw.Holds P ∧ a.savedCursor = g.savedCursor) ?_
    fun a ha => ?_
  · simp only
    split
    · exact (scrollUp_restocked hP h _ _ _).bind fun b hb => .pure ⟨hb.rows, hb.savedCursor⟩
    · exact .pure ⟨h, rfl⟩
  · obtain ⟨ha, hsaved⟩ := ha
    refine Allows.bind (P := fun _ => True) (fun _ _ => trivial) fun removed _ => ?_
    refine ha.rotate.bind fun b hb => ?_
    refine hb.shrinkVisibleLines.bind fun c hc => .pure ⟨hc, ?_⟩
    simp only [hsaved]

end Grid
end Velacritty
