import Velacritty.GridSound

/-! Which cells an update of the grid changes. -/
namespace Velacritty
open Fallible

namespace Storage
variable {T : Type} {s s' : Storage T} {columns : Nat}

theorem computeIndex_spec {line : Int} {i : Nat} (hi : s.computeIndex line = some i) :
    s.HasLine line ∧ (i = s.zero + ((s.visibleLines - line).toNat - 1) ∨
      i + s.inner.length = s.zero + ((s.visibleLines - line).toNat - 1)) := by
  simp only [computeIndex, ite_eq_iff, Option.some.injEq, reduceCtorEq, and_false, or_false] at hi
  obtain ⟨hlt, hlen, hi⟩ := hi
  simp only [HasLine]
  omega

/-- Lines of the storage are stored apart. -/
theorem computeIndex_inj (h : s.Bounded columns) {a b : Int} {i : Nat}
    (ha : s.computeIndex a = some i) (hb : s.computeIndex b = some i) : a = b := by
  have hzero := h.zero_lt
  have hlen := h.len_le
  obtain ⟨ha, hia⟩ := computeIndex_spec ha
  obtain ⟨hb, hib⟩ := computeIndex_spec hb
  simp only [HasLine] at ha hb
  omega

theorem SameShape.computeIndex (h : s.SameShape s') (line : Int) :
    s'.computeIndex line = s.computeIndex line := by
  simp only [Storage.computeIndex, h.zero, h.visibleLines, h.len, h.inner]

theorem modify_get (h : s.WF columns) {line : Int} {f : Row T → Option (Row T)}
    (hs : s.modify line f = some s') :
    (∃ r r', s.get line = some r ∧ f r = some r' ∧ s'.get line = some r') ∧
      ∀ l, l ≠ line → s'.get l = s.get l := by
  simp only [modify, Option.bind_eq_bind, Option.bind_eq_some_iff, Option.some.injEq] at hs
  obtain ⟨i, hi, r, hr, r', hr', rfl⟩ := hs
  have hshape : s.SameShape { s with inner := s.inner.set i r' } :=
    ⟨rfl, rfl, rfl, List.length_set⟩
  have hlt : i < s.inner.length := (List.getElem?_eq_some_iff.mp hr).1
  refine ⟨⟨r, r', ?_, hr', ?_⟩, fun l hl => ?_⟩
  · simp only [get, hi, Option.bind_eq_bind, Option.bind_some, hr]
  · simp only [get, hshape.computeIndex, hi, Option.bind_eq_bind, Option.bind_some]
    exact List.getElem?_set_self hlt
  · simp only [get, hshape.computeIndex, Option.bind_eq_bind]
    cases hj : s.computeIndex l with
    | none => rfl
    | some j =>
        have hne : i ≠ j := by
          rintro rfl
          exact hl (computeIndex_inj h.toBounded hj hi)
        exact List.getElem?_set_ne hne

theorem hasLine_of_get {line : Int} {r : Row T} (hr : s.get line = some r) : s.HasLine line := by
  simp only [get, Option.bind_eq_bind, Option.bind_eq_some_iff] at hr
  obtain ⟨i, hi, -⟩ := hr
  exact (computeIndex_spec hi).1

end Storage

namespace Row
variable {T : Type} {r r' : Row T}

theorem modify_get {column : Nat} {f : T → T} (h : r.modify column f = some r') :
    r'.get column = (r.get column).map f ∧ ∀ c, c ≠ column → r'.get c = r.get c := by
  unfold modify at h
  split at h <;> try cases h
  refine ⟨?_, fun c hc => ?_⟩
  · simp only [get, List.getElem?_modify, if_true]
    rfl
  · simp only [get, List.getElem?_modify, hc.symm, if_false]
    exact Option.map_id'

theorem modifyRange_get {start stop : Nat} {f : T → T} (h : r.modifyRange start stop f = some r') :
    ∀ c, ¬ (start ≤ c ∧ c < stop) → r'.get c = r.get c := by
  intro c hc
  unfold modifyRange at h
  split at h <;> try cases h
  next hle =>
    have hstart : (r.inner.take start).length = start := List.length_take_of_le (by unfold len at hle; omega)
    have hmid : ((r.inner.drop start).take (stop - start)).length = stop - start := by
      rw [List.length_take, List.length_drop]
      unfold len at hle
      omega
    simp only [get]
    by_cases hlt : c < start
    · rw [List.append_assoc, List.getElem?_append_left (by omega), List.getElem?_take_of_lt hlt]
    · rw [List.getElem?_append_right (by rw [List.length_append, List.length_map]; omega)]
      rw [List.length_append, List.length_map, hstart, hmid, List.getElem?_drop]
      congr 1
      omega

end Row

namespace Grid
variable {T : Type} {a b c g g' : Grid T} {S S' : Point → Prop}

def ChangesOnly (S : Point → Prop) (g g' : Grid T) : Prop :=
  ∀ p, ¬ S p → g'.cellAt p = g.cellAt p

theorem ChangesOnly.refl (g : Grid T) : ChangesOnly S g g := fun _ _ => rfl

theorem ChangesOnly.trans (h : ChangesOnly S a b) (h' : ChangesOnly S b c) : ChangesOnly S a c :=
  fun p hp => (h' p hp).trans (h p hp)

theorem ChangesOnly.mono (h : ChangesOnly S g g') (hs : ∀ p, S p → S' p) : ChangesOnly S' g g' :=
  fun p hp => h p fun hS => hp (hs p hS)

theorem ChangesOnly.of_raw (h : g'.raw = g.raw) : ChangesOnly S g g' := by
  intro p _
  simp only [cellAt, h]

theorem inGrid_of_cellAt (h : g.WF) {p : Point} {cell : T} (hp : g.cellAt p = some cell) :
    g.dims.topmostLine ≤ p.line ∧ p.line < g.lines ∧ p.column < g.columns := by
  simp only [cellAt, Option.bind_eq_bind, Option.bind_eq_some_iff] at hp
  obtain ⟨row, hrow, hcell⟩ := hp
  have hline := Storage.hasLine_of_get hrow
  have hwf := (Storage.get_returns h.raw hline).of_eq hrow
  have hlt : p.column < row.inner.length := (List.getElem?_eq_some_iff.mp hcell).1
  have hvis := h.visible
  have hle := h.lines_le
  have hlen := hwf.len_eq
  simp only [Storage.HasLine, Row.len, Dimensions.topmostLine, Dimensions.historySize, dims] at *
  omega

theorem cellAt_returns (h : g.WF) {p : Point} (hlo : g.dims.topmostLine ≤ p.line)
    (hhi : p.line < g.lines) (hc : p.column < g.columns) :
    Returns (g.cellAt p) fun cell => g.cellAt p = some cell := by
  obtain ⟨row, hrow, hwf⟩ := Storage.get_returns h.raw (h.hasLine hlo hhi)
  obtain ⟨cell, hcell, -⟩ := Row.get_returns (show p.column < row.len by rw [hwf.len_eq]; exact hc)
  have hp : g.cellAt p = some cell := by
    simp only [cellAt, hrow, hcell, Option.bind_eq_bind, Option.bind_some]
  exact ⟨cell, hp, hp⟩

theorem cellAt_eq_of_get {p : Point} (h : g'.raw.get p.line = g.raw.get p.line) :
    g'.cellAt p = g.cellAt p := by
  simp only [cellAt, h]

/-- An update of a line changes cells of that line only, and of those the ones that its
row update changes. -/
theorem changesOnly_of_modify (h : g.WF) {line : Int} {f : Row T → Option (Row T)}
    {raw : Storage T} (columns : Nat → Prop) (hg : g.raw.modify line f = some raw)
    (hf : ∀ r r', f r = some r' → ∀ c, ¬ columns c → r'.get c = r.get c) :
    ChangesOnly (fun p => p.line = line ∧ columns p.column) g { g with raw } := by
  obtain ⟨⟨r, r', hr, hr', hget⟩, hother⟩ := Storage.modify_get h.raw hg
  intro p hp
  by_cases hl : p.line = line
  · have hc : ¬ columns p.column := fun hc => hp ⟨hl, hc⟩
    simp only [cellAt, hl, hr, hget, Option.bind_eq_bind, Option.bind_some]
    exact hf r r' hr' _ hc
  · exact cellAt_eq_of_get (hother _ hl)

theorem modifyCell_get (h : g.WF) {point : Point} {f : T → T} (hg : g.modifyCell point f = some g') :
    g'.cellAt point = (g.cellAt point).map f ∧ ChangesOnly (· = point) g g' := by
  simp only [modifyCell, Option.bind_eq_bind, Option.bind_eq_some_iff, Option.some.injEq] at hg
  obtain ⟨raw, hraw, rfl⟩ := hg
  constructor
  · obtain ⟨⟨r, r', hr, hr', hget⟩, -⟩ := Storage.modify_get h.raw hraw
    simp only [cellAt, hr, hget, Option.bind_eq_bind, Option.bind_some]
    exact (Row.modify_get hr').1
  · refine (changesOnly_of_modify h (· = point.column) hraw
      fun r r' hr' => (Row.modify_get hr').2).mono fun p hp => ?_
    obtain ⟨line, column⟩ := p
    exact congrArg₂ Point.mk hp.1 hp.2

end Grid
end Velacritty
