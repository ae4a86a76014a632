import Velacritty.Storage

/-! The ring buffer keeps its bounds: no operation indexes outside of it. -/
namespace Velacritty
open Fallible

namespace Storage
variable {T : Type}

/-- The active rows lie inside the buffer, and every row, cached ones included,
has `columns` cells. -/
structure Bounded (columns : Nat) (s : Storage T) : Prop where
  zero_lt : s.zero < s.inner.length
  len_pos : 1 ≤ s.len
  len_le : s.len ≤ s.inner.length
  rows : ∀ r ∈ s.inner, r.WF columns

/-- The active rows fill the screen. -/
structure WF (columns : Nat) (s : Storage T) : Prop extends Bounded columns s where
  visible_pos : 1 ≤ s.visibleLines
  visible_le : s.visibleLines ≤ s.len

def HasLine (s : Storage T) (line : Int) : Prop :=
  (s.visibleLines : Int) - s.len ≤ line ∧ line < s.visibleLines

/-- Only the contents of rows differ. -/
structure SameShape (s s' : Storage T) : Prop where
  zero : s'.zero = s.zero
  visibleLines : s'.visibleLines = s.visibleLines
  len : s'.len = s.len
  inner : s'.inner.length = s.inner.length

theorem SameShape.refl (s : Storage T) : s.SameShape s := ⟨rfl, rfl, rfl, rfl⟩

theorem SameShape.trans {s t u : Storage T} (h : s.SameShape t) (h' : t.SameShape u) :
    s.SameShape u :=
  ⟨h'.zero.trans h.zero, h'.visibleLines.trans h.visibleLines, h'.len.trans h.len,
    h'.inner.trans h.inner⟩

theorem SameShape.hasLine {s s' : Storage T} (h : s.SameShape s') {line : Int} :
    s'.HasLine line ↔ s.HasLine line := by
  simp only [HasLine, h.visibleLines, h.len]

theorem SameShape.wf {s s' : Storage T} {columns : Nat} (h : s.SameShape s') (hs : s.WF columns)
    (hrows : ∀ r ∈ s'.inner, r.WF columns) : s'.WF columns where
  zero_lt := by
    rw [h.zero, h.inner]
    exact hs.zero_lt
  len_pos := by
    rw [h.len]
    exact hs.len_pos
  len_le := by
    rw [h.len, h.inner]
    exact hs.len_le
  rows := hrows
  visible_pos := by
    rw [h.visibleLines]
    exact hs.visible_pos
  visible_le := by
    rw [h.visibleLines, h.len]
    exact hs.visible_le

variable {s : Storage T} {columns : Nat}

theorem Bounded.inner_ne_nil (h : s.Bounded columns) : s.inner ≠ [] :=
  List.ne_nil_of_length_pos (Nat.lt_of_le_of_lt (Nat.zero_le _) h.zero_lt)

theorem computeIndex_returns (h : s.WF columns) {line : Int} (hl : s.HasLine line) :
    Returns (s.computeIndex line) fun i => i < s.inner.length := by
  have hzero := h.zero_lt
  have hlen := h.len_le
  obtain ⟨hlo, hhi⟩ := hl
  unfold computeIndex
  rw [if_pos hhi, if_pos (by omega)]
  refine .pure ?_
  split <;> omega

theorem get_returns (h : s.WF columns) {line : Int} (hl : s.HasLine line) :
    Returns (s.get line) (Row.WF columns) := by
  refine (computeIndex_returns h hl).bind fun i hi => ?_
  exact ⟨s.inner[i], List.getElem?_eq_getElem hi, h.rows _ (List.getElem_mem hi)⟩

theorem modify_returns (h : s.WF columns) {line : Int} (hl : s.HasLine line)
    {f : Row T → Option (Row T)} (hf : ∀ r, r.WF columns → Returns (f r) (Row.WF columns)) :
    Returns (s.modify line f) fun s' => s'.WF columns ∧ s.SameShape s' := by
  refine (computeIndex_returns h hl).bind fun i hi => ?_
  rw [List.getElem?_eq_getElem hi]
  refine (hf _ (h.rows _ (List.getElem_mem hi))).bind fun r' hr' => .pure ?_
  have hshape : s.SameShape { s with inner := s.inner.set i r' } :=
    ⟨rfl, rfl, rfl, List.length_set⟩
  refine ⟨hshape.wf h fun r hr => ?_, hshape⟩
  rcases List.mem_or_eq_of_mem_set hr with hr | rfl
  · exact h.rows r hr
  · exact hr'

theorem swap_returns (h : s.WF columns) {a b : Int} (ha : s.HasLine a) (hb : s.HasLine b) :
    Returns (s.swap a b) fun s' => s'.WF columns ∧ s.SameShape s' := by
  refine (computeIndex_returns h ha).bind fun i hi => ?_
  refine (computeIndex_returns h hb).bind fun j hj => ?_
  rw [List.getElem?_eq_getElem hi, List.getElem?_eq_getElem hj]
  refine .pure ?_
  have hshape : s.SameShape { s with inner := (s.inner.set i s.inner[j]).set j s.inner[i] } :=
    ⟨rfl, rfl, rfl, by simp only [List.length_set]⟩
  refine ⟨hshape.wf h fun r hr => ?_, hshape⟩
  rcases List.mem_or_eq_of_mem_set hr with hr | rfl
  · rcases List.mem_or_eq_of_mem_set hr with hr | rfl
    · exact h.rows r hr
    · exact h.rows _ (List.getElem_mem hj)
  · exact h.rows _ (List.getElem_mem hi)

/-- Swapping lines with others keeps the shape, as long as both exist. -/
theorem swapLines_returns (h : s.WF columns) {delta : Int} {lines : List Int}
    (hl : ∀ l ∈ lines, s.HasLine l ∧ s.HasLine (l + delta)) :
    Returns (s.swapLines delta lines) fun s' => s'.WF columns ∧ s.SameShape s' := by
  refine Returns.foldlM ⟨h, .refl s⟩ fun t ht l hmem => ?_
  obtain ⟨ht, hshape⟩ := ht
  obtain ⟨ha, hb⟩ := hl l hmem
  refine (swap_returns ht (hshape.hasLine.mpr ha) (hshape.hasLine.mpr hb)).mono fun u hu => ?_
  exact ⟨hu.1, hshape.trans hu.2⟩

theorem rezero_returns (h : s.Bounded columns) :
    Returns s.rezero fun s' => s'.Bounded columns ∧ s'.zero = 0 ∧ s'.visibleLines = s.visibleLines ∧
      s'.len = s.len ∧ s'.inner.length = s.inner.length := by
  unfold rezero
  rw [if_pos (Nat.le_of_lt h.zero_lt)]
  refine .pure ⟨⟨?_, h.len_pos, ?_, fun r hr => ?_⟩, rfl, rfl, rfl, ?_⟩
  · exact List.length_pos_iff.mpr (List.rotate_eq_nil_iff.not.mpr h.inner_ne_nil)
  · simpa only [List.length_rotate] using h.len_le
  · exact h.rows r (List.mem_rotate.mp hr)
  · exact List.length_rotate ..

theorem truncate_returns (h : s.Bounded columns) :
    Returns s.truncate fun s' => s'.Bounded columns ∧ s'.visibleLines = s.visibleLines ∧
      s'.len = s.len ∧ s'.inner.length = s.len := by
  refine (rezero_returns h).bind fun t ht => .pure ?_
  obtain ⟨ht, hz, hv, hl, hi⟩ := ht
  have hpos := ht.len_pos
  have hlen : (t.inner.take t.len).length = t.len := List.length_take_of_le ht.len_le
  refine ⟨⟨?_, hpos, ?_, fun r hr => ?_⟩, hv, hl, hlen.trans hl⟩
  · simp only [hz, hlen]
    omega
  · exact Nat.le_of_eq hlen.symm
  · exact ht.rows r (List.mem_of_mem_take hr)

theorem shrinkLines_bounded (h : s.Bounded columns) {n : Nat} (hn : n < s.len) :
    Returns (s.shrinkLines n) fun s' =>
      s'.Bounded columns ∧ s'.visibleLines = s.visibleLines ∧ s'.len = s.len - n := by
  have hbounded : Bounded columns { s with len := s.len - n } :=
    ⟨h.zero_lt, Nat.sub_pos_of_lt hn, Nat.le_trans (Nat.sub_le _ _) h.len_le, h.rows⟩
  unfold shrinkLines
  rw [usub_of_le (Nat.le_of_lt hn)]
  simp only [Option.bind_eq_bind, Option.bind_some]
  split
  · refine (truncate_returns hbounded).mono fun t ht => ?_
    exact ⟨ht.1, ht.2.1, ht.2.2.1⟩
  · exact .pure ⟨hbounded, rfl, rfl⟩

/-- Shrinking is safe as long as the rest still fills the screen. -/
theorem shrinkLines_returns (h : s.WF columns) {n : Nat} (hn : s.visibleLines + n ≤ s.len) :
    Returns (s.shrinkLines n) fun s' =>
      s'.WF columns ∧ s'.visibleLines = s.visibleLines ∧ s'.len = s.len - n := by
  have hpos := h.visible_pos
  refine (shrinkLines_bounded h.toBounded (n := n) (by omega)).mono fun t ht => ?_
  obtain ⟨ht, hv, hl⟩ := ht
  exact ⟨⟨ht, by omega, by omega⟩, hv, hl⟩

theorem shrinkVisibleLines_returns (h : s.WF columns) {next : Nat} (hpos : 1 ≤ next)
    (hn : next ≤ s.visibleLines) :
    Returns (s.shrinkVisibleLines next) fun s' => s'.WF columns ∧ s'.visibleLines = next ∧
      s'.len = s.len - (s.visibleLines - next) := by
  have hvis := h.visible_le
  unfold shrinkVisibleLines
  rw [usub_of_le hn]
  have hshrink := shrinkLines_bounded h.toBounded (n := s.visibleLines - next) (by omega)
  refine hshrink.bind fun t ht => .pure ?_
  obtain ⟨ht, hv, hl⟩ := ht
  exact ⟨⟨⟨ht.zero_lt, ht.len_pos, ht.len_le, ht.rows⟩, hpos, by simp only; omega⟩, rfl, hl⟩

theorem rotate_returns (h : s.WF columns) {c : Int} (hc : c.natAbs ≤ s.inner.length) :
    Returns (s.rotate c) fun s' => s'.WF columns ∧ s'.visibleLines = s.visibleLines ∧
      s'.len = s.len := by
  unfold rotate
  rw [if_pos ⟨hc, h.inner_ne_nil⟩]
  refine .pure ⟨⟨⟨Nat.mod_lt _ ?_, h.len_pos, h.len_le, h.rows⟩, h.visible_pos, h.visible_le⟩,
    rfl, rfl⟩
  exact List.length_pos_iff.mpr h.inner_ne_nil

theorem rotateDown_returns (h : s.WF columns) (count : Nat) :
    Returns (s.rotateDown count) fun s' => s'.WF columns ∧ s'.visibleLines = s.visibleLines ∧
      s'.len = s.len := by
  unfold rotateDown
  rw [if_pos h.inner_ne_nil]
  refine .pure ⟨⟨⟨Nat.mod_lt _ ?_, h.len_pos, h.len_le, h.rows⟩, h.visible_pos, h.visible_le⟩,
    rfl, rfl⟩
  exact List.length_pos_iff.mpr h.inner_ne_nil

/-- `take_all` hands out the active rows. -/
theorem takeAll_returns (h : s.WF columns) :
    Returns s.takeAll fun p => p.1.length = s.len ∧ (∀ r ∈ p.1, r.WF columns) ∧
      p.2.visibleLines = s.visibleLines := by
  refine (truncate_returns h.toBounded).bind fun t ht => .pure ?_
  obtain ⟨ht, hv, hl, hi⟩ := ht
  exact ⟨hi, ht.rows, hv⟩

theorem replaceInner_wf {vec : List (Row T)} (hv : 1 ≤ s.visibleLines)
    (hlen : s.visibleLines ≤ vec.length) (hrows : ∀ r ∈ vec, r.WF columns) :
    (s.replaceInner vec).WF columns :=
  ⟨⟨Nat.le_trans hv hlen, Nat.le_trans hv hlen, Nat.le_refl _, hrows⟩, hv, hlen⟩

variable [GridCell T]

theorem resetLines_returns (h : s.WF columns) (hc : 1 ≤ columns) (template : T) {lines : List Int}
    (hl : ∀ l ∈ lines, s.HasLine l) :
    Returns (s.resetLines template lines) fun s' => s'.WF columns ∧ s.SameShape s' := by
  refine Returns.foldlM ⟨h, .refl s⟩ fun t ht l hmem => ?_
  obtain ⟨ht, hshape⟩ := ht
  refine (modify_returns ht (hshape.hasLine.mpr (hl l hmem)) fun r hr =>
    Row.reset_returns hr hc template).mono fun u hu => ?_
  exact ⟨hu.1, hshape.trans hu.2⟩

theorem withCapacity_wf {lines : Nat} (hl : 1 ≤ lines) :
    (withCapacity lines columns : Storage T).WF columns where
  zero_lt := by
    simp only [withCapacity, List.length_replicate]
    omega
  len_le := by simp only [withCapacity, List.length_replicate, Nat.le_refl]
  len_pos := hl
  visible_pos := hl
  visible_le := Nat.le_refl _
  rows r hr := by
    rw [List.eq_of_mem_replicate hr]
    exact Row.new_wf columns

/-- Fresh rows are appended behind the cached ones when these do not suffice. -/
theorem initializeRows_returns (h : s.WF columns) (n : Nat) :
    Returns (s.initializeRows n columns) fun s' =>
      s'.WF columns ∧ s'.visibleLines = s.visibleLines ∧ s'.len = s.len + n := by
  have hpos := h.visible_pos
  have hvis := h.visible_le
  refine Returns.bind (P := fun t : Storage T => t.Bounded columns ∧
    t.visibleLines = s.visibleLines ∧ t.len = s.len ∧ s.len + n ≤ t.inner.length) ?_ fun t ht => ?_
  · split
    · refine (rezero_returns h.toBounded).bind fun t ht => .pure ?_
      obtain ⟨ht, hz, hv, hl, hi⟩ := ht
      have hlen := h.len_le
      have hzero := ht.zero_lt
      refine ⟨⟨?_, ht.len_pos, ?_, fun r hr => ?_⟩, hv, hl, ?_⟩
      · simp only [List.length_append]
        omega
      · simp only [List.length_append]
        omega
      · rcases List.mem_append.mp hr with hr | hr
        · exact ht.rows r hr
        · rw [List.eq_of_mem_replicate hr]
          exact Row.new_wf columns
      · simp only [List.length_append, List.length_replicate]
        omega
    · exact .pure ⟨h.toBounded, rfl, rfl, by omega⟩
  · obtain ⟨ht, hv, hl, hroom⟩ := ht
    refine .pure ⟨⟨⟨ht.zero_lt, ?_, ?_, ht.rows⟩, ?_, ?_⟩, hv, ?_⟩ <;> simp only <;> omega

theorem growVisibleLines_returns (h : s.WF columns) {next : Nat} (hn : s.visibleLines ≤ next) :
    Returns (s.growVisibleLines next) fun s' => s'.WF columns ∧ s'.visibleLines = next ∧
      s'.len = s.len + (next - s.visibleLines) := by
  have hpos := h.visible_pos
  have hvis := h.visible_le
  unfold growVisibleLines
  rw [usub_of_le hn]
  refine (get_returns h ⟨by omega, by omega⟩).bind fun row hrow => ?_
  rw [hrow.len_eq]
  refine (initializeRows_returns h _).bind fun t ht => .pure ?_
  obtain ⟨ht, hv, hl⟩ := ht
  exact ⟨⟨⟨ht.zero_lt, ht.len_pos, ht.len_le, ht.rows⟩, by simp only; omega, by simp only; omega⟩,
    rfl, hl⟩

end Storage
end Velacritty
