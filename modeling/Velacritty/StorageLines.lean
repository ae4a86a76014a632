import Velacritty.GridCells
import Velacritty.StorageRows
import Velacritty.Swaps

/-! What the operations of the ring buffer do to its lines. -/
namespace Velacritty
open Fallible

namespace Row
variable {T : Type} [GridCell T]

def Fresh (template : T) (columns : Nat) (r : Row T) : Prop :=
  ∃ old : Row T, old.WF columns ∧ old.reset template = some r

end Row

namespace Storage
variable {T : Type} {s s' : Storage T} {columns : Nat} {line : Int}

/-! ### Lines and rows -/

theorem Stored.get_eq (h : s.Stored) (hl : s.HasLine line) :
    s.get line = s.rows[s.position line]? := by
  rw [get, hl.computeIndex, Option.bind_eq_bind, Option.bind_some]
  exact h.getElem?_rows hl hl.computeIndex

theorem Stored.get_ring (h : s.Stored) (hl : s.HasLine line) :
    s.get line = s.ring[s.position line]? := by
  rw [h.get_eq hl, getElem?_rows_of_lt hl.position_lt]

theorem get_eq_none (h : ¬ s.HasLine line) : s.get line = none := by
  cases hr : s.get line with
  | none => rfl
  | some r => exact absurd (hasLine_of_get hr) h

/-- Lines that are at the same place of their lists of rows are equal. -/
theorem Stored.get_eq_get (h : s.Stored) (h' : s'.Stored) {line' : Int} (hl : s.HasLine line)
    (hl' : s'.HasLine line') (hrows : s'.rows[s'.position line']? = s.rows[s.position line]?) :
    s'.get line' = s.get line := by
  rw [h.get_eq hl, h'.get_eq hl', hrows]

/-! ### Swapping -/

theorem swap_get (h : s.WF columns) {a b : Int} (hs : s.swap a b = some s') :
    s'.WF columns ∧ s.SameShape s' ∧ s'.get = Swaps.exchange s.get a b ∧
      s.HasLine a ∧ s.HasLine b := by
  have hswap := hs
  simp only [swap, Option.bind_eq_bind, Option.bind_eq_some_iff, Option.some.injEq] at hs
  obtain ⟨i, hi, j, hj, x, hx, y, hy, rfl⟩ := hs
  obtain ⟨hwf, hshape⟩ :=
    (swap_returns h (computeIndex_spec hi).1 (computeIndex_spec hj).1).of_eq hswap
  refine ⟨hwf, hshape, ?_, (computeIndex_spec hi).1, (computeIndex_spec hj).1⟩
  have hilt := (List.getElem?_eq_some_iff.mp hx).1
  have hjlt := (List.getElem?_eq_some_iff.mp hy).1
  have ha : s.get a = some x := by rw [get, hi, Option.bind_eq_bind, Option.bind_some, hx]
  have hb : s.get b = some y := by rw [get, hj, Option.bind_eq_bind, Option.bind_some, hy]
  funext l
  by_cases hlb : l = b
  · subst hlb
    rw [Swaps.exchange_source, ha, get, hshape.computeIndex, hj, Option.bind_eq_bind,
      Option.bind_some, List.getElem?_set_self (by rwa [List.length_set])]
  · by_cases hla : l = a
    · subst hla
      have hne : j ≠ i := by
        rintro rfl
        exact hlb (computeIndex_inj h.toBounded hi hj)
      rw [Swaps.exchange_target, hb, get, hshape.computeIndex, hi, Option.bind_eq_bind,
        Option.bind_some, List.getElem?_set_ne hne, List.getElem?_set_self hilt]
    · rw [Swaps.exchange_other _ hla hlb, get, get, hshape.computeIndex]
      cases hk : s.computeIndex l with
      | none => rfl
      | some k =>
          have hki : i ≠ k := by
            rintro rfl
            exact hla (computeIndex_inj h.toBounded hk hi)
          have hkj : j ≠ k := by
            rintro rfl
            exact hlb (computeIndex_inj h.toBounded hk hj)
          simp only [Option.bind_eq_bind, Option.bind_some]
          rw [List.getElem?_set_ne hkj, List.getElem?_set_ne hki]

theorem swapLines_get (h : s.WF columns) {delta : Int} {lines : List Int} :
    Allows (s.swapLines delta lines) fun s' => s'.WF columns ∧ s.SameShape s' ∧
      s'.get = Swaps.chain s.get (lines.map fun l => (l, l + delta)) ∧
      ∀ l ∈ lines, s.HasLine l ∧ s.HasLine (l + delta) := by
  induction lines generalizing s with
  | nil => exact .pure ⟨h, .refl s, rfl, fun l hl => absurd hl List.not_mem_nil⟩
  | cons line rest ih =>
      intro s' hs'
      simp only [swapLines, List.foldlM_cons, Option.bind_eq_bind, Option.bind_eq_some_iff] at hs'
      obtain ⟨a, ha, hs'⟩ := hs'
      obtain ⟨hwf, hshape, hget, hlines⟩ := swap_get h ha
      obtain ⟨hwf', hshape', hget', hrest⟩ := ih hwf s' hs'
      refine ⟨hwf', hshape.trans hshape', ?_, fun l hl => ?_⟩
      · rw [hget', hget]
        rfl
      · rcases List.mem_cons.mp hl with rfl | hl
        · exact hlines
        · rw [← hshape.hasLine, ← hshape.hasLine]
          exact hrest l hl

/-! ### Rotating -/

theorem rotate_get (h : s.WF columns) {count : Nat} (hs : s.rotate (-count) = some s') :
    s'.WF columns ∧ s'.visibleLines = s.visibleLines ∧ s'.len = s.len ∧
      ∀ l, s.HasLine l → l + count < s.visibleLines → s'.get l = s.get (l + count) := by
  have hle : (-(count : Int)).natAbs ≤ s.inner.length := by
    unfold rotate at hs
    split at hs
    · next hle => exact hle.1
    · cases hs
  obtain ⟨hwf, hvis, hlen⟩ := (rotate_returns h hle).of_eq hs
  obtain ⟨-, -, -, hring⟩ := (h.filled.rotate hle).of_eq hs
  refine ⟨hwf, hvis, hlen, fun l hl hlt => ?_⟩
  have hl' : s'.HasLine l := by simpa only [HasLine, hvis, hlen] using hl
  have hup : s.HasLine (l + count) := by
    simp only [HasLine] at hl ⊢
    omega
  have hpos := h.filled.position_lt hl
  rw [hwf.filled.get_ring hl', h.filled.get_ring hup, hring, ← s.length_ring]
  have hposition : s'.position l = s.position l := by rw [position, position, hvis]
  have hback : s.position (l + count) = s.position l - count := by
    simp only [position]
    omega
  rw [hposition, hback]
  refine Circular.getElem?_rotate_neg ?_ (s.length_ring.symm ▸ hpos)
  simp only [position]
  omega

theorem rotateDown_get (h : s.WF columns) {count : Nat} (hs : s.rotateDown count = some s') :
    s'.WF columns ∧ s'.visibleLines = s.visibleLines ∧ s'.len = s.len ∧
      ∀ l, s.HasLine l → s.HasLine (l - count) → s'.get l = s.get (l - count) := by
  obtain ⟨hwf, hvis, hlen⟩ := (rotateDown_returns h count).of_eq hs
  obtain ⟨-, -, -, hring⟩ := (h.filled.rotateDown count).of_eq hs
  refine ⟨hwf, hvis, hlen, fun l hl hdown => ?_⟩
  have hl' : s'.HasLine l := by simpa only [HasLine, hvis, hlen] using hl
  have hpos := h.filled.position_lt hdown
  have hposition : s'.position l = s.position l := by rw [position, position, hvis]
  have hforth : s.position (l - count) = s.position l + count := by
    simp only [position, HasLine] at hl ⊢
    omega
  have hlength := s.length_ring
  rw [hwf.filled.get_ring hl', h.filled.get_ring hdown, hring, hposition, hforth]
  rw [hforth] at hpos
  rw [List.getElem?_rotate (by omega), hlength, Nat.mod_eq_of_lt hpos]

/-! ### Changing the number of lines -/

theorem shrinkLines_get (h : s.WF columns) {n : Nat} (hn : s.visibleLines + n ≤ s.len)
    (hs : s.shrinkLines n = some s') :
    s'.WF columns ∧ s'.visibleLines = s.visibleLines ∧ s'.len = s.len - n ∧
      ∀ l, s'.HasLine l → s'.get l = s.get l := by
  have hpos := h.visible_pos
  obtain ⟨hwf, hvis, hlen⟩ := (shrinkLines_returns h hn).of_eq hs
  obtain ⟨hstored, -, -, hrows⟩ := (h.filled.shrinkLines (n := n) (by omega)).of_eq hs
  refine ⟨hwf, hvis, hlen, fun l hl => ?_⟩
  have hold : s.HasLine l := by
    simp only [HasLine, hvis, hlen] at hl ⊢
    omega
  refine h.filled.get_eq_get hstored hold hl ?_
  rw [hrows, show s'.position l = s.position l by rw [position, position, hvis]]
  refine List.getElem?_take_of_lt ?_
  have hlt := hl.position_lt
  rwa [hlen, show s'.position l = s.position l by rw [position, position, hvis]] at hlt

/-- The rows of the bottommost lines go to the end of the buffer, and the screen gets smaller
by them: its lines stay. -/
theorem cutBottom_get (h : s.WF columns) {next : Nat} (hpos : 1 ≤ next) (hn : next ≤ s.visibleLines) {a : Storage T}
    (ha : s.rotate ((s.visibleLines - next : Nat) : Int) = some a)
    (hs : a.shrinkVisibleLines next = some s') :
    s'.WF columns ∧ s'.visibleLines = next ∧ s'.len = s.len - (s.visibleLines - next) ∧
      ∀ l, s'.HasLine l → s'.get l = s.get l := by
  have hvis := h.visible_le
  have hlen := h.len_le
  have hcount : ((s.visibleLines - next : Nat) : Int).natAbs ≤ s.inner.length := by omega
  obtain ⟨hawf, havis, halen⟩ := (rotate_returns h hcount).of_eq ha
  obtain ⟨hafilled, -, -, hring⟩ := (h.filled.rotate hcount).of_eq ha
  have hn' : next ≤ a.visibleLines := havis ▸ hn
  obtain ⟨hwf, hsvis, hslen⟩ := (shrinkVisibleLines_returns hawf hpos hn').of_eq hs
  obtain ⟨hfilled, -, hrows⟩ := (hafilled.shrinkVisibleLines hpos hn').of_eq hs
  rw [halen, havis] at hslen
  refine ⟨hwf, hsvis, hslen, fun l hl => ?_⟩
  have hlt := hl.position_lt
  have hold : s.HasLine l := by
    simp only [HasLine, hsvis, hslen] at hl ⊢
    omega
  have hforth : s.position l = s'.position l + (s.visibleLines - next) := by
    simp only [position, HasLine, hsvis, hslen] at hl ⊢
    omega
  have hlength := s.length_ring
  have hpos' := h.filled.position_lt hold
  rw [hfilled.get_eq hl, hrows, h.filled.get_ring hold, halen, havis, ← hslen,
    List.getElem?_take_of_lt hlt, getElem?_rows_of_lt (by omega), hring, hforth, ← hlength]
  exact Circular.getElem?_rotate_pos (by omega)

variable [GridCell T]

/-- A larger screen takes its lines from the history, and then from the cached rows. -/
theorem growVisibleLines_get (h : s.WF columns) {next : Nat} (hn : s.visibleLines ≤ next)
    (hs : s.growVisibleLines next = some s') :
    s'.WF columns ∧ s'.visibleLines = next ∧ s'.len = s.len + (next - s.visibleLines) ∧
      ∀ l, s.HasLine l → s'.get (l + (next - s.visibleLines : Nat)) = s.get l := by
  obtain ⟨hwf, hvis, hlen⟩ := (growVisibleLines_returns h hn).of_eq hs
  obtain ⟨hfilled, -, fresh, hrows⟩ := (h.filled.growVisibleLines hn).of_eq hs
  refine ⟨hwf, hvis, hlen, fun l hl => ?_⟩
  have hl' : s'.HasLine (l + (next - s.visibleLines : Nat)) := by
    simp only [HasLine, hvis, hlen] at hl ⊢
    omega
  have hposition : s'.position (l + (next - s.visibleLines : Nat)) = s.position l := by
    simp only [position, hvis]
    omega
  obtain ⟨more, hmore⟩ := h.filled.isPrefix_take
    (List.replicate (next - s.visibleLines) (Row.new fresh)) (next - s.visibleLines)
  refine h.filled.get_eq_get hfilled.toStored hl hl' ?_
  rw [hrows, ← hmore, hposition]
  refine List.getElem?_append_left ?_
  rw [h.filled.length_rows]
  exact hl.position_lt

/-- Lines above the topmost one appear. -/
theorem initializeRows_get (h : s.WF columns) {n : Nat} (hs : s.initializeRows n columns = some s') :
    s'.WF columns ∧ s'.visibleLines = s.visibleLines ∧ s'.len = s.len + n ∧
      ∀ l, s.HasLine l → s'.get l = s.get l := by
  obtain ⟨hwf, hvis, hlen⟩ := (initializeRows_returns h n).of_eq hs
  obtain ⟨hstored, -, -, hrows⟩ := (h.filled.initializeRows n columns).of_eq hs
  refine ⟨hwf, hvis, hlen, fun l hl => ?_⟩
  have hl' : s'.HasLine l := by
    simp only [HasLine, hvis, hlen] at hl ⊢
    omega
  obtain ⟨more, hmore⟩ := h.filled.isPrefix_take (List.replicate n (Row.new columns)) n
  refine h.filled.get_eq_get hstored hl hl' ?_
  rw [hrows, ← hmore, show s'.position l = s.position l by rw [position, position, hvis]]
  refine List.getElem?_append_left ?_
  rw [h.filled.length_rows]
  exact hl.position_lt

/-- Each line given is reset, the others stay. -/
theorem resetLines_get (h : s.WF columns) (hc : 1 ≤ columns) {template : T} {lines : List Int} :
    Allows (s.resetLines template lines) fun s' => s'.WF columns ∧ s.SameShape s' ∧
      (∀ l ∈ lines, ∃ r, s'.get l = some r ∧ r.Fresh template columns) ∧
      ∀ l, l ∉ lines → s'.get l = s.get l := by
  induction lines generalizing s with
  | nil => exact .pure ⟨h, .refl s, fun l hl => absurd hl List.not_mem_nil, fun l _ => rfl⟩
  | cons line rest ih =>
      intro s' hs'
      simp only [resetLines, List.foldlM_cons, Option.bind_eq_bind, Option.bind_eq_some_iff] at hs'
      obtain ⟨a, ha, hs'⟩ := hs'
      obtain ⟨⟨r, r', hr, hr', hget⟩, hother⟩ := modify_get h ha
      obtain ⟨hwf, hshape⟩ := (modify_returns h (hasLine_of_get hr) fun r hr =>
        Row.reset_returns hr hc template).of_eq ha
      obtain ⟨hwf', hshape', hreset, hkept⟩ := ih hwf s' hs'
      have hrwf := (get_returns h (hasLine_of_get hr)).of_eq hr
      refine ⟨hwf', hshape.trans hshape', fun l hl => ?_, fun l hl => ?_⟩
      · by_cases hrest : l ∈ rest
        · exact hreset l hrest
        · obtain rfl : l = line := (List.mem_cons.mp hl).resolve_right hrest
          exact ⟨r', (hkept l hrest).trans hget, r, hrwf, hr'⟩
      · rw [List.mem_cons, not_or] at hl
        exact (hkept l hl.2).trans (hother l hl.1)

/-- Each line given once is the reset of what it was. -/
theorem resetLines_reset (h : s.WF columns) (hc : 1 ≤ columns) {template : T} {lines : List Int}
    (hnodup : lines.Nodup) :
    Allows (s.resetLines template lines) fun s' => ∀ l ∈ lines, ∃ r r', s.get l = some r ∧
      r.reset template = some r' ∧ s'.get l = some r' := by
  induction lines generalizing s with
  | nil => exact fun s' _ l hl => absurd hl List.not_mem_nil
  | cons line rest ih =>
      intro s' hs' l hl
      obtain ⟨hfresh, hrest⟩ := List.nodup_cons.mp hnodup
      simp only [resetLines, List.foldlM_cons, Option.bind_eq_bind, Option.bind_eq_some_iff] at hs'
      obtain ⟨a, ha, hs'⟩ := hs'
      obtain ⟨⟨r, r', hr, hr', hget⟩, hother⟩ := modify_get h ha
      have hwf := ((modify_returns h (hasLine_of_get hr) fun r hr =>
        Row.reset_returns hr hc template).of_eq ha).1
      rcases List.mem_cons.mp hl with rfl | hmem
      · have hkept := (resetLines_get hwf hc s' hs').2.2.2 l hfresh
        exact ⟨r, r', hr, hr', hkept.trans hget⟩
      · rw [← hother l fun heq => hfresh (heq ▸ hmem)]
        exact ih hwf hrest s' hs' l hmem

end Storage
end Velacritty
