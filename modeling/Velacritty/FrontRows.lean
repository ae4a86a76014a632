import Velacritty.GridResizeSound
import Velacritty.StoredRows

/-! What holds of the rows nearest to the bottom while the number of lines changes. -/
namespace Velacritty
open Fallible

namespace Storage
variable {T : Type} {s s' : Storage T} {P Q : Row T → Prop} {n m columns : Nat} {line : Int}

/-- The first `n` rows from the bottom upwards satisfy `P`. -/
def Front (P : Row T → Prop) (n : Nat) (s : Storage T) : Prop :=
  ∀ k r, k < n → s.ring[k]? = some r → P r

theorem Front.mono (h : s.Front P n) (hm : m ≤ n) : s.Front P m :=
  fun k r hk hr => h k r (Nat.lt_of_lt_of_le hk hm) hr

theorem front_of_rows (h : ∀ r ∈ s.rows, P r) : s.Front P s.len := fun _ _ hk hr =>
  h _ (List.mem_of_getElem? ((getElem?_rows_of_lt hk).trans hr))

theorem Front.rows (h : s.Front P s.len) : ∀ r ∈ s.rows, P r := by
  intro r hr
  obtain ⟨k, hk⟩ := List.getElem?_of_mem hr
  have hlt : k < s.len := by
    have hlen := (List.getElem?_eq_some_iff.mp hk).1
    simp only [Storage.rows, List.length_take] at hlen
    omega
  exact h k r hlt ((getElem?_rows_of_lt hlt).symm.trans hk)

/-- Rows that stay in front of those that become active. -/
theorem Front.of_rows (h : s.Front P n) (hs : s.Stored) (hn : n ≤ s.len) (hlen : n ≤ s'.len)
    (hrows : s.rows <+: s'.rows) : s'.Front P n := by
  obtain ⟨more, hmore⟩ := hrows
  intro k r hk hr
  rw [← getElem?_rows_of_lt (Nat.lt_of_lt_of_le hk hlen), ← hmore,
    List.getElem?_append_left (by rw [hs.length_rows]; omega), getElem?_rows_of_lt (by omega)] at hr
  exact h k r hk hr

theorem Front.shrinkLines (h : s.Front P n) (hs : s.Stored) {count : Nat} (hc : count < s.len)
    (hn : s.len - count ≤ n) : Allows (s.shrinkLines count) fun s' => ∀ r ∈ s'.rows, P r := by
  refine (hs.shrinkLines hc).allows.mono fun s' hs' => ?_
  obtain ⟨hstored, -, hlen, hrows⟩ := hs'
  intro r hr
  rw [hrows] at hr
  obtain ⟨k, hk⟩ := List.getElem?_of_mem hr
  have hlt : k < s.len - count := by
    have hk' := (List.getElem?_eq_some_iff.mp hk).1
    rw [List.length_take] at hk'
    omega
  rw [List.getElem?_take_of_lt hlt, getElem?_rows_of_lt (by omega)] at hk
  exact h k r (by omega) hk

/-- Rotating the buffer by rows upwards puts the rows that were furthest up to the bottom. -/
theorem Filled.rotateUp (h : s.Filled) {count : Nat} (hf : s.Front P n) :
    Allows (s.rotate (-count)) fun s' => s'.Filled ∧ s'.visibleLines = s.visibleLines ∧
      s'.len = s.len ∧ ∀ k r, count ≤ k → k < n + count → s'.ring[k]? = some r → P r := by
  intro s' hs'
  have hle : (-(count : Int)).natAbs ≤ s.inner.length := by
    unfold Storage.rotate at hs'
    split at hs'
    · next hle => exact hle.1
    · cases hs'
  obtain ⟨hfilled, hvis, hlen, hring⟩ := (h.rotate hle).of_eq hs'
  refine ⟨hfilled, hvis, hlen, fun k r hlo hhi hr => ?_⟩
  have hpos : 0 < s.ring.length := s.length_ring ▸ Nat.lt_of_le_of_lt (Nat.zero_le _) h.zero_lt
  have hk : k < s.ring.length := by
    have hk := (List.getElem?_eq_some_iff.mp hr).1
    rwa [hring, List.length_rotate] at hk
  rw [hring, ← s.length_ring, Circular.getElem?_rotate_neg hlo hk] at hr
  exact hf (k - count) r (by omega) hr

/-- Rotating down drops the bottom rows, which go behind the others. -/
theorem Filled.rotateRows (h : s.Filled) {count : Nat} (hf : s.Front P n) (hn : n ≤ s.inner.length) :
    Allows (s.rotate count) fun s' => s'.Filled ∧ s'.visibleLines = s.visibleLines ∧
      s'.len = s.len ∧ s'.Front P (n - count) := by
  intro s' hs'
  have hle : (count : Int).natAbs ≤ s.inner.length := by
    unfold Storage.rotate at hs'
    split at hs'
    · next hle => exact hle.1
    · cases hs'
  obtain ⟨hfilled, hvis, hlen, hring⟩ := (h.rotate hle).of_eq hs'
  refine ⟨hfilled, hvis, hlen, fun k r hk hr => ?_⟩
  have hlength := s.length_ring
  rw [hring, ← hlength, Circular.getElem?_rotate_pos (by omega)] at hr
  exact hf (k + count) r (by omega) hr

variable [GridCell T]

theorem Filled.resetLines (h : s.Filled) (hq : s.Holds Q) {template : T}
    (hreset : ∀ r, Q r → Allows (r.reset template) fun r' => Q r' ∧ P r') {lines : List Int}
    {S : Nat → Prop} (hS : ∀ k r, S k → s.ring[k]? = some r → P r) :
    Allows (s.resetLines template lines) fun s' => s'.Filled ∧ s.SameShape s' ∧ s'.Holds Q ∧
      ∀ k r, (S k ∨ ∃ l ∈ lines, s.position l = k) → s'.ring[k]? = some r → P r := by
  induction lines generalizing s S with
  | nil =>
      refine .pure ⟨h, .refl s, hq, fun k r hk => hS k r (hk.resolve_right ?_)⟩
      rintro ⟨l, hl, -⟩
      cases hl
  | cons line rest ih =>
      intro s' hs'
      simp only [Storage.resetLines, List.foldlM_cons, Option.bind_eq_bind,
        Option.bind_eq_some_iff] at hs'
      obtain ⟨a, ha, hs'⟩ := hs'
      obtain ⟨i, r, r', hi, hr, hr', rfl⟩ := modify_inner ha
      obtain ⟨hqr', hpr'⟩ := hreset r (hq r (List.mem_of_getElem? hr)) r' hr'
      have hline := (computeIndex_spec hi).1
      have hshape : s.SameShape { s with inner := s.inner.set i r' } := ⟨rfl, rfl, rfl, List.length_set⟩
      have hqa : Holds Q { s with inner := s.inner.set i r' } := fun x hx =>
        (List.mem_or_eq_of_mem_set hx).elim (hq x) fun heq => heq ▸ hqr'
      cases Option.some.inj (hline.computeIndex.symm.trans hi)
      have hring : ring { s with
          inner := s.inner.set (Circular.index s.inner.length s.zero (s.position line)) r' } =
          s.ring.set (s.position line) r' := Circular.rotate_set h.zero_lt (h.position_lt hline) r'
      refine (ih (S := fun k => S k ∨ s.position line = k) (hshape.filled h) hqa ?_ s' hs').imp_right ?_
      · intro k x hk hx
        rw [hring, List.getElem?_set] at hx
        split at hx
        · simp only [Option.ite_none_right_eq_some, Option.some.injEq] at hx
          exact hx.2 ▸ hpr'
        · next hne => exact hS k x (hk.resolve_right hne) hx
      · rintro ⟨hsame, hq', hall⟩
        refine ⟨hshape.trans hsame, hq', fun k x hk hx => hall k x ?_ hx⟩
        rcases hk with hk | ⟨l, hl, hk⟩
        · exact .inl (.inl hk)
        · rcases List.mem_cons.mp hl with rfl | hl
          · exact .inl (.inr hk)
          · exact .inr ⟨l, hl, hk⟩

end Storage

namespace Grid
open Storage (Lasting)
variable {T : Type} [GridCell T] {g : Grid T} {P Q : Row T → Prop} {n : Nat}

/-- The rows fill the screen, satisfy `Q`, and the first `n` of them `P`. -/
structure Fronted (P Q : Row T → Prop) (n : Nat) (g : Grid T) : Prop where
  filled : g.raw.Filled
  visible : g.raw.visibleLines = g.lines
  holds : g.raw.Holds Q
  front : g.raw.Front P n

theorem increaseScrollLimit_front (hQ : Lasting Q) (h : g.Fronted P Q n) (hn : n ≤ g.raw.len)
    (count : Nat) : Allows (g.increaseScrollLimit count) fun g' => g'.Fronted P Q n ∧
      g'.lines = g.lines ∧ g.raw.len ≤ g'.raw.len ∧ g'.raw.len ≤ g.raw.len + count := by
  intro g' hg'
  have hholds := (increaseScrollLimit_restocked hQ h.holds count g' hg').rows
  simp only [increaseScrollLimit, Option.bind_eq_bind, Option.bind_eq_some_iff] at hg'
  obtain ⟨room, -, hg'⟩ := hg'
  split at hg'
  · simp only [Option.bind_eq_some_iff, Option.some.injEq] at hg'
    obtain ⟨raw, hraw, rfl⟩ := hg'
    obtain ⟨hstored, hvis, hlen, hrows⟩ := (h.filled.toStored.initializeRows _ _).of_eq hraw
    have hpre : g.raw.rows <+: raw.rows := hrows ▸ h.filled.isPrefix_take _ _
    have hpos := h.filled.visible_pos
    have hle := h.filled.visible_le
    refine ⟨⟨⟨hstored, ?_, ?_⟩, hvis.trans h.visible, hholds, ?_⟩, rfl, ?_, ?_⟩
    · exact hvis ▸ hpos
    · simp only
      omega
    · exact h.front.of_rows h.filled.toStored hn (by simp only; omega) hpre
    · simp only
      omega
    · simp only
      omega
  · cases hg'
    exact ⟨h, rfl, Nat.le_refl _, Nat.le_add_right _ _⟩

/-- Scrolling the whole screen up: the rows that come in at the bottom were reset. -/
theorem scrollUp_front (hQ : Lasting Q) (hP : ∀ r template, Q r → Allows (r.reset template) P)
    (h : g.Fronted P Q n) (hn : n ≤ g.raw.len) (positions : Nat) :
    Allows (g.scrollUp 0 g.lines positions) fun g' => g'.Fronted P Q (n + positions) ∧
      g'.lines = g.lines ∧ g.raw.len ≤ g'.raw.len ∧ g'.raw.len ≤ g.raw.len + positions := by
  have hpin : (g.pinViewport positions).Fronted P Q n ∧
      (g.pinViewport positions).lines = g.lines ∧ (g.pinViewport positions).raw = g.raw := by
    unfold pinViewport
    split
    · exact ⟨⟨h.filled, h.visible, h.holds, h.front⟩, rfl, rfl⟩
    · exact ⟨h, rfl, rfl⟩
  obtain ⟨hpin, hpinlines, hpinraw⟩ := hpin
  unfold scrollUp
  rw [if_neg fun hall => hall.2 rfl]
  refine Allows.bind (P := fun a : Grid T => a.raw.Filled ∧ a.raw.visibleLines = a.lines ∧
    a.lines = g.lines ∧ a.raw.Holds Q ∧ g.raw.len ≤ a.raw.len ∧
    a.raw.len ≤ g.raw.len + positions ∧ ∀ k r, positions ≤ k → k < n + positions →
      a.raw.ring[k]? = some r → P r) (fun a ha => ?_) fun a ha => ?_
  · have hholds := (rotateRegionUp_restocked hQ hpin.holds _ _ _ a ha).rows
    simp only [rotateRegionUp, if_true, Option.bind_eq_bind, Option.bind_eq_some_iff,
      Option.some.injEq] at ha
    obtain ⟨b, hb, c, hc, d, hd, e, he, rfl⟩ := ha
    obtain ⟨hbf, hblines, hblo, hbhi⟩ :=
      increaseScrollLimit_front hQ hpin (hpinraw ▸ hn) positions b hb
    rw [hpinraw] at hblo hbhi
    rw [hpinlines] at hblines
    rw [lineRange_eq_nil (Int.le_refl 0)] at hc
    cases hc
    rw [lineRange_eq_nil (by omega)] at he
    cases he
    obtain ⟨hfilled, hvis, hlen, hrows⟩ := hbf.filled.rotateUp hbf.front d hd
    simp only at *
    exact ⟨hfilled, hvis.trans hbf.visible, hblines, hholds, by omega, by omega, hrows⟩
  · obtain ⟨hfilled, hvis, hlines, hholds, hlo, hhi, hrows⟩ := ha
    refine (hfilled.resetLines (P := P) hholds (fun r hr r' hr' =>
      ⟨hQ.reset r _ hr r' hr', hP r _ hr r' hr'⟩)
      (S := fun k => positions ≤ k ∧ k < n + positions) fun k r hk hr =>
        hrows k r hk.1 hk.2 hr).bind fun raw hraw => .pure ?_
    obtain ⟨hfilled', hshape, hholds', hall⟩ := hraw
    refine ⟨⟨hfilled', hshape.visibleLines.trans hvis, hholds', fun k r hk hr => ?_⟩, hlines, ?_, ?_⟩
    · refine hall k r ?_ hr
      by_cases hpos : positions ≤ k
      · exact .inl ⟨hpos, hk⟩
      · refine .inr ⟨(g.lines : Int) - 1 - k, ?_, ?_⟩
        · rw [mem_lineRange]
          omega
        · simp only [Storage.position, hvis, hlines]
          omega
    · simp only [hshape.len]
      exact hlo
    · simp only [hshape.len]
      exact hhi

/-- Rows that become lines when the screen gets higher were reset, or leave it again. -/
theorem growLines_front (hQ : Lasting Q) (hP : ∀ r template, Q r → Allows (r.reset template) P)
    (h : g.Fronted P Q g.raw.len) (target : Nat) :
    Allows (g.growLines target) fun g' => ∀ r ∈ g'.raw.rows, P r := by
  intro g' hg'
  simp only [growLines, Option.bind_eq_bind, Option.bind_eq_some_iff] at hg'
  obtain ⟨added, hadded, raw, hraw, a, ha, hg'⟩ := hg'
  rw [usub_eq_some] at hadded
  obtain ⟨hle, hadded⟩ := hadded
  have hvis := h.visible
  have hvisle := h.filled.visible_le
  have hpos := h.filled.visible_pos
  have hlenle := h.filled.len_le
  have hholds := hQ.growVisibleLines h.holds raw hraw
  obtain ⟨hfilled, hrawvis, columns, hrows⟩ :=
    (h.filled.growVisibleLines (hvis ▸ hle)).of_eq hraw
  have hrawlen : raw.len = g.raw.len + added := by
    have hlength := hfilled.length_rows
    rw [hrows, List.length_take, List.length_append, Storage.length_ring, List.length_replicate,
      hvis, ← hadded] at hlength
    omega
  have hfront : raw.Front P g.raw.len := by
    refine h.front.of_rows h.filled.toStored (Nat.le_refl _) (by omega) ?_
    exact hrows ▸ h.filled.isPrefix_take _ _
  have hgrown : Fronted P Q g.raw.len { g with raw, lines := target } :=
    ⟨hfilled, hrawvis, hholds, hfront⟩
  have hhist : historySize { g with raw, lines := target } = g.raw.len - g.lines := by
    simp only [historySize_eq]
    omega
  rw [hhist] at ha hg'
  -- Either all lines come from the history, or those that do not are scrolled in.
  have hscrolled : ∃ x, a.Fronted P Q x ∧ a.lines = target ∧ raw.len ≤ a.raw.len ∧
      a.raw.len - min added (a.raw.len - target) ≤ x := by
    split at ha
    · next hne =>
        obtain ⟨hfronted, hlines, hlo, hhi⟩ := scrollUp_front hQ hP hgrown (by simp only; omega) _ a ha
        simp only at hlines hlo hhi
        exact ⟨_, hfronted, hlines, hlo, by omega⟩
    · cases ha
      exact ⟨_, hgrown, rfl, Nat.le_refl _, by simp only; omega⟩
  obtain ⟨x, hfronted, hlines, hlo, hx⟩ := hscrolled
  simp only [decreaseScrollLimit, historySize_eq, hlines] at hg'
  split at hg'
  · simp only [Option.bind_eq_bind, Option.bind_eq_some_iff, Option.some.injEq] at hg'
    obtain ⟨raw', hraw', rfl⟩ := hg'
    exact hfronted.front.shrinkLines hfronted.filled.toStored (by omega) (by omega) raw' hraw'
  · cases hg'
    exact (hfronted.front.mono (by omega)).rows

theorem shrinkLines_front (hQ : Lasting Q) (hP : ∀ r template, Q r → Allows (r.reset template) P)
    (h : g.Fronted P Q g.raw.len) {target : Nat} (htarget : 1 ≤ target) :
    Allows (g.shrinkLines target) fun g' => ∀ r ∈ g'.raw.rows, P r := by
  intro g' hg'
  simp only [shrinkLines, Option.bind_eq_bind, Option.bind_eq_some_iff] at hg'
  obtain ⟨line, -, a, ha, removed, hremoved, b, hb, c, hc, hg'⟩ := hg'
  cases hg'
  have hscrolled : a.raw.Filled ∧ a.raw.visibleLines = a.lines ∧ a.raw.Front P a.raw.len := by
    split at ha
    · simp only [Option.bind_eq_some_iff, Option.some.injEq] at ha
      obtain ⟨s, hs, rfl⟩ := ha
      obtain ⟨hfronted, hlines, hlo, hhi⟩ := scrollUp_front hQ hP h (Nat.le_refl _) _ s hs
      exact ⟨hfronted.filled, hfronted.visible, hfronted.front.mono hhi⟩
    · cases ha
      exact ⟨h.filled, h.visible, h.front⟩
  obtain ⟨hfilled, hvis, hfront⟩ := hscrolled
  have hvisle := hfilled.visible_le
  rw [usub_eq_some] at hremoved
  obtain ⟨hbf, hbvis, hblen, hbfront⟩ := hfilled.rotateRows hfront hfilled.len_le b hb
  simp only [Storage.shrinkVisibleLines, Option.bind_eq_bind, Option.bind_eq_some_iff,
    Option.some.injEq] at hc
  obtain ⟨shrinkage, hshrinkage, d, hd, rfl⟩ := hc
  rw [usub_eq_some] at hshrinkage
  exact hbfront.shrinkLines hbf.toStored (by omega) (by omega) d hd

end Grid
end Velacritty
