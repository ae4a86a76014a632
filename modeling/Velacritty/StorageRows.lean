import Velacritty.Circular
import Velacritty.StorageSound

/-! The ring buffer as a list of rows, from the bottommost line upwards. -/
namespace Velacritty
open Fallible

namespace Storage
variable {T : Type} {s s' a : Storage T}

/-- All stored rows, cached ones last, from the bottommost line upwards. -/
def ring (s : Storage T) : List (Row T) := s.inner.rotate s.zero

/-- The active rows, from the bottommost line upwards. -/
def rows (s : Storage T) : List (Row T) := s.ring.take s.len

/-- Where a line is in the list of rows. -/
def position (s : Storage T) (line : Int) : Nat := (s.visibleLines - line).toNat - 1

/-- The start and the active rows are inside of the buffer. -/
structure Stored (s : Storage T) : Prop where
  zero_lt : s.zero < s.inner.length
  len_pos : 1 ≤ s.len
  len_le : s.len ≤ s.inner.length

/-- The active rows fill the screen. -/
structure Filled (s : Storage T) : Prop extends Stored s where
  visible_pos : 1 ≤ s.visibleLines
  visible_le : s.visibleLines ≤ s.len

structure Taken (s : Storage T) : Prop where
  inner : s.inner = []
  zero : s.zero = 0
  len : s.len = 0
  visible_pos : 1 ≤ s.visibleLines

theorem length_ring (s : Storage T) : s.ring.length = s.inner.length := List.length_rotate ..

theorem Stored.length_rows (h : s.Stored) : s.rows.length = s.len :=
  List.length_take_of_le (s.length_ring ▸ h.len_le)

theorem Stored.inner_ne_nil (h : s.Stored) : s.inner ≠ [] :=
  List.ne_nil_of_length_pos (Nat.lt_of_le_of_lt (Nat.zero_le _) h.zero_lt)

theorem Taken.rows (h : s.Taken) : s.rows = [] := by
  unfold Storage.rows
  rw [h.len, List.take_zero]

theorem WF.filled {columns : Nat} (h : s.WF columns) : s.Filled :=
  ⟨⟨h.zero_lt, h.len_pos, h.len_le⟩, h.visible_pos, h.visible_le⟩

theorem getElem?_rows_of_lt {k : Nat} (hk : k < s.len) : s.rows[k]? = s.ring[k]? :=
  List.getElem?_take_of_lt hk

theorem HasLine.position_lt {line : Int} (h : s.HasLine line) : s.position line < s.len := by
  obtain ⟨hlo, hhi⟩ := h
  unfold position
  omega

theorem HasLine.computeIndex {line : Int} (hl : s.HasLine line) :
    s.computeIndex line = some (Circular.index s.inner.length s.zero (s.position line)) := by
  have hlt := hl.position_lt
  unfold position at hlt ⊢
  unfold Storage.computeIndex Circular.index
  rw [if_pos hl.2]
  simp only
  rw [if_pos hlt]

theorem Stored.position_lt (h : s.Stored) {line : Int} (hl : s.HasLine line) :
    s.position line < s.inner.length :=
  Nat.lt_of_lt_of_le hl.position_lt h.len_le

theorem Stored.getElem?_rows (h : s.Stored) {line : Int} (hl : s.HasLine line) {i : Nat}
    (hi : s.computeIndex line = some i) : s.inner[i]? = s.rows[s.position line]? := by
  cases Option.some.inj (hl.computeIndex.symm.trans hi)
  rw [Circular.getElem?_index h.zero_lt (h.position_lt hl)]
  exact (List.getElem?_take_of_lt hl.position_lt).symm

/-! ### Operations -/

theorem rezero_rows (h : s.zero < s.inner.length) :
    s.rezero = some { s with inner := s.ring, zero := 0 } := if_pos (Nat.le_of_lt h)

theorem ring_of_zero (h : s.zero = 0) : s.ring = s.inner := by
  rw [ring, h, List.rotate_zero]

theorem truncate_rows (h : s.zero < s.inner.length) :
    s.truncate = some { s with inner := s.rows, zero := 0 } := by
  unfold truncate
  rw [rezero_rows h]
  rfl

theorem Stored.truncate (h : s.Stored) :
    Returns s.truncate fun s' => s'.Stored ∧ s'.visibleLines = s.visibleLines ∧ s'.len = s.len ∧
      s'.rows = s.rows := by
  have hlen := h.length_rows
  rw [truncate_rows h.zero_lt]
  refine .pure ⟨⟨?_, h.len_pos, Nat.le_of_eq hlen.symm⟩, rfl, rfl, ?_⟩
  · exact hlen.symm ▸ h.len_pos
  · rw [Storage.rows, ring_of_zero rfl]
    exact List.take_of_length_le (Nat.le_of_eq hlen)

theorem Stored.shrinkLines (h : s.Stored) {n : Nat} (hn : n < s.len) :
    Returns (s.shrinkLines n) fun s' => s'.Stored ∧ s'.visibleLines = s.visibleLines ∧
      s'.len = s.len - n ∧ s'.rows = s.rows.take (s.len - n) := by
  have hstored : Stored { s with len := s.len - n } :=
    ⟨h.zero_lt, Nat.sub_pos_of_lt hn, Nat.le_trans (Nat.sub_le _ _) h.len_le⟩
  have hrows : Storage.rows { s with len := s.len - n } = s.rows.take (s.len - n) := by
    simp only [Storage.rows, List.take_take]
    rw [Nat.min_eq_left (Nat.sub_le _ _)]
    rfl
  unfold Storage.shrinkLines
  rw [usub_of_le (Nat.le_of_lt hn)]
  simp only [Option.bind_eq_bind, Option.bind_some]
  split
  · refine hstored.truncate.mono fun t ht => ?_
    obtain ⟨ht, hv, hl, hr⟩ := ht
    exact ⟨ht, hv, hl, hr.trans hrows⟩
  · exact .pure ⟨hstored, rfl, rfl, hrows⟩

/-- A smaller screen loses the rows that are the furthest up. -/
theorem Filled.shrinkVisibleLines (h : s.Filled) {next : Nat} (hpos : 1 ≤ next)
    (hn : next ≤ s.visibleLines) :
    Returns (s.shrinkVisibleLines next) fun s' => s'.Filled ∧ s'.visibleLines = next ∧
      s'.rows = s.rows.take (s.len - (s.visibleLines - next)) := by
  have hvis := h.visible_le
  unfold Storage.shrinkVisibleLines
  rw [usub_of_le hn]
  refine (h.toStored.shrinkLines (n := s.visibleLines - next) (by omega)).bind fun t ht => .pure ?_
  obtain ⟨ht, -, hl, hr⟩ := ht
  exact ⟨⟨⟨ht.zero_lt, ht.len_pos, ht.len_le⟩, hpos, by simp only; omega⟩, rfl, hr⟩

section Fresh
variable [GridCell T]

/-- More rows become active: cached ones first, and then fresh ones. -/
theorem Stored.initializeRows (h : s.Stored) (n columns : Nat) :
    Returns (s.initializeRows n columns) fun s' => s'.Stored ∧ s'.visibleLines = s.visibleLines ∧
      s'.len = s.len + n ∧
      s'.rows = (s.ring ++ List.replicate n (Row.new columns)).take (s.len + n) := by
  have hle := h.len_le
  have hpos := h.len_pos
  have hring := s.length_ring
  unfold Storage.initializeRows
  split
  · next hroom =>
      rw [rezero_rows h.zero_lt]
      refine .pure ⟨⟨?_, ?_, ?_⟩, rfl, rfl, ?_⟩
      · simp only [List.length_append]
        omega
      · simp only
        omega
      · simp only [List.length_append, List.length_replicate]
        omega
      · simp only [Storage.rows]
        rw [ring_of_zero rfl]
        simp only [List.take_append, List.take_replicate]
        congr 2
        omega
  · next hroom =>
      refine .pure ⟨⟨h.zero_lt, ?_, ?_⟩, rfl, rfl, ?_⟩
      · simp only
        omega
      · simp only
        omega
      · simp only [Storage.rows]
        rw [List.take_append_of_le_length (by omega)]
        rfl

theorem Filled.growVisibleLines (h : s.Filled) {next : Nat} (hn : s.visibleLines ≤ next) :
    Returns (s.growVisibleLines next) fun s' => s'.Filled ∧ s'.visibleLines = next ∧
      ∃ columns, s'.rows = (s.ring ++ List.replicate (next - s.visibleLines) (Row.new columns)).take
        (s.len + (next - s.visibleLines)) := by
  have hpos := h.visible_pos
  have hvis := h.visible_le
  have hl : s.HasLine 0 := ⟨by omega, by omega⟩
  obtain ⟨row, hrow⟩ : ∃ row, s.get 0 = some row := by
    unfold Storage.get
    rw [hl.computeIndex]
    exact ⟨_, List.getElem?_eq_getElem (Circular.index_lt h.zero_lt (h.position_lt hl))⟩
  unfold Storage.growVisibleLines
  rw [usub_of_le hn, hrow]
  simp only [Option.bind_eq_bind, Option.bind_some]
  refine (h.toStored.initializeRows (next - s.visibleLines) row.len).bind fun t ht => .pure ?_
  obtain ⟨ht, -, hl, hr⟩ := ht
  exact ⟨⟨⟨ht.zero_lt, ht.len_pos, ht.len_le⟩, by simp only; omega, by simp only; omega⟩, rfl, _, hr⟩

end Fresh

/-- The active rows stay in front of those that become active. -/
theorem Stored.isPrefix_take (h : s.Stored) (more : List (Row T)) (n : Nat) :
    s.rows <+: (s.ring ++ more).take (s.len + n) := by
  have hle : s.len ≤ s.ring.length := s.length_ring ▸ h.len_le
  have hrows : s.rows = (s.ring ++ more).take s.len := (List.take_append_of_le_length hle).symm
  rw [hrows]
  exact List.take_prefix_take_left (Nat.le_add_right _ _)

theorem Filled.rotate (h : s.Filled) {count : Int} (hc : count.natAbs ≤ s.inner.length) :
    Returns (s.rotate count) fun s' => s'.Filled ∧ s'.visibleLines = s.visibleLines ∧
      s'.len = s.len ∧ s'.ring = s.ring.rotate (count % s.inner.length).toNat := by
  unfold Storage.rotate
  rw [if_pos ⟨hc, h.inner_ne_nil⟩]
  have hlt := Nat.mod_lt (s.zero + count + s.inner.length).toNat (List.length_pos_iff.mpr h.inner_ne_nil)
  exact .pure ⟨⟨⟨hlt, h.len_pos, h.len_le⟩, h.visible_pos, h.visible_le⟩, rfl, rfl,
    Circular.rotate_toNat s.inner s.zero hc⟩

theorem Filled.rotateDown (h : s.Filled) (count : Nat) :
    Returns (s.rotateDown count) fun s' => s'.Filled ∧ s'.visibleLines = s.visibleLines ∧
      s'.len = s.len ∧ s'.ring = s.ring.rotate count := by
  unfold Storage.rotateDown
  rw [if_pos h.inner_ne_nil]
  have hlt := Nat.mod_lt (s.zero + count) (List.length_pos_iff.mpr h.inner_ne_nil)
  refine .pure ⟨⟨⟨hlt, h.len_pos, h.len_le⟩, h.visible_pos, h.visible_le⟩, rfl, rfl, ?_⟩
  simp only [ring, List.rotate_mod, List.rotate_rotate]

theorem SameShape.filled (h : s.SameShape s') (hs : s.Filled) : s'.Filled := by
  refine ⟨⟨?_, h.len ▸ hs.len_pos, ?_⟩, h.visibleLines ▸ hs.visible_pos, ?_⟩
  · rw [h.zero, h.inner]
    exact hs.zero_lt
  · rw [h.len, h.inner]
    exact hs.len_le
  · rw [h.visibleLines, h.len]
    exact hs.visible_le

theorem Filled.swap (h : s.Filled) {a b : Int} (ha : s.HasLine a) (hb : s.HasLine b) :
    Returns (s.swap a b) fun s' => s'.Filled ∧ s.SameShape s' ∧
      s'.rows = Circular.exchange s.rows (s.position a) (s.position b) := by
  have hpa := h.position_lt ha
  have hpb := h.position_lt hb
  have hx := List.getElem?_eq_getElem (Circular.index_lt h.zero_lt hpa)
  have hy := List.getElem?_eq_getElem (Circular.index_lt h.zero_lt hpb)
  unfold Storage.swap
  rw [ha.computeIndex, hb.computeIndex]
  simp only [Option.bind_eq_bind, Option.bind_some]
  rw [hx, hy]
  simp only [Option.bind_some]
  rw [← Circular.exchange_eq hx hy]
  have hshape : s.SameShape { s with
      inner := Circular.exchange s.inner (Circular.index s.inner.length s.zero (s.position a))
        (Circular.index s.inner.length s.zero (s.position b)) } :=
    ⟨rfl, rfl, rfl, Circular.length_exchange ..⟩
  refine .pure ⟨hshape.filled h, hshape, ?_⟩
  simp only [Storage.rows, ring]
  rw [Circular.rotate_exchange h.zero_lt hpa hpb,
    Circular.take_exchange ha.position_lt hb.position_lt]

theorem Filled.modify (h : s.Filled) {line : Int} (hl : s.HasLine line) (f : Row T → Row T) :
    Returns (s.modify line fun r => some (f r)) fun s' => s'.Filled ∧ s.SameShape s' ∧
      ∃ r, s.rows[s.position line]? = some r ∧ s'.rows = s.rows.set (s.position line) (f r) := by
  have hp := h.position_lt hl
  obtain ⟨r, hr⟩ : ∃ r, s.inner[Circular.index s.inner.length s.zero (s.position line)]? = some r :=
    ⟨_, List.getElem?_eq_getElem (Circular.index_lt h.zero_lt hp)⟩
  unfold Storage.modify
  rw [hl.computeIndex]
  simp only [Option.bind_eq_bind, Option.bind_some, hr]
  have hshape : s.SameShape { s with
      inner := s.inner.set (Circular.index s.inner.length s.zero (s.position line)) (f r) } :=
    ⟨rfl, rfl, rfl, List.length_set⟩
  refine .pure ⟨hshape.filled h, hshape, r, ?_, ?_⟩
  · rw [← h.getElem?_rows hl hl.computeIndex, hr]
  · simp only [Storage.rows, ring]
    rw [Circular.rotate_set h.zero_lt hp, List.take_set]

theorem Filled.takeAll (h : s.Filled) :
    Returns s.takeAll fun p => p.1 = s.rows ∧ p.2.Taken ∧ p.2.visibleLines = s.visibleLines := by
  unfold Storage.takeAll
  rw [truncate_rows h.zero_lt]
  exact .pure ⟨rfl, ⟨rfl, rfl, rfl, h.visible_pos⟩, rfl⟩

theorem replaceInner_filled {vec : List (Row T)} (hv : 1 ≤ s.visibleLines)
    (hlen : s.visibleLines ≤ vec.length) :
    (s.replaceInner vec).Filled ∧ (s.replaceInner vec).rows = vec := by
  refine ⟨⟨⟨Nat.le_trans hv hlen, Nat.le_trans hv hlen, Nat.le_refl _⟩, hv, hlen⟩, ?_⟩
  rw [rows, ring_of_zero rfl]
  exact List.take_length

end Storage

/-! ### Runs -/

inductive StorageOp (T : Type) where
  | growVisibleLines (next : Nat)
  | shrinkVisibleLines (next : Nat)
  | shrinkLines (shrinkage : Nat)
  | truncate
  | initializeRows (additionalRows columns : Nat)
  | swap (a b : Int)
  | rotate (count : Int)
  | rotateDown (count : Nat)
  | replaceInner (vec : List (Row T))
  | takeAll
  | rezero
  | modify (line : Int) (f : Row T → Row T)

namespace StorageOp
variable {T : Type} {s s' : Storage T}

def step [GridCell T] (s : Storage T) : StorageOp T → Option (Storage T)
  | growVisibleLines next => s.growVisibleLines next
  | shrinkVisibleLines next => s.shrinkVisibleLines next
  | shrinkLines shrinkage => s.shrinkLines shrinkage
  | truncate => s.truncate
  | initializeRows additionalRows columns => s.initializeRows additionalRows columns
  | swap a b => s.swap a b
  | rotate count => s.rotate count
  | rotateDown count => s.rotateDown count
  | replaceInner vec => some (s.replaceInner vec)
  | takeAll => s.takeAll.map Prod.snd
  | rezero => s.rezero
  | modify line f => s.modify line fun r => some (f r)

/-- What the grid promises when it calls the storage: lines exist, the screen stays
filled, and rows that were taken out are replaced before anything else. -/
def Admissible (s : Storage T) : StorageOp T → Prop
  | growVisibleLines next => s.inner ≠ [] ∧ s.visibleLines ≤ next
  | shrinkVisibleLines next => s.inner ≠ [] ∧ 1 ≤ next ∧ next ≤ s.visibleLines
  | shrinkLines shrinkage => s.inner ≠ [] ∧ s.visibleLines + shrinkage ≤ s.len
  | swap a b => s.inner ≠ [] ∧ s.HasLine a ∧ s.HasLine b
  | rotate count => s.inner ≠ [] ∧ count.natAbs ≤ s.inner.length
  | replaceInner vec => s.visibleLines ≤ vec.length
  | modify line _ => s.inner ≠ [] ∧ s.HasLine line
  | truncate => s.inner ≠ []
  | initializeRows _ _ => s.inner ≠ []
  | rotateDown _ => s.inner ≠ []
  | takeAll => s.inner ≠ []
  | rezero => s.inner ≠ []

/-- What a call does to the list of rows. -/
def Effect (s s' : Storage T) : StorageOp T → Prop
  | growVisibleLines next => s.rows <+: s'.rows ∧
      s'.rows.length = s.rows.length + (next - s.visibleLines) ∧ s'.visibleLines = next
  | shrinkVisibleLines next => s'.rows = s.rows.take (s.rows.length - (s.visibleLines - next)) ∧
      s'.visibleLines = next
  | shrinkLines shrinkage => s'.rows = s.rows.take (s.rows.length - shrinkage) ∧
      s'.visibleLines = s.visibleLines
  | initializeRows additionalRows _ => s.rows <+: s'.rows ∧
      s'.rows.length = s.rows.length + additionalRows ∧ s'.visibleLines = s.visibleLines
  | swap a b => s'.rows = Circular.exchange s.rows (s.position a) (s.position b) ∧
      s'.visibleLines = s.visibleLines
  | rotate count => s'.ring = s.ring.rotate (count % s.ring.length).toNat ∧ s'.len = s.len ∧
      s'.visibleLines = s.visibleLines
  | rotateDown count => s'.ring = s.ring.rotate count ∧ s'.len = s.len ∧
      s'.visibleLines = s.visibleLines
  | replaceInner vec => s'.rows = vec ∧ s'.visibleLines = s.visibleLines
  | takeAll => s.takeAll = some (s.rows, s') ∧ s'.rows = [] ∧ s'.visibleLines = s.visibleLines
  | modify line f => (∃ r, s.rows[s.position line]? = some r ∧
      s'.rows = s.rows.set (s.position line) (f r)) ∧ s'.visibleLines = s.visibleLines
  | truncate => s'.rows = s.rows ∧ s'.visibleLines = s.visibleLines
  | rezero => s'.rows = s.rows ∧ s'.visibleLines = s.visibleLines

end StorageOp

namespace Storage
variable {T : Type} {s s' : Storage T}

/-- Either the rows fill the screen, or they were all taken out. -/
def Sound (s : Storage T) : Prop := s.Filled ∨ s.Taken

theorem Sound.filled (h : s.Sound) (hs : s.inner ≠ []) : s.Filled :=
  h.resolve_right fun ht => hs ht.inner

theorem Sound.visible_pos (h : s.Sound) : 1 ≤ s.visibleLines := by
  cases h with
  | inl h => exact h.visible_pos
  | inr h => exact h.visible_pos

variable [GridCell T]

/-- Every call returns and has the specified effect; taking all rows is the only one
that leaves none. -/
theorem step_effect (h : s.Sound) {op : StorageOp T} (hop : op.Admissible s) :
    Returns (op.step s) fun s' => op.Effect s s' ∧ s'.Sound ∧ (s'.inner = [] ↔ op = .takeAll) := by
  have hkeep : ∀ s', s'.Filled ∧ op.Effect s s' → op ≠ .takeAll →
      op.Effect s s' ∧ s'.Sound ∧ (s'.inner = [] ↔ op = .takeAll) := by
    intro s' hs' hno
    exact ⟨hs'.2, .inl hs'.1, fun hnil => absurd hnil hs'.1.inner_ne_nil, fun hyes => absurd hyes hno⟩
  cases op with
  | growVisibleLines next =>
      have hf := h.filled hop.1
      refine (hf.growVisibleLines hop.2).mono fun s' hs' => hkeep s' ?_ nofun
      obtain ⟨hs', hv, columns, hr⟩ := hs'
      refine ⟨hs', ?_, ?_, hv⟩
      · exact hr ▸ hf.isPrefix_take _ _
      · rw [hr, hf.length_rows, List.length_take, List.length_append, length_ring,
          List.length_replicate]
        exact Nat.min_eq_left (Nat.add_le_add_right hf.len_le _)
  | shrinkVisibleLines next =>
      have hf := h.filled hop.1
      refine (hf.shrinkVisibleLines hop.2.1 hop.2.2).mono fun s' hs' => hkeep s' ?_ nofun
      obtain ⟨hs', hv, hr⟩ := hs'
      exact ⟨hs', hf.length_rows.symm ▸ hr, hv⟩
  | shrinkLines shrinkage =>
      have hf := h.filled hop.1
      have hpos := hf.visible_pos
      have hle : s.visibleLines + shrinkage ≤ s.len := hop.2
      refine (hf.toStored.shrinkLines (n := shrinkage) (by omega)).mono fun s' hs' =>
        hkeep s' ?_ nofun
      obtain ⟨hs', hv, hl, hr⟩ := hs'
      exact ⟨⟨hs', hv ▸ hpos, by omega⟩, hf.length_rows.symm ▸ hr, hv⟩
  | truncate =>
      have hf := h.filled hop
      refine hf.toStored.truncate.mono fun s' hs' => hkeep s' ?_ nofun
      obtain ⟨hs', hv, hl, hr⟩ := hs'
      exact ⟨⟨hs', hv ▸ hf.visible_pos, hv ▸ hl ▸ hf.visible_le⟩, hr, hv⟩
  | initializeRows additionalRows columns =>
      have hf := h.filled hop
      refine (hf.toStored.initializeRows additionalRows columns).mono fun s' hs' => hkeep s' ?_ nofun
      obtain ⟨hs', hv, hl, hr⟩ := hs'
      refine ⟨⟨hs', hv ▸ hf.visible_pos, ?_⟩, ?_, ?_, hv⟩
      · rw [hv, hl]
        exact Nat.le_add_right_of_le hf.visible_le
      · exact hr ▸ hf.isPrefix_take _ _
      · rw [hs'.length_rows, hf.length_rows, hl]
  | swap a b =>
      have hf := h.filled hop.1
      refine (hf.swap hop.2.1 hop.2.2).mono fun s' hs' => hkeep s' ?_ nofun
      obtain ⟨hs', hshape, hr⟩ := hs'
      exact ⟨hs', hr, hshape.visibleLines⟩
  | rotate count =>
      have hf := h.filled hop.1
      refine (hf.rotate hop.2).mono fun s' hs' => hkeep s' ?_ nofun
      obtain ⟨hs', hv, hl, hr⟩ := hs'
      exact ⟨hs', s.length_ring.symm ▸ hr, hl, hv⟩
  | rotateDown count =>
      refine ((h.filled hop).rotateDown count).mono fun s' hs' => hkeep s' ?_ nofun
      obtain ⟨hs', hv, hl, hr⟩ := hs'
      exact ⟨hs', hr, hl, hv⟩
  | replaceInner vec =>
      obtain ⟨hfilled, hrows⟩ := replaceInner_filled h.visible_pos hop
      exact .pure (hkeep _ ⟨hfilled, hrows, rfl⟩ nofun)
  | takeAll =>
      obtain ⟨⟨rows, s'⟩, hs', hrows, htaken, hv⟩ := (h.filled hop).takeAll
      cases hrows
      refine ⟨s', congrArg (Option.map Prod.snd) hs', ⟨hs', htaken.rows, hv⟩, .inr htaken, ?_⟩
      exact ⟨fun _ => rfl, fun _ => htaken.inner⟩
  | rezero =>
      have hf := h.filled hop
      have hlen := s.length_ring
      have hring : Storage.ring { s with inner := s.ring, zero := 0 } = s.ring := ring_of_zero rfl
      refine ⟨_, rezero_rows hf.zero_lt, hkeep _ ⟨⟨⟨?_, hf.len_pos, ?_⟩, hf.visible_pos, hf.visible_le⟩,
        ?_, rfl⟩ nofun⟩
      · exact hlen.symm ▸ Nat.lt_of_le_of_lt (Nat.zero_le _) hf.zero_lt
      · exact hlen.symm ▸ hf.len_le
      · rw [rows, hring]
        rfl
  | modify line f =>
      refine ((h.filled hop.1).modify hop.2 f).mono fun s' hs' => hkeep s' ?_ nofun
      obtain ⟨hs', hshape, hr⟩ := hs'
      exact ⟨hs', hr, hshape.visibleLines⟩

theorem withCapacity_filled {visibleLines : Nat} (hv : 1 ≤ visibleLines) (columns : Nat) :
    (withCapacity visibleLines columns : Storage T).Filled := by
  have hlen : (withCapacity visibleLines columns : Storage T).inner.length = visibleLines :=
    List.length_replicate
  exact ⟨⟨hlen.symm ▸ hv, hv, Nat.le_of_eq hlen.symm⟩, hv, Nat.le_refl _⟩

/-- In every run, the storage is a list of rows unless these were just taken out: its lengths
are ordered, and the lines are stored at different places, each where the list has it.
Every call changes the list as specified. -/
theorem run_rows {visibleLines columns : Nat} (hv : 1 ≤ visibleLines)
    (h : Reaches StorageOp.step StorageOp.Admissible (withCapacity visibleLines columns) s) :
    (s.inner ≠ [] → s.zero < s.inner.length ∧ s.visibleLines ≤ s.len ∧ s.len ≤ s.inner.length ∧
      s.rows.length = s.len ∧
      (∀ line, s.HasLine line → ∃ i, s.computeIndex line = some i ∧ i < s.inner.length ∧
        s.inner[i]? = s.rows[s.position line]?) ∧
      ∀ a b, s.HasLine a → s.HasLine b → s.computeIndex a = s.computeIndex b → a = b) ∧
    ∀ op : StorageOp T, op.Admissible s → Returns (op.step s) fun s' =>
      op.Effect s s' ∧ (s'.inner = [] ↔ op = .takeAll) := by
  have hsound : s.Sound := by
    refine h.invariant (.inl (withCapacity_filled hv columns)) fun s op s' hs hop hstep => ?_
    exact ((step_effect hs hop).of_eq hstep).2.1
  refine ⟨fun hne => ?_, fun op hop => (step_effect hsound hop).mono fun s' hs' => ⟨hs'.1, hs'.2.2⟩⟩
  have hf := hsound.filled hne
  refine ⟨hf.zero_lt, hf.visible_le, hf.len_le, hf.length_rows, fun line hl => ?_,
    fun a b ha hb heq => ?_⟩
  · exact ⟨_, hl.computeIndex, Circular.index_lt hf.zero_lt (hf.position_lt hl),
      hf.getElem?_rows hl hl.computeIndex⟩
  · have hpos : s.position a = s.position b := by
      rw [ha.computeIndex, hb.computeIndex, Option.some.injEq] at heq
      exact Circular.index_inj (hf.position_lt ha) (hf.position_lt hb) heq
    obtain ⟨-, hahi⟩ := ha
    obtain ⟨-, hbhi⟩ := hb
    unfold position at hpos
    omega

/-- A storage of two lines, rotated by one. -/
theorem run_rows_rotated : ∃ s : Storage Cell,
    Reaches StorageOp.step StorageOp.Admissible (withCapacity 2 1) s ∧ s.zero = 1 ∧
      s.computeIndex 0 = some 0 ∧ s.inner[0]? = s.rows[1]? := by
  have hrun : Reaches StorageOp.step StorageOp.Admissible (withCapacity 2 1 : Storage Cell)
      { (withCapacity 2 1 : Storage Cell) with zero := 1 } :=
    .step .refl (a := .rotate 1) (And.intro nofun (by decide)) rfl
  refine ⟨_, hrun, rfl, rfl, ?_⟩
  obtain ⟨-, -, -, -, hlines, -⟩ := (run_rows (by decide) hrun).1 nofun
  obtain ⟨i, hi, -, hrow⟩ := hlines 0 ⟨by decide, by decide⟩
  cases hi
  exact hrow

end Storage
end Velacritty
