import Mathlib.Data.List.DropRight

/-! Text that is cut into pieces: a piece either ends its line, or the line goes on in
the next piece. Nothing here names a program. -/
namespace Flow
universe u
variable {α : Type u} {blank : α → Bool}

structure Piece (α : Type u) where
  cells : List α
  wraps : Bool

/-- What was read so far: complete lines, and the cells of the line under way. -/
structure Reading (α : Type u) where
  lines : List (List α)
  pending : List α

/-- Blanks at the end of a line do not count. -/
def trim (blank : α → Bool) (line : List α) : List α := line.rdropWhile blank

def feed (blank : α → Bool) (s : Reading α) (p : Piece α) : Reading α :=
  if p.wraps then { s with pending := s.pending ++ p.cells }
  else ⟨s.lines ++ [trim blank (s.pending ++ p.cells)], []⟩

def read (blank : α → Bool) (ps : List (Piece α)) : Reading α := ps.foldl (feed blank) ⟨[], []⟩

def close (blank : α → Bool) (s : Reading α) : List (List α) :=
  if s.pending.isEmpty then s.lines else s.lines ++ [trim blank s.pending]

/-- The lines of a text, up to the last one with content. -/
def text (blank : α → Bool) (ps : List (Piece α)) : List (List α) :=
  (close blank (read blank ps)).rdropWhile List.isEmpty

/-! ### Trimming -/

theorem rdropWhile_append (p : α → Bool) (a b : List α) : (a ++ b).rdropWhile p =
    if (b.rdropWhile p).isEmpty then a.rdropWhile p else a ++ b.rdropWhile p := by
  simp only [List.rdropWhile, List.reverse_append, List.dropWhile_append, List.isEmpty_reverse]
  split
  · rfl
  · rw [List.reverse_append, List.reverse_reverse]

theorem rdropWhile_append_of_forall {p : α → Bool} (a : List α) {b : List α}
    (h : ∀ x ∈ b, p x = true) : (a ++ b).rdropWhile p = a.rdropWhile p := by
  rw [rdropWhile_append, List.rdropWhile_eq_nil_iff.mpr h]
  rfl

theorem trim_append_blank (a : List α) {b : List α} (h : ∀ x ∈ b, blank x = true) :
    trim blank (a ++ b) = trim blank a := rdropWhile_append_of_forall a h

theorem trim_append_congr (c : List α) {a b : List α} (h : trim blank a = trim blank b) :
    trim blank (c ++ a) = trim blank (c ++ b) := by
  simp only [trim, rdropWhile_append] at h ⊢
  rw [h]

/-! ### Reading -/

theorem read_append (ps qs : List (Piece α)) :
    read blank (ps ++ qs) = qs.foldl (feed blank) (read blank ps) := List.foldl_append

theorem read_concat (ps : List (Piece α)) (p : Piece α) :
    read blank (ps ++ [p]) = feed blank (read blank ps) p := read_append ps [p]

/-- A line may be cut anywhere. -/
theorem feed_split (s : Reading α) (a b : List α) (w : Bool) :
    feed blank (feed blank s ⟨a, true⟩) ⟨b, w⟩ = feed blank s ⟨a ++ b, w⟩ := by
  cases w with
  | true => simp only [feed, if_true, List.append_assoc]
  | false => simp only [feed, Bool.false_eq_true, if_true, if_false, List.append_assoc]

theorem feed_congr (s : Reading α) {a b : List α} (h : trim blank a = trim blank b) :
    feed blank s ⟨a, false⟩ = feed blank s ⟨b, false⟩ := by
  simp only [feed, Bool.false_eq_true, if_false, trim_append_congr s.pending h]

theorem feed_append_blank (s : Reading α) (a : List α) {b : List α}
    (h : ∀ x ∈ b, blank x = true) : feed blank s ⟨a ++ b, false⟩ = feed blank s ⟨a, false⟩ :=
  feed_congr s (trim_append_blank a h)

/-- Whether the last piece wraps makes no difference. -/
theorem close_feed (s : Reading α) {a : List α} (h : a ≠ []) (w : Bool) :
    close blank (feed blank s ⟨a, w⟩) = (feed blank s ⟨a, false⟩).lines := by
  cases w with
  | true =>
      have hne : (s.pending ++ a).isEmpty = false := by
        rw [List.isEmpty_eq_false_iff]
        exact List.append_ne_nil_of_right_ne_nil _ h
      simp only [close, feed, Bool.false_eq_true, if_true, if_false, hne]
  | false => rfl

/-- A blank piece ends the line under way, or is a blank line. -/
theorem feed_blank {p : Piece α} (hw : p.wraps = false) (hb : ∀ x ∈ p.cells, blank x = true)
    (s : Reading α) : feed blank s p = ⟨s.lines ++ [trim blank s.pending], []⟩ := by
  rw [feed, hw, if_neg Bool.false_ne_true, trim_append_blank s.pending hb]

theorem lines_feed_blank {p : Piece α} (hw : p.wraps = false) (hb : ∀ x ∈ p.cells, blank x = true)
    {s : Reading α} (hs : s.pending = []) (n : Nat) :
    (List.replicate n p).foldl (feed blank) s = ⟨s.lines ++ List.replicate n [], []⟩ := by
  induction n generalizing s with
  | zero =>
      rw [List.replicate_zero, List.replicate_zero, List.append_nil, ← hs]
      rfl
  | succ n ih =>
      have hfeed : feed blank s p = ⟨s.lines ++ [[]], []⟩ := by
        rw [feed_blank hw hb, hs]
        rfl
      rw [List.replicate_succ, List.foldl_cons, hfeed, ih rfl, List.append_assoc,
        List.singleton_append, List.replicate_succ]

theorem close_of_pending {s : Reading α} (h : s.pending = []) : close blank s = s.lines := by
  rw [close, h]
  rfl

/-- Blank pieces close the text, and add blank lines to it. -/
theorem close_feed_blank {p : Piece α} (hw : p.wraps = false) (hb : ∀ x ∈ p.cells, blank x = true)
    (s : Reading α) (n : Nat) : ∃ k, close blank ((List.replicate n p).foldl (feed blank) s) =
      close blank s ++ List.replicate k [] := by
  by_cases hs : s.pending = []
  · refine ⟨n, ?_⟩
    rw [lines_feed_blank hw hb hs, close_of_pending rfl, close_of_pending hs]
  · cases n with
    | zero => exact ⟨0, (List.append_nil _).symm⟩
    | succ n =>
        refine ⟨n, ?_⟩
        rw [List.replicate_succ, List.foldl_cons, feed_blank hw hb, lines_feed_blank hw hb rfl,
          close_of_pending rfl, close, if_neg (by rwa [List.isEmpty_iff])]

theorem text_append_blank {p : Piece α} (hw : p.wraps = false) (hb : ∀ x ∈ p.cells, blank x = true)
    (ps : List (Piece α)) (n : Nat) :
    text blank (ps ++ List.replicate n p) = text blank ps := by
  obtain ⟨k, hk⟩ := close_feed_blank hw hb (read blank ps) n
  rw [text, text, read_append, hk]
  exact rdropWhile_append_of_forall _ fun l hl => by rw [List.eq_of_mem_replicate hl]; rfl

/-! ### Progress -/

/-- More was read: more lines, or more of the line under way. -/
def Reading.UpTo (s s' : Reading α) : Prop :=
  s.lines.length < s'.lines.length ∨
    s.lines.length = s'.lines.length ∧ s.pending.length ≤ s'.pending.length

theorem Reading.UpTo.trans {a b c : Reading α} (h : a.UpTo b) (h' : b.UpTo c) : a.UpTo c := by
  unfold UpTo at *
  omega

theorem feed_upTo (s : Reading α) (p : Piece α) : s.UpTo (feed blank s p) := by
  unfold feed
  split
  · refine .inr ⟨rfl, ?_⟩
    rw [List.length_append]
    exact Nat.le_add_right _ _
  · refine .inl ?_
    rw [List.length_append]
    exact Nat.lt_succ_self _

theorem foldl_upTo (ps : List (Piece α)) (s : Reading α) : s.UpTo (ps.foldl (feed blank) s) := by
  induction ps generalizing s with
  | nil => exact .inr ⟨rfl, Nat.le_refl _⟩
  | cons p ps ih => exact (feed_upTo s p).trans (ih _)

/-! ### Pieces of one width -/

/-- Where every piece that wraps has the same width, so do the parts of the line under way. -/
theorem pending_of_width {width : Nat} {ps : List (Piece α)}
    (h : ∀ p ∈ ps, p.wraps = true → p.cells.length = width) :
    ∃ k, (read blank ps).pending.length = width * k := by
  induction ps using List.reverseRecOn with
  | nil => exact ⟨0, (Nat.mul_zero _).symm⟩
  | append_singleton ps p ih =>
      obtain ⟨k, hk⟩ := ih fun q hq => h q (List.mem_append_left _ hq)
      rw [read_concat, feed]
      split
      · next hw =>
          refine ⟨k + 1, ?_⟩
          rw [List.length_append, hk, h p (List.mem_append_right _ (List.mem_singleton_self p)) hw,
            Nat.mul_succ]
      · exact ⟨0, (Nat.mul_zero _).symm⟩

end Flow
