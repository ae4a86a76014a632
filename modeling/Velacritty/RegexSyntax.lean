import Mathlib.Data.List.Forall2
import Mathlib.Data.List.Chain

/-! Regular expressions: how their texts are read, and what they match. Nothing here names
a program. -/
namespace RegexSyntax

inductive Regex where
  | empty
  | literal (c : Char)
  | any
  | oneOf (negated : Bool) (items : List Char)
  | lineStart
  | lineEnd
  | seq (r s : Regex)
  | alt (r s : Regex)
  | star (r : Regex)

/-- The characters and ranges of a set have the character. -/
def hasItem (c : Char) : List Char → Bool
  | lo :: '-' :: hi :: items => (lo ≤ c && c ≤ hi) || hasItem c items
  | item :: items => item == c || hasItem c items
  | [] => false

/-- The expression matches the second text, between the first and the third one. -/
inductive Matches : Regex → List Char → List Char → List Char → Prop
  | empty {b a : List Char} : Matches .empty b [] a
  | literal {c : Char} {b a : List Char} : Matches (.literal c) b [c] a
  | any {c : Char} {b a : List Char} : c ≠ '\n' → Matches .any b [c] a
  | oneOf {negated : Bool} {items : List Char} {c : Char} {b a : List Char} :
      hasItem c items = !negated → Matches (.oneOf negated items) b [c] a
  | lineStart {a : List Char} : Matches .lineStart [] [] a
  | lineEnd {b : List Char} : Matches .lineEnd b [] []
  | seq {r s : Regex} {b v w a : List Char} : Matches r b v (w ++ a) → Matches s (b ++ v) w a →
      Matches (.seq r s) b (v ++ w) a
  | altLeft {r s : Regex} {b v a : List Char} : Matches r b v a → Matches (.alt r s) b v a
  | altRight {r s : Regex} {b v a : List Char} : Matches s b v a → Matches (.alt r s) b v a
  | starNil {r : Regex} {b a : List Char} : Matches (.star r) b [] a
  | starCons {r : Regex} {b v w a : List Char} : Matches r b v (w ++ a) →
      Matches (.star r) (b ++ v) w a → Matches (.star r) b (v ++ w) a

namespace Regex

/-- A number of copies, one behind the other. -/
def copies (r : Regex) : Nat → Regex
  | 0 => .empty
  | n + 1 => .seq r (r.copies n)

/-- No more copies than a number. -/
def upTo (r : Regex) : Nat → Regex
  | 0 => .empty
  | n + 1 => .alt (.seq r (r.upTo n)) .empty

/-- How many characters the shortest text needs at most. -/
def atoms : Regex → Nat
  | .empty | .lineStart | .lineEnd | .star _ => 0
  | .literal _ | .any | .oneOf _ _ => 1
  | .seq r s | .alt r s => r.atoms + s.atoms

end Regex

/-- Whatever an expression matches, it also matches a text that is no longer than its atoms, in
every place where that is at least as close to the start and to the end. -/
theorem Matches.short {r : Regex} {b v a : List Char} (h : Matches r b v a) :
    ∃ u : List Char, u.length ≤ v.length ∧ u.length ≤ r.atoms ∧
      ∀ b' a', (b = [] → b' = []) → (a = [] → a' = []) → Matches r b' u a' := by
  induction h with
  | empty => exact ⟨[], Nat.le_refl _, Nat.le_refl _, fun _ _ _ _ => .empty⟩
  | @literal c => exact ⟨[c], Nat.le_refl _, Nat.le_refl _, fun _ _ _ _ => .literal⟩
  | @any c _ _ hc => exact ⟨[c], Nat.le_refl _, Nat.le_refl _, fun _ _ _ _ => .any hc⟩
  | @oneOf _ _ c _ _ hc => exact ⟨[c], Nat.le_refl _, Nat.le_refl _, fun _ _ _ _ => .oneOf hc⟩
  | lineStart =>
      refine ⟨[], Nat.le_refl _, Nat.le_refl _, fun b' _ hb _ => ?_⟩
      rw [hb rfl]
      exact .lineStart
  | lineEnd =>
      refine ⟨[], Nat.le_refl _, Nat.le_refl _, fun _ a' _ ha => ?_⟩
      rw [ha rfl]
      exact .lineEnd
  | @seq r s b v w a _ _ ihr ihs =>
      obtain ⟨u, huv, hur, hu⟩ := ihr
      obtain ⟨x, hxw, hxs, hx⟩ := ihs
      refine ⟨u ++ x, ?_, ?_, fun b' a' hb ha => .seq ?_ ?_⟩
      · rw [List.length_append, List.length_append]
        exact Nat.add_le_add huv hxw
      · rw [List.length_append]
        exact Nat.add_le_add hur hxs
      · refine hu b' (x ++ a') hb fun hnil => ?_
        obtain ⟨rfl, rfl⟩ := List.append_eq_nil_iff.mp hnil
        rw [List.length_eq_zero_iff.mp (Nat.le_zero.mp hxw), ha rfl]
        rfl
      · refine hx (b' ++ u) a' (fun hnil => ?_) ha
        obtain ⟨rfl, rfl⟩ := List.append_eq_nil_iff.mp hnil
        rw [List.length_eq_zero_iff.mp (Nat.le_zero.mp huv), hb rfl]
        rfl
  | altLeft _ ih =>
      obtain ⟨u, huv, hur, hu⟩ := ih
      exact ⟨u, huv, Nat.le_add_right_of_le hur, fun b' a' hb ha => .altLeft (hu b' a' hb ha)⟩
  | altRight _ ih =>
      obtain ⟨u, huv, hus, hu⟩ := ih
      exact ⟨u, huv, Nat.le_add_left_of_le hus, fun b' a' hb ha => .altRight (hu b' a' hb ha)⟩
  | starNil => exact ⟨[], Nat.le_refl _, Nat.le_refl _, fun _ _ _ _ => .starNil⟩
  | starCons => exact ⟨[], Nat.zero_le _, Nat.le_refl _, fun _ _ _ _ => .starNil⟩

/-! ### Texts of expressions -/

/-- A character for itself, or one with a meaning of its own. -/
inductive Token where
  | literal (c : Char)
  | operator (c : Char)
  deriving DecidableEq, Repr

def metacharacters : List Char :=
  ['\\', '.', '+', '*', '?', '(', ')', '|', '[', ']', '{', '}', '^', '$']

/-- The tokens of a text; a backslash before a metacharacter is an escape, and has no other use. -/
def tokens : List Char → Option (List Token)
  | [] => some []
  | '\\' :: c :: text =>
      if c ∈ metacharacters then (tokens text).map (.literal c :: ·) else none
  | ['\\'] => none
  | c :: text =>
      (tokens text).map ((if c ∈ metacharacters then .operator c else .literal c) :: ·)

def Token.char : Token → Char
  | .literal c | .operator c => c

/-- How often a piece is repeated. -/
inductive Bounds where
  | exactly (count : List Char)
  | atLeast (count : List Char)
  | between (lo hi : List Char)

def number (digits : List Char) : Nat := digits.foldl (fun n d => 10 * n + (d.toNat - '0'.toNat)) 0

/-- The text is a decimal number. -/
def IsNumber (digits : List Char) : Prop := digits ≠ [] ∧ ∀ d ∈ digits, d.isDigit = true

namespace Bounds

def text : Bounds → List Char
  | exactly count => count
  | atLeast count => count ++ [',']
  | between lo hi => lo ++ ',' :: hi

def Valid : Bounds → Prop
  | exactly count | atLeast count => IsNumber count
  | between lo hi => IsNumber lo ∧ IsNumber hi ∧ number lo ≤ number hi

def apply (r : Regex) : Bounds → Regex
  | exactly count => r.copies (number count)
  | atLeast count => .seq (r.copies (number count)) (.star r)
  | between lo hi => .seq (r.copies (number lo)) (r.upTo (number hi - number lo))

end Bounds

/-- The parts of an expression, by how tight they bind. -/
inductive Level where
  | alternation
  | branch
  | piece
  | atom

/-- The grammar of expressions. -/
inductive Reads : Level → List Token → Regex → Prop
  | literal (c : Char) : Reads .atom [.literal c] (.literal c)
  | any : Reads .atom [.operator '.'] .any
  | lineStart : Reads .atom [.operator '^'] .lineStart
  | lineEnd : Reads .atom [.operator '$'] .lineEnd
  | group {ts : List Token} {r : Regex} : Reads .alternation ts r →
      Reads .atom (.operator '(' :: (ts ++ [.operator ')'])) r
  | oneOf {items : List Token} : items ≠ [] → .operator ']' ∉ items → items.head? ≠ some (.operator '^') →
      Reads .atom (.operator '[' :: (items ++ [.operator ']'])) (.oneOf false (items.map Token.char))
  | noneOf {items : List Token} : items ≠ [] → .operator ']' ∉ items →
      Reads .atom (.operator '[' :: .operator '^' :: (items ++ [.operator ']']))
        (.oneOf true (items.map Token.char))
  | piece {ts : List Token} {r : Regex} : Reads .atom ts r → Reads .piece ts r
  | star {ts : List Token} {r : Regex} : Reads .piece ts r →
      Reads .piece (ts ++ [.operator '*']) (.star r)
  | plus {ts : List Token} {r : Regex} : Reads .piece ts r →
      Reads .piece (ts ++ [.operator '+']) (.seq r (.star r))
  | optional {ts : List Token} {r : Regex} : Reads .piece ts r →
      Reads .piece (ts ++ [.operator '?']) (.alt r .empty)
  | times {ts : List Token} {r : Regex} {bounds : Bounds} : Reads .piece ts r → bounds.Valid →
      Reads .piece (ts ++ .operator '{' :: (bounds.text.map .literal ++ [.operator '}']))
        (bounds.apply r)
  | empty : Reads .branch [] .empty
  | seq {ts us : List Token} {r s : Regex} : Reads .piece ts r → Reads .branch us s →
      Reads .branch (ts ++ us) (.seq r s)
  | branch {ts : List Token} {r : Regex} : Reads .branch ts r → Reads .alternation ts r
  | alt {ts us : List Token} {r s : Regex} : Reads .branch ts r → Reads .alternation us s →
      Reads .alternation (ts ++ .operator '|' :: us) (.alt r s)

/-- The text is an expression that matches one text only, wherever it stands. -/
def Denotes (text w : List Char) : Prop :=
  ∃ ts, tokens text = some ts ∧ (∃ r, Reads .alternation ts r) ∧
    ∀ r, Reads .alternation ts r → ∀ b v a, Matches r b v a ↔ v = w

/-! ### Expressions without structure -/

namespace Token

/-- The token stands for a single character. -/
def IsPlain : Token → Prop
  | literal _ => True
  | operator c => c = '.'

instance (t : Token) : Decidable t.IsPlain := by
  cases t
  · exact isTrue trivial
  · exact inferInstanceAs (Decidable (_ = _))

/-- The characters that a plain token stands for. -/
def Fits : Token → Char → Prop
  | literal c, d => d = c
  | operator _, d => d ≠ '\n'

def fill (d : Char) : Token → Char
  | literal c => c
  | operator _ => d

theorem fill_fits {d : Char} (hd : d ≠ '\n') (t : Token) : t.Fits (t.fill d) := by
  cases t with
  | literal c => rfl
  | operator c => exact hd

end Token

theorem matches_seq {r s : Regex} {b v a : List Char} : Matches (.seq r s) b v a ↔
    ∃ u w, v = u ++ w ∧ Matches r b u (w ++ a) ∧ Matches s (b ++ u) w a := by
  constructor
  · intro h
    cases h with
    | seq hr hs => exact ⟨_, _, rfl, hr, hs⟩
  · rintro ⟨u, w, rfl, hr, hs⟩
    exact .seq hr hs

theorem reads_plain {ts : List Token} (h : ∀ t ∈ ts, t.IsPlain) : ∃ r, Reads .branch ts r := by
  induction ts with
  | nil => exact ⟨_, .empty⟩
  | cons t ts ih =>
      obtain ⟨s, hs⟩ := ih fun u hu => h u (List.mem_cons_of_mem _ hu)
      cases t with
      | literal c => exact ⟨_, .seq (.piece (.literal c)) hs⟩
      | operator c =>
          have hc : c = '.' := h _ List.mem_cons_self
          subst hc
          exact ⟨_, .seq (.piece .any) hs⟩

/-- An expression of plain tokens matches, wherever it stands, the texts that fit its tokens. -/
theorem matches_plain {l : Level} {ts : List Token} {r : Regex} (hr : Reads l ts r)
    (h : ∀ t ∈ ts, t.IsPlain) : ∀ b v a, Matches r b v a ↔ List.Forall₂ Token.Fits ts v := by
  have hoperator {c : Char} {us : List Token} (hmem : .operator c ∈ us) (hc : c ≠ '.')
      (hall : ∀ t ∈ us, t.IsPlain) : False := hc (hall (.operator c) hmem)
  induction hr with
  | literal c =>
      intro b v a
      constructor
      · intro hm
        cases hm
        exact .cons rfl .nil
      · intro hm
        cases hm with
        | cons hc hnil =>
            cases hnil
            cases hc
            exact .literal
  | any =>
      intro b v a
      constructor
      · intro hm
        cases hm with
        | any hc => exact .cons hc .nil
      · intro hm
        cases hm with
        | cons hc hnil =>
            cases hnil
            exact .any hc
  | lineStart => exact (hoperator List.mem_cons_self (by decide) h).elim
  | lineEnd => exact (hoperator List.mem_cons_self (by decide) h).elim
  | group => exact (hoperator List.mem_cons_self (by decide) h).elim
  | oneOf => exact (hoperator List.mem_cons_self (by decide) h).elim
  | noneOf => exact (hoperator List.mem_cons_self (by decide) h).elim
  | piece _ ih => exact ih h
  | star => exact (hoperator (c := '*') (by simp) (by decide) h).elim
  | plus => exact (hoperator (c := '+') (by simp) (by decide) h).elim
  | optional => exact (hoperator (c := '?') (by simp) (by decide) h).elim
  | times => exact (hoperator (c := '{') (by simp) (by decide) h).elim
  | empty =>
      intro b v a
      constructor
      · intro hm
        cases hm
        exact .nil
      · intro hm
        cases hm
        exact .empty
  | @seq ts us r s _ _ ihr ihs =>
      have hts := ihr fun t ht => h t (List.mem_append_left _ ht)
      have hus := ihs fun t ht => h t (List.mem_append_right _ ht)
      intro b v a
      rw [matches_seq]
      constructor
      · rintro ⟨u, w, rfl, hu, hw⟩
        exact List.rel_append ((hts _ _ _).mp hu) ((hus _ _ _).mp hw)
      · intro hm
        have hflip : List.Forall₂ (flip Token.Fits) v (ts ++ us) := hm.flip
        refine ⟨v.take ts.length, v.drop ts.length, (List.take_append_drop _ _).symm, ?_, ?_⟩
        · exact (hts _ _ _).mpr (List.forall₂_take_append v ts us hflip).flip
        · exact (hus _ _ _).mpr (List.forall₂_drop_append v ts us hflip).flip
  | branch _ ih => exact ih h
  | alt => exact (hoperator (c := '|') (by simp) (by decide) h).elim

theorem forall₂_fits_literals {w v : List Char} :
    List.Forall₂ Token.Fits (w.map .literal) v ↔ v = w := by
  rw [List.forall₂_map_left_iff]
  constructor
  · intro h
    have heq : List.Forall₂ (· = ·) v w := h.flip
    rwa [List.forall₂_eq_eq_eq] at heq
  · rintro rfl
    exact List.forall₂_same.mpr fun c _ => rfl

theorem denotes_plain {text w : List Char} {ts : List Token} (hts : tokens text = some ts)
    (h : ∀ t ∈ ts, t.IsPlain) : Denotes text w ↔ ts = w.map .literal := by
  obtain ⟨r, hr⟩ := reads_plain h
  constructor
  · rintro ⟨us, hus, -, hall⟩
    obtain rfl : ts = us := Option.some.inj (hts.symm.trans hus)
    have hfits (v : List Char) : List.Forall₂ Token.Fits ts v ↔ v = w := by
      rw [← matches_plain (.branch hr) h [] v [], hall r (.branch hr)]
    have hfill (d : Char) (hd : d ≠ '\n') : ts.map (Token.fill d) = w :=
      (hfits _).mp (List.forall₂_map_right_iff.mpr (List.forall₂_same.mpr fun t _ => Token.fill_fits hd t))
    have hsame : ts.map (Token.fill 'a') = ts.map (Token.fill 'b') :=
      (hfill 'a' (by decide)).trans (hfill 'b' (by decide)).symm
    -- A token that stands for several characters would match both.
    have hliteral : ∀ t ∈ ts, t = .literal (t.fill 'a') := by
      intro t ht
      cases t with
      | literal c => rfl
      | operator c =>
          have hfilled : 'a' = 'b' := List.map_inj_left.mp hsame _ ht
          cases hfilled
    calc ts = ts.map fun t => .literal (t.fill 'a') :=
          (List.map_id ts).symm.trans (List.map_congr_left hliteral)
      _ = (ts.map (Token.fill 'a')).map .literal := (List.map_map).symm
      _ = w.map .literal := by rw [hfill 'a' (by decide)]
  · rintro rfl
    refine ⟨_, hts, ⟨r, .branch hr⟩, fun s hs b v a => ?_⟩
    rw [matches_plain hs h, forall₂_fits_literals]

end RegexSyntax
