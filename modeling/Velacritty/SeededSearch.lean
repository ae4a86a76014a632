import Velacritty.RegexSyntax
import Velacritty.SearchState

/-! A search for a selected text. -/
namespace Velacritty
open Fallible RegexSyntax
variable {R : Type}

/-- A character of the selection that is typed behind a backslash. -/
def isEscaped (c : Char) : Bool :=
  c = '$' || ('(' ≤ c && c ≤ '+') || c = '?' || ('[' ≤ c && c ≤ '^') || ('{' ≤ c && c ≤ '}')

namespace ActionContext

def searchNext (ctx : ActionContext R) (engine : RegexEngine R) (origin : Point)
    (direction side : Side) : Option RegexMatch :=
  ctx.searchState.dfas.bind fun dfas =>
    engine.searchNext dfas ctx.terminal origin direction side none

/-- The match that the vi mode cursor goes to after a search for a selection. -/
def seededTarget (ctx : ActionContext R) (engine : RegexEngine R) (origin : Point) (direction : Side) :
    Option Point := do
  let rm ← ctx.searchNext engine origin .right .right
  let regexMatch ← (match direction with
    | .right => ctx.searchNext engine (rm.stop.add ctx.terminal.dims .none 1) .right .left
    | .left => ctx.searchNext engine (rm.start.sub ctx.terminal.dims .none 1) .left .left)
  some regexMatch.start

def seedInput (engine : RegexEngine R) (ctx : ActionContext R) (c : Char) : Option (ActionContext R) := do
  let ctx ← if isEscaped c then ctx.searchInput engine '\\' else some ctx
  ctx.searchInput engine c

def startSeededSearch (ctx : ActionContext R) (engine : RegexEngine R) (direction : Side)
    (text : List Char) : Option (ActionContext R) := do
  let origin := ctx.terminal.viModeCursor
  let ctx ← text.foldlM (seedInput engine) (ctx.clearSelection.startSearch direction)
  let ctx := ctx.confirmSearch engine
  if !ctx.terminal.mode.vi then some ctx
  else
    match ctx.seededTarget engine origin direction with
    | some target => some { ctx with terminal := ctx.terminal.viGotoPoint target }
    | none => some ctx

end ActionContext

/-! ### The regex that is typed -/

def typedRegex (regex : List Char) (c : Char) : List Char := (typeRegex regex c).getD regex

def seeded (regex : List Char) (c : Char) : List Char :=
  typedRegex (if isEscaped c then typedRegex regex '\\' else regex) c

/-- The characters that a search takes as text. -/
def isPrintable (c : Char) : Bool := (' ' ≤ c && c ≤ '~') || 0xa0 ≤ c.toNat

/-- The characters that remove the last one of a regex. -/
def Erases (c : Char) : Prop := c.toNat = 0x08 ∨ c.toNat = 0x7f

def Unerased (text : List Char) : Prop :=
  ∀ front c back, text = front ++ c :: back → Erases c → ∀ d ∈ front, isPrintable d = false

/-- A character of the text as a regex. -/
def escape (c : Char) : List Char := if isEscaped c then ['\\', c] else [c]

namespace ActionContext
variable {ctx : ActionContext R}

/-- The search is at its current input. -/
structure Types (regex : List Char) (ctx : ActionContext R) : Prop where
  index : ctx.searchState.historyIndex = some 0
  front : ctx.searchState.history.head? = some regex

theorem startSearch_types (ctx : ActionContext R) (direction : Side) :
    Types [] (ctx.startSearch direction) := by
  refine ⟨rfl, ?_⟩
  unfold startSearch
  dsimp only
  split
  · next hempty => exact hempty
  · rfl

theorem Types.same {regex : List Char} {ctx' : ActionContext R} (h : Types regex ctx)
    (hsame : SameInputs ctx ctx') : Types regex ctx' :=
  ⟨hsame.historyIndex.trans h.index, hsame.history ▸ h.front⟩

theorem searchInput_types {regex : List Char} (h : Types regex ctx) (engine : RegexEngine R) (c : Char) :
    Returns (ctx.searchInput engine c) (Types (typedRegex regex c)) := by
  obtain ⟨tail, htail⟩ := List.head?_eq_some_iff.mp h.front
  unfold searchInput
  rw [h.index]
  simp only [leaveHistory, if_true, Option.bind_eq_bind, Option.bind_some, htail, List.getElem?_cons_zero]
  unfold typedRegex
  cases hc : typeRegex regex c with
  | none => exact .pure h
  | some regex' =>
      have hset : Types regex'
          { ctx with searchState.history := ctx.searchState.history.set 0 regex' } := by
        refine ⟨h.index, ?_⟩
        rw [htail]
        rfl
      refine .pure (.same ?_ (updateSearch_sameInputs _ engine))
      split
      · exact htail ▸ hset.same ⟨rfl, rfl, rfl⟩
      · exact htail ▸ hset

theorem seedInput_types {regex : List Char} (h : Types regex ctx) (engine : RegexEngine R) (c : Char) :
    Returns (seedInput engine ctx c) (Types (seeded regex c)) := by
  unfold seedInput seeded
  split
  · exact (searchInput_types h engine '\\').bind fun a ha => searchInput_types ha engine c
  · exact searchInput_types h engine c

theorem seedInputs_types (engine : RegexEngine R) (text : List Char) {regex : List Char}
    (h : Types regex ctx) :
    Returns (text.foldlM (seedInput engine) ctx) (Types (text.foldl seeded regex)) := by
  induction text generalizing ctx regex with
  | nil => exact .pure h
  | cons c text ih =>
      rw [List.foldlM_cons]
      exact (seedInput_types h engine c).bind fun a ha => ih ha

/-- The text that is typed for a selection is the current input of the search. -/
theorem startSeededSearch_returns (ctx : ActionContext R) (engine : RegexEngine R) (direction : Side)
    (text : List Char) : Returns (ctx.startSeededSearch engine direction text) fun ctx' =>
      ctx'.searchState.history.head? = some (text.foldl seeded []) := by
  unfold startSeededSearch
  refine (seedInputs_types engine text (startSearch_types _ direction)).bind fun a ha => ?_
  obtain ⟨b, hb, hleft⟩ := a.confirmSearch_leaves engine
  have hfront : (a.confirmSearch engine).searchState.history.head? = some (text.foldl seeded []) := by
    rw [hleft]
    exact (ha.same hb).front
  dsimp only
  split
  · exact .pure hfront
  · split
    · exact .pure hfront
    · exact .pure hfront

end ActionContext

/-! ### Its weight as a regex -/

/-- How many characters a regex stands for, as far as it was typed; the first one may follow a
backslash. -/
def weight : Bool → List Char → Nat
  | _, [] => 0
  | true, _ :: regex => 1 + weight false regex
  | false, c :: regex =>
      if c = '\\' then weight true regex else (if isEscaped c then 0 else 1) + weight false regex

theorem isEscaped_backslash : isEscaped '\\' = true := by decide

theorem weight_prefix (regex suffix : List Char) (e : Bool) :
    weight e regex ≤ weight e (regex ++ suffix) := by
  induction regex generalizing e with
  | nil => exact Nat.zero_le _
  | cons c regex ih =>
      rw [List.cons_append]
      cases e with
      | true => exact Nat.add_le_add_left (ih false) 1
      | false =>
          unfold weight
          split
          · exact ih true
          · exact Nat.add_le_add_left (ih false) _

/-- A character of the selection counts at most once. -/
theorem weight_escape_le (regex : List Char) (c : Char) (e : Bool) :
    weight e (regex ++ escape c) ≤ weight e regex + 1 := by
  induction regex generalizing e with
  | nil =>
      unfold escape
      split
      · cases e with
        | true =>
            simp only [List.nil_append, weight]
            split <;> simp_all
        | false => simp [weight]
      · cases e with
        | true => simp [weight]
        | false =>
            simp only [List.nil_append, weight]
            split <;> simp_all
  | cons d regex ih =>
      rw [List.cons_append]
      cases e with
      | true =>
          have hle := ih false
          simp only [weight]
          omega
      | false =>
          have htrue := ih true
          have hfalse := ih false
          simp only [weight]
          split <;> omega

/-- A text that was typed without a loss counts all of its characters. -/
theorem weight_escapes (text suffix : List Char) :
    weight false (text.flatMap escape ++ suffix) = text.length + weight false suffix := by
  induction text with
  | nil => simp
  | cons c text ih =>
      rw [List.flatMap_cons, List.append_assoc, List.length_cons]
      by_cases hc : isEscaped c = true
      · rw [escape, if_pos hc]
        simp only [List.cons_append, List.nil_append, weight, if_true, ih]
        omega
      · have hne : c ≠ '\\' := fun h => hc (h ▸ isEscaped_backslash)
        rw [escape, if_neg hc]
        simp only [List.cons_append, List.nil_append, weight, if_neg hne, if_neg hc, ih]
        omega

theorem eq_iff_toNat {c d : Char} : c = d ↔ c.toNat = d.toNat := ⟨fun h => h ▸ rfl, Char.toNat_inj.mp⟩

theorem isEscaped_toNat {c : Char} : isEscaped c = true ↔ c.toNat = 36 ∨ 40 ≤ c.toNat ∧ c.toNat ≤ 43 ∨
    c.toNat = 63 ∨ 91 ≤ c.toNat ∧ c.toNat ≤ 94 ∨ 123 ≤ c.toNat ∧ c.toNat ≤ 125 := by
  have hlo (d : Char) : d ≤ c ↔ d.toNat ≤ c.toNat := Iff.rfl
  have hhi (d : Char) : c ≤ d ↔ c.toNat ≤ d.toNat := Iff.rfl
  simp only [isEscaped, Bool.or_eq_true, Bool.and_eq_true, decide_eq_true_eq, eq_iff_toNat, hlo, hhi,
    Char.reduceToNat, or_assoc]

theorem isEscaped_iff {c : Char} : isEscaped c = true ↔ c ∈ metacharacters ∧ c ≠ '.' := by
  rw [isEscaped_toNat]
  simp only [metacharacters, List.mem_cons, List.not_mem_nil, eq_iff_toNat, ne_eq, or_false,
    Char.reduceToNat]
  omega

/-- A character without a backslash is a token of its own, which is plain unless it is escaped
in a selection. -/
theorem single_isPlain {c : Char} :
    (if c ∈ metacharacters then Token.operator c else Token.literal c).IsPlain ↔ isEscaped c = false := by
  rw [← Bool.not_eq_true, isEscaped_iff]
  split
  · next hmem => exact ⟨fun h => fun hesc => hesc.2 h, fun h => not_not.mp fun hdot => h ⟨hmem, hdot⟩⟩
  · next hmem => exact ⟨fun _ hesc => hmem hesc.1, fun _ => trivial⟩

theorem ne_backslash {c : Char} {text : List Char} (hcons : ∀ d rest, c = '\\' → text = d :: rest → False)
    (hnil : c = '\\' → text = [] → False) : c ≠ '\\' := by
  intro hc
  cases text with
  | nil => exact hnil hc rfl
  | cons d rest => exact hcons d rest hc rfl

theorem tokens_countP {regex : List Char} {ts : List Token} (h : tokens regex = some ts) :
    ts.countP (fun t => t.IsPlain) = weight false regex := by
  fun_induction tokens regex generalizing ts with
  | case1 =>
      cases h
      rfl
  | case2 c text _ ih =>
      obtain ⟨us, hus, rfl⟩ := Option.map_eq_some_iff.mp h
      have hplain : (Token.literal c).IsPlain := trivial
      rw [List.countP_cons, if_pos (decide_eq_true hplain), ih hus]
      simp only [weight, if_true]
      omega
  | case3 => cases h
  | case4 => cases h
  | case5 c text hcons hnil ih =>
      have hne := ne_backslash hcons hnil
      obtain ⟨us, hus, rfl⟩ := Option.map_eq_some_iff.mp h
      rw [List.countP_cons, ih hus, weight, if_neg hne, Nat.add_comm]
      simp only [decide_eq_true_eq, single_isPlain]
      cases isEscaped c <;> rfl

/-- A character that selections escape follows a backslash. -/
def Guarded (c d : Char) : Prop := isEscaped d = true → d ≠ '\\' → c = '\\'

/-- An operator follows an escaped backslash. -/
def GuardedToken (t u : Token) : Prop := u.IsPlain ∨ t = .literal '\\'

/-- What a text has to start with for its first token to be an operator. -/
theorem tokens_head {text : List Char} {u : Token} {us : List Token} (h : tokens text = some (u :: us)) :
    u.IsPlain ∨ ∃ d rest, text = d :: rest ∧ isEscaped d = true ∧ d ≠ '\\' := by
  fun_induction tokens text generalizing us with
  | case1 => cases h
  | case2 c rest _ _ =>
      obtain ⟨_, -, heq⟩ := Option.map_eq_some_iff.mp h
      obtain ⟨rfl, rfl⟩ := List.cons.inj heq
      exact .inl trivial
  | case3 => cases h
  | case4 => cases h
  | case5 c rest hcons hnil _ =>
      obtain ⟨_, -, heq⟩ := Option.map_eq_some_iff.mp h
      obtain ⟨rfl, rfl⟩ := List.cons.inj heq
      rw [single_isPlain]
      cases hc : isEscaped c with
      | false => exact .inl rfl
      | true => exact .inr ⟨c, rest, rfl, hc, ne_backslash hcons hnil⟩

theorem tokens_guarded {regex : List Char} {ts : List Token} (h : tokens regex = some ts)
    (hguarded : regex.IsChain Guarded) : ts.IsChain GuardedToken := by
  fun_induction tokens regex generalizing ts with
  | case1 =>
      cases h
      exact .nil
  | case2 c text _ ih =>
      obtain ⟨us, hus, rfl⟩ := Option.map_eq_some_iff.mp h
      have htail := List.IsChain.tail hguarded
      refine List.isChain_cons.mpr ⟨fun u hu => ?_, ih hus (List.IsChain.tail htail)⟩
      obtain ⟨vs, rfl⟩ := List.head?_eq_some_iff.mp hu
      refine (tokens_head hus).imp_right ?_
      rintro ⟨d, rest, rfl, hesc, hne⟩
      rw [(List.isChain_cons_cons.mp htail).1 hesc hne]
  | case3 => cases h
  | case4 => cases h
  | case5 c text hcons hnil ih =>
      have hne := ne_backslash hcons hnil
      obtain ⟨us, hus, rfl⟩ := Option.map_eq_some_iff.mp h
      refine List.isChain_cons.mpr ⟨fun u hu => ?_, ih hus (List.IsChain.tail hguarded)⟩
      obtain ⟨vs, rfl⟩ := List.head?_eq_some_iff.mp hu
      refine (tokens_head hus).imp_right ?_
      rintro ⟨d, rest, rfl, hesc, hd⟩
      exact absurd ((List.isChain_cons_cons.mp hguarded).1 hesc hd) hne

/-- The tokens in front of an operator have an escaped backslash. -/
theorem backslash_mem {items : List Token} {u : Token} (h : (items ++ [u]).IsChain GuardedToken)
    (hitems : items ≠ []) (hu : ¬ u.IsPlain) : .literal '\\' ∈ items := by
  obtain ⟨init, last, rfl⟩ := (List.eq_nil_or_concat' items).resolve_left hitems
  rw [List.append_assoc] at h
  obtain ⟨-, hlast, -⟩ := List.isChain_append_cons_cons.mp h
  exact List.mem_append_right _ (hlast.resolve_left hu ▸ List.mem_singleton_self _)

theorem bounds_text {bounds : Bounds} (h : bounds.Valid) :
    bounds.text ≠ [] ∧ '\\' ∉ bounds.text := by
  have hdigits {count : List Char} (hcount : IsNumber count) : '\\' ∉ count := by
    intro hmem
    have hdigit := hcount.2 _ hmem
    revert hdigit
    decide
  cases bounds with
  | exactly count => exact ⟨h.1, hdigits h⟩
  | atLeast count => exact ⟨by simp [Bounds.text], by simp [Bounds.text, hdigits h]⟩
  | between lo hi => exact ⟨by simp [Bounds.text], by simp [Bounds.text, hdigits h.1, hdigits h.2.1]⟩

/-- Operators behind escaped backslashes only: the atoms of the expression are plain tokens. -/
theorem reads_atoms {l : Level} {ts : List Token} {r : Regex} (hr : Reads l ts r)
    (h : ts.IsChain GuardedToken) : r.atoms ≤ ts.countP (fun t => t.IsPlain) := by
  induction hr with
  | literal c => exact Nat.le_refl 1
  | any => exact Nat.le_refl 1
  | lineStart => exact Nat.zero_le _
  | lineEnd => exact Nat.zero_le _
  | @group ts r _ ih =>
      have hle := ih (List.IsChain.left_of_append h.tail)
      rw [List.countP_cons, List.countP_append]
      omega
  | @oneOf items hitems _ _ =>
      have hmem := backslash_mem h.tail hitems (by decide)
      have hpos : 0 < items.countP (fun t => t.IsPlain) := List.countP_pos_iff.mpr ⟨_, hmem, rfl⟩
      rw [List.countP_cons, List.countP_append]
      simp only [Regex.atoms]
      omega
  | @noneOf items hitems _ =>
      have hmem := backslash_mem h.tail.tail hitems (by decide)
      have hpos : 0 < items.countP (fun t => t.IsPlain) := List.countP_pos_iff.mpr ⟨_, hmem, rfl⟩
      rw [List.countP_cons, List.countP_cons, List.countP_append]
      simp only [Regex.atoms]
      omega
  | piece _ ih => exact ih h
  | star => exact Nat.zero_le _
  | plus _ ih =>
      have hle := ih (List.IsChain.left_of_append h)
      rw [List.countP_append]
      simp only [Regex.atoms]
      omega
  | optional _ ih =>
      have hle := ih (List.IsChain.left_of_append h)
      rw [List.countP_append]
      simp only [Regex.atoms]
      omega
  | @times ts r bounds _ hvalid _ =>
      obtain ⟨htext, hno⟩ := bounds_text hvalid
      have hchain := (List.IsChain.right_of_append h).tail
      have hmem := backslash_mem hchain (by simpa using htext) (by decide)
      obtain ⟨c, hc, heq⟩ := List.mem_map.mp hmem
      cases heq
      exact absurd hc hno
  | empty => exact Nat.zero_le _
  | seq _ _ ihr ihs =>
      have hr := ihr (List.IsChain.left_of_append h)
      have hs := ihs (List.IsChain.right_of_append h)
      rw [List.countP_append]
      exact Nat.add_le_add hr hs
  | branch _ ih => exact ih h
  | alt _ _ ihr ihs =>
      have hr := ihr (List.IsChain.left_of_append h)
      have hs := ihs (List.IsChain.right_of_append h).tail
      rw [List.countP_append, List.countP_cons]
      simp only [Regex.atoms]
      omega

/-- A text that such a regex denotes is no longer than the regex weighs. -/
theorem Denotes.length_le {regex w : List Char} (h : Denotes regex w)
    (hguarded : regex.IsChain Guarded) : w.length ≤ weight false regex := by
  obtain ⟨ts, hts, ⟨r, hr⟩, hall⟩ := h
  obtain ⟨u, -, hatoms, hshort⟩ := Matches.short ((hall r hr [] w []).mpr rfl)
  have hu : u = w := (hall r hr [] u []).mp (hshort [] [] id id)
  calc w.length ≤ r.atoms := hu ▸ hatoms
    _ ≤ ts.countP (fun t => t.IsPlain) := reads_atoms hr (tokens_guarded hts hguarded)
    _ = weight false regex := tokens_countP hts

/-! ### Which selections are searched for as they are -/

theorem isPrintable_iff {c : Char} :
    isPrintable c = true ↔ ' ' ≤ c ∧ c ≤ '~' ∨ 0xa0 ≤ c.toNat := by
  simp only [isPrintable, Bool.or_eq_true, Bool.and_eq_true, decide_eq_true_eq]

theorem Erases.not_isPrintable {c : Char} (h : Erases c) : isPrintable c = false := by
  rw [← Bool.not_eq_true, isPrintable_iff]
  change ¬ (0x20 ≤ c.toNat ∧ c.toNat ≤ 0x7e ∨ 0xa0 ≤ c.toNat)
  unfold Erases at h
  omega

theorem isEscaped_isPrintable {c : Char} (h : isEscaped c = true) : isPrintable c = true := by
  rw [isPrintable_iff]
  change 0x20 ≤ c.toNat ∧ c.toNat ≤ 0x7e ∨ 0xa0 ≤ c.toNat
  have hnumber := isEscaped_toNat.mp h
  omega

theorem typedRegex_printable {c : Char} (hc : isPrintable c = true) (regex : List Char) :
    typedRegex regex c = regex ++ [c] := by
  have hkeeps : ¬ (c.toNat = 0x08 ∨ c.toNat = 0x7f) := fun he => by
    simp [Erases.not_isPrintable he] at hc
  rw [typedRegex, typeRegex, if_neg hkeeps, if_pos (isPrintable_iff.mp hc)]
  rfl

theorem seeded_printable {c : Char} (hc : isPrintable c = true) (regex : List Char) :
    seeded regex c = regex ++ escape c := by
  unfold seeded escape
  split
  · rw [typedRegex_printable (c := '\\') (by decide), typedRegex_printable hc, List.append_assoc]
    rfl
  · exact typedRegex_printable hc regex

theorem seeded_erases {c : Char} (hc : Erases c) (regex : List Char) :
    seeded regex c = regex.dropLast := by
  have hesc : ¬ isEscaped c = true := fun h => by
    simpa [hc.not_isPrintable] using isEscaped_isPrintable h
  have herases : c.toNat = 0x08 ∨ c.toNat = 0x7f := hc
  rw [seeded, if_neg hesc, typedRegex, typeRegex, if_pos herases]
  rfl

theorem seeded_ignored {c : Char} (hc : isPrintable c = false) (he : ¬ Erases c) (regex : List Char) :
    seeded regex c = regex := by
  have hesc : ¬ isEscaped c = true := fun h => by simp [isEscaped_isPrintable h] at hc
  have hkeeps : ¬ (c.toNat = 0x08 ∨ c.toNat = 0x7f) := he
  have hnot : ¬ (' ' ≤ c ∧ c ≤ '~' ∨ 0xa0 ≤ c.toNat) := fun h => by
    simp [isPrintable_iff.mpr h] at hc
  rw [seeded, if_neg hesc, typedRegex, typeRegex, if_neg hkeeps, if_neg hnot]
  rfl

theorem unerased_snoc {text : List Char} {c : Char} : Unerased (text ++ [c]) ↔
    Unerased text ∧ (Erases c → ∀ d ∈ text, isPrintable d = false) := by
  constructor
  · intro h
    refine ⟨fun front d back htext hd => ?_, fun hc => h text c [] rfl hc⟩
    exact h front d (back ++ [c]) (by rw [htext, List.append_assoc, List.cons_append]) hd
  · rintro ⟨h, hc⟩ front d back htext hd
    rcases List.eq_nil_or_concat' back with rfl | ⟨init, last, rfl⟩
    · obtain ⟨rfl, heq⟩ := List.append_inj' htext rfl
      obtain ⟨rfl, -⟩ := List.cons.inj heq
      exact hc hd
    · have hsplit : text ++ [c] = front ++ d :: init ++ [last] := by
        rw [htext, List.append_assoc, List.cons_append]
      obtain ⟨rfl, -⟩ := List.append_inj' hsplit rfl
      exact h front d init rfl hd

theorem guarded_escape {regex : List Char} (h : regex.IsChain Guarded) (c : Char) :
    (regex ++ escape c).IsChain Guarded := by
  refine List.isChain_append.mpr ⟨h, ?_, ?_⟩
  · unfold escape
    split
    · exact List.isChain_cons_cons.mpr ⟨fun _ _ => rfl, .singleton c⟩
    · exact .singleton c
  · intro x _ y hy
    unfold escape at hy
    split at hy
    · obtain rfl : '\\' = y := Option.some.inj hy
      exact fun _ hne => absurd rfl hne
    · next hc =>
        obtain rfl : c = y := Option.some.inj hy
        exact fun hesc => absurd hesc hc

theorem guarded_escapes (text : List Char) : (text.flatMap escape).IsChain Guarded := by
  induction text using List.reverseRecOn with
  | nil => exact .nil
  | append_singleton text c ih =>
      rw [List.flatMap_append, List.flatMap_singleton]
      exact guarded_escape ih c

/-- What has been typed so far: the whole text, or less than that. -/
def Faithful (text regex : List Char) : Prop :=
  Unerased text ∧ regex = (text.filter isPrintable).flatMap escape ∨
    ¬ Unerased text ∧ weight false regex < (text.filter isPrintable).length ∧ regex.IsChain Guarded

theorem weight_dropLast (regex : List Char) : weight false regex.dropLast ≤ weight false regex := by
  have hle := weight_prefix (regex.take (regex.length - 1)) (regex.drop (regex.length - 1)) false
  rwa [List.take_append_drop, ← List.dropLast_eq_take] at hle

/-- The last character was typed in vain, up to its backslash. -/
theorem weight_escapes_dropLast (init : List Char) (last : Char) :
    weight false ((init ++ [last]).flatMap escape).dropLast < (init ++ [last]).length := by
  have hne : escape last ≠ [] := by
    unfold escape
    split <;> simp
  have hescape : weight false (escape last).dropLast = 0 := by
    unfold escape
    split <;> rfl
  rw [List.flatMap_append, List.flatMap_singleton, List.dropLast_append_of_ne_nil hne, weight_escapes,
    hescape, List.length_append]
  exact Nat.lt_succ_self _

theorem Faithful.erased {text regex : List Char} (h : Faithful text regex) {c : Char} (he : Erases c)
    (hfilter : (text ++ [c]).filter isPrintable = text.filter isPrintable) :
    Faithful (text ++ [c]) regex.dropLast := by
  rw [Faithful, hfilter, unerased_snoc, imp_iff_right he]
  rcases h with ⟨hun, rfl⟩ | ⟨hun, hlt, hguarded⟩
  · rcases List.eq_nil_or_concat' (text.filter isPrintable) with hnil | ⟨init, last, hlast⟩
    · refine .inl ⟨⟨hun, ?_⟩, by rw [hnil]; rfl⟩
      simpa using List.filter_eq_nil_iff.mp hnil
    · refine .inr ⟨?_, hlast ▸ weight_escapes_dropLast init last, (guarded_escapes _).dropLast⟩
      rintro ⟨-, hall⟩
      rw [List.filter_eq_nil_iff.mpr (by simpa using hall)] at hlast
      simp at hlast
  · exact .inr ⟨fun h => hun h.1, Nat.lt_of_le_of_lt (weight_dropLast regex) hlt, hguarded.dropLast⟩

theorem Faithful.seeded {text regex : List Char} (h : Faithful text regex) (c : Char) :
    Faithful (text ++ [c]) (seeded regex c) := by
  by_cases hc : isPrintable c = true
  · have hkeeps : Unerased (text ++ [c]) ↔ Unerased text := by
      rw [unerased_snoc, and_iff_left]
      intro he
      simp [he.not_isPrintable] at hc
    rw [seeded_printable hc, Faithful, hkeeps, List.filter_append, List.filter_cons_of_pos hc, List.filter_nil,
      List.flatMap_append, List.flatMap_singleton, List.length_append, List.length_singleton]
    rcases h with ⟨hun, rfl⟩ | ⟨hun, hlt, hguarded⟩
    · exact .inl ⟨hun, rfl⟩
    · have hle := weight_escape_le regex c false
      exact .inr ⟨hun, by omega, guarded_escape hguarded c⟩
  · have hfilter : (text ++ [c]).filter isPrintable = text.filter isPrintable := by
      rw [List.filter_append, List.filter_cons_of_neg hc, List.filter_nil, List.append_nil]
    by_cases he : Erases c
    · rw [seeded_erases he]
      exact h.erased he hfilter
    · have hkeeps : Unerased (text ++ [c]) ↔ Unerased text := by
        rw [unerased_snoc, and_iff_left (fun h => absurd h he)]
      rw [seeded_ignored (Bool.not_eq_true _ ▸ hc) he, Faithful, hkeeps, hfilter]
      exact h

theorem foldl_seeded_faithful (text : List Char) : Faithful text (text.foldl seeded []) := by
  induction text using List.reverseRecOn with
  | nil =>
      refine .inl ⟨fun front c back htext => ?_, rfl⟩
      simp at htext
  | append_singleton text c ih =>
      rw [List.foldl_append]
      exact ih.seeded c

def escapedToken (c : Char) : Token := if c = '.' then .operator c else .literal c

theorem tokens_escapes (text : List Char) :
    tokens (text.flatMap escape) = some (text.map escapedToken) := by
  induction text with
  | nil => rfl
  | cons c text ih =>
      rw [List.flatMap_cons, List.map_cons]
      by_cases hc : isEscaped c = true
      · obtain ⟨hmem, hdot⟩ := isEscaped_iff.mp hc
        rw [escape, if_pos hc, escapedToken, if_neg hdot]
        simp only [List.cons_append, List.nil_append]
        rw [tokens, if_pos hmem, ih]
        rfl
      · have hne : c ≠ '\\' := fun h => hc (h ▸ isEscaped_backslash)
        have htoken : (if c ∈ metacharacters then Token.operator c else Token.literal c) =
            escapedToken c := by
          unfold escapedToken
          by_cases hdot : c = '.'
          · subst hdot
            rfl
          · rw [if_neg hdot, if_neg fun hmem => hc (isEscaped_iff.mpr ⟨hmem, hdot⟩)]
        rw [escape, if_neg hc, List.singleton_append, tokens.eq_def]
        split
        · next heq => cases heq
        · next heq => exact absurd (List.cons.inj heq).1 hne
        · next heq => exact absurd (List.cons.inj heq).1 hne
        · next d rest _ _ heq =>
            obtain ⟨rfl, rfl⟩ := List.cons.inj heq
            rw [ih, htoken]
            rfl

/-- The regex that is typed for a selection denotes the printable characters of the selection if and
only if it has no dot, and nothing in it erases a printable character. -/
theorem denotes_seeded_iff (text : List Char) :
    Denotes (text.foldl seeded []) (text.filter isPrintable) ↔ '.' ∉ text ∧ Unerased text := by
  rcases foldl_seeded_faithful text with ⟨hun, hregex⟩ | ⟨hun, hlt, hguarded⟩
  · have hplain : ∀ t ∈ (text.filter isPrintable).map escapedToken, t.IsPlain := by
      intro t ht
      obtain ⟨c, -, rfl⟩ := List.mem_map.mp ht
      unfold escapedToken
      split
      · assumption
      · trivial
    rw [hregex, denotes_plain (tokens_escapes _) hplain, List.map_inj_left, and_iff_left hun]
    constructor
    · intro h hdot
      have hliteral := h '.' (List.mem_filter.mpr ⟨hdot, by decide⟩)
      cases hliteral
    · intro h c hc
      have hne : c ≠ '.' := fun hdot => h (hdot ▸ (List.mem_filter.mp hc).1)
      exact if_neg hne
  · refine iff_of_false (fun h => ?_) fun h => hun h.2
    have hle := Denotes.length_le h hguarded
    omega

namespace ActionContext

/-- A selection is searched for as the text that its printable characters are if and only if it has no
dot, and no backspace or delete behind a printable character. -/
theorem startSeededSearch_literal_iff (ctx : ActionContext R) (engine : RegexEngine R)
    (direction : Side) (text : List Char) :
    Returns (ctx.startSeededSearch engine direction text) fun ctx' =>
      ∃ regex, ctx'.searchState.history.head? = some regex ∧
        (Denotes regex (text.filter isPrintable) ↔ '.' ∉ text ∧ Unerased text) :=
  (ctx.startSeededSearch_returns engine direction text).mono fun _ h =>
    ⟨_, h, denotes_seeded_iff text⟩

/-- A dot of the selection matches other characters. -/
theorem startSeededSearch_dot : ¬ ∀ (ctx ctx' : ActionContext Unit) (engine : RegexEngine Unit)
    (direction : Side) (text regex : List Char),
    ctx.startSeededSearch engine direction text = some ctx' →
    ctx'.searchState.history.head? = some regex → Denotes regex (text.filter isPrintable) := by
  intro h
  let engine : RegexEngine Unit := ⟨fun _ => some (), fun _ _ _ _ _ _ => none⟩
  have hdenotes := h (.initial (.new .initial 1 4)) _ engine .right ['a', '.', 'b'] ['a', '.', 'b'] rfl rfl
  have hplain : ∀ t ∈ [Token.literal 'a', .operator '.', .literal 'b'], t.IsPlain := by decide
  have hliteral := (denotes_plain rfl hplain).mp hdenotes
  cases hliteral

end ActionContext
end Velacritty
