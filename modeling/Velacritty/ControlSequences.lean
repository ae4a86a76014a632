import Mathlib.Data.List.Basic

/-! Control sequences: a private marker, parameters with sub-parameters in decimal, and a final
character, rendered and parsed. Nothing here names a program. -/
namespace ControlSequences

/-- A sub-parameter; it may be left out. -/
def renderNumber : Option Nat → List Char
  | none => []
  | some n => Nat.toDigits 10 n

def readNumber (text : List Char) : Option (Option Nat) :=
  if text = [] then some none
  else if text.all Char.isDigit then some (some (Nat.ofDigitChars 10 text 0))
  else none

abbrev Param := List (Option Nat)

def renderParam (p : Param) : List Char := [':'].intercalate (p.map renderNumber)

def readParam (text : List Char) : Option Param := (text.splitOn ':').mapM readNumber

def renderParams (ps : List Param) : List Char := [';'].intercalate (ps.map renderParam)

def readParams (text : List Char) : Option (List Param) := (text.splitOn ';').mapM readParam

structure Sequence where
  marker : List Char
  params : List Param
  final : Char
  deriving DecidableEq, Repr

def isMarker (c : Char) : Bool := 0x3c ≤ c.toNat && c.toNat ≤ 0x3f

def isBody (c : Char) : Bool := c.isDigit || c == ':' || c == ';'

def isFinal (c : Char) : Bool := 0x40 ≤ c.toNat && c.toNat ≤ 0x7e

/-- What can be told apart when it is rendered. -/
structure Sequence.WF (s : Sequence) : Prop where
  marker : ∀ c ∈ s.marker, isMarker c = true
  params : s.params ≠ []
  subs : ∀ p ∈ s.params, p ≠ []
  final : isFinal s.final = true

def Sequence.render (s : Sequence) : List Char :=
  '\x1b' :: '[' :: (s.marker ++ (renderParams s.params ++ [s.final]))

def parse : List Char → Option (Sequence × List Char)
  | '\x1b' :: '[' :: text =>
      let marker := text.takeWhile isMarker
      let text := text.dropWhile isMarker
      match text.dropWhile isBody with
      | final :: rest =>
          if isFinal final then
            (readParams (text.takeWhile isBody)).map fun ps => (⟨marker, ps, final⟩, rest)
          else none
      | [] => none
  | _ => none

/-! ### Numbers -/

theorem isDigit_of_mem_renderNumber {n : Option Nat} {c : Char} (h : c ∈ renderNumber n) :
    c.isDigit = true := by
  cases n with
  | none => cases h
  | some n => exact Nat.isDigit_of_mem_toDigits (by decide) (by decide) h

@[simp] theorem readNumber_renderNumber (n : Option Nat) : readNumber (renderNumber n) = some n := by
  cases n with
  | none => rfl
  | some n =>
      have hne : Nat.toDigits 10 n ≠ [] := Nat.toDigits_ne_nil
      have hall : (Nat.toDigits 10 n).all Char.isDigit = true :=
        List.all_eq_true.mpr fun c hc => isDigit_of_mem_renderNumber (n := some n) hc
      simp [readNumber, renderNumber, hne, hall]

/-! ### Parameters -/

theorem mapM_map {α β : Type} {f : α → β} {g : β → Option α} {xs : List α}
    (h : ∀ x ∈ xs, g (f x) = some x) : (xs.map f).mapM g = some xs := by
  induction xs with
  | nil => rfl
  | cons x xs ih =>
      rw [List.map_cons, List.mapM_cons, h x List.mem_cons_self,
        ih fun y hy => h y (List.mem_cons_of_mem _ hy)]
      rfl

theorem intercalate_cons {sep : Char} (part : List Char) (parts : List (List Char)) :
    [sep].intercalate (part :: parts) = part ++ parts.flatMap fun p => sep :: p := by
  induction parts generalizing part with
  | nil => simp
  | cons next parts ih =>
      rw [List.intercalate_cons_cons, ih, List.flatMap_cons]
      simp

/-- The parts of a joined text are apart again when no part has the separator. -/
theorem splitOn_join {α : Type} {render : α → List Char} {read : List Char → Option α} {sep : Char}
    {xs : List α} (hne : xs ≠ []) (hsep : ∀ x ∈ xs, sep ∉ render x)
    (hread : ∀ x ∈ xs, read (render x) = some x) :
    (([sep].intercalate (xs.map render)).splitOn sep).mapM read = some xs := by
  rw [List.splitOn_intercalate sep ?_ (by simpa using hne)]
  · exact mapM_map hread
  · intro l hl
    obtain ⟨x, hx, rfl⟩ := List.mem_map.mp hl
    exact hsep x hx

theorem mem_join {sep c : Char} {parts : List (List Char)} (h : c ∈ [sep].intercalate parts) :
    c = sep ∨ ∃ p ∈ parts, c ∈ p := by
  induction parts with
  | nil => cases h
  | cons p parts ih =>
      cases parts with
      | nil => exact .inr ⟨p, List.mem_cons_self, by simpa using h⟩
      | cons q parts =>
          rw [List.intercalate_cons_cons, List.mem_append, List.mem_append] at h
          rcases h with (h | h) | h
          · exact .inr ⟨p, List.mem_cons_self, h⟩
          · exact .inl (List.mem_singleton.mp h)
          · rcases ih h with h | ⟨r, hr, h⟩
            · exact .inl h
            · exact .inr ⟨r, List.mem_cons_of_mem _ hr, h⟩

theorem mem_renderParam {p : Param} {c : Char} (h : c ∈ renderParam p) :
    c = ':' ∨ c.isDigit = true := by
  rcases mem_join h with h | ⟨part, hpart, h⟩
  · exact .inl h
  · obtain ⟨n, _, rfl⟩ := List.mem_map.mp hpart
    exact .inr (isDigit_of_mem_renderNumber h)

theorem mem_renderParams {ps : List Param} {c : Char} (h : c ∈ renderParams ps) :
    isBody c = true := by
  rcases mem_join h with rfl | ⟨part, hpart, h⟩
  · rfl
  · obtain ⟨p, _, rfl⟩ := List.mem_map.mp hpart
    rcases mem_renderParam h with rfl | h
    · rfl
    · simp [isBody, h]

theorem readParam_renderParam {p : Param} (h : p ≠ []) : readParam (renderParam p) = some p := by
  refine splitOn_join h (fun n _ hn => ?_) fun n _ => readNumber_renderNumber n
  exact absurd (isDigit_of_mem_renderNumber hn) (by decide)

theorem readParams_renderParams {ps : List Param} (h : ps ≠ []) (hsubs : ∀ p ∈ ps, p ≠ []) :
    readParams (renderParams ps) = some ps := by
  refine splitOn_join h (fun p _ hp => ?_) fun p hp => readParam_renderParam (hsubs p hp)
  rcases mem_renderParam hp with hp | hp
  · exact absurd hp (by decide)
  · exact absurd hp (by decide)

/-! ### Sequences -/

theorem not_isMarker_of_isBody {c : Char} (h : isBody c = true) : isMarker c = false := by
  simp only [isBody, Bool.or_eq_true, beq_iff_eq, Char.isDigit_iff_toNat] at h
  rcases h with (⟨_, h⟩ | rfl) | rfl
  · have : '9'.toNat = 57 := rfl
    simp only [isMarker, Bool.and_eq_false_iff, decide_eq_false_iff_not]
    omega
  · rfl
  · rfl

theorem not_isMarker_of_isFinal {c : Char} (h : isFinal c = true) : isMarker c = false := by
  simp only [isFinal, Bool.and_eq_true, decide_eq_true_eq] at h
  simp only [isMarker, Bool.and_eq_false_iff, decide_eq_false_iff_not]
  omega

theorem not_isBody_of_isFinal {c : Char} (h : isFinal c = true) : isBody c = false := by
  simp only [isFinal, Bool.and_eq_true, decide_eq_true_eq] at h
  have hdigit : c.isDigit = false := by
    rw [Bool.eq_false_iff, ne_eq, Char.isDigit_iff_toNat]
    have : '9'.toNat = 57 := rfl
    omega
  have hcolon : c ≠ ':' := fun hc => absurd h.1 (by rw [hc]; decide)
  have hsemi : c ≠ ';' := fun hc => absurd h.1 (by rw [hc]; decide)
  simp [isBody, hdigit, hcolon, hsemi]

/-- Of a text in two parts, of which the second does not go on as the first. -/
theorem takeWhile_dropWhile_append (p : Char → Bool) (xs ys : List Char)
    (hxs : ∀ c ∈ xs, p c = true) (hys : ∀ c, ys.head? = some c → p c = false) :
    (xs ++ ys).takeWhile p = xs ∧ (xs ++ ys).dropWhile p = ys := by
  rw [List.takeWhile_append_of_pos hxs, List.dropWhile_append_of_pos hxs]
  cases ys with
  | nil => simp
  | cons c ys =>
      have := hys c rfl
      simp [this]

/-- A rendered sequence is read back, whatever follows it. -/
theorem parse_render {s : Sequence} (h : s.WF) (rest : List Char) :
    parse (s.render ++ rest) = some (s, rest) := by
  have hbody := takeWhile_dropWhile_append isBody (renderParams s.params) (s.final :: rest)
    (fun c hc => mem_renderParams hc)
    (by rintro c hc; obtain rfl := Option.some.inj hc; exact not_isBody_of_isFinal h.final)
  have hmarker := takeWhile_dropWhile_append isMarker s.marker
    (renderParams s.params ++ s.final :: rest) h.marker ?_
  · have heq : s.render ++ rest =
        '\x1b' :: '[' :: (s.marker ++ (renderParams s.params ++ s.final :: rest)) := by
      simp [Sequence.render]
    rw [heq, parse]
    simp only [hmarker.1, hmarker.2, hbody.1, hbody.2, h.final,
      readParams_renderParams h.params h.subs]
    rfl
  · intro c hc
    cases hparams : renderParams s.params with
    | nil =>
        rw [hparams] at hc
        obtain rfl := Option.some.inj hc
        exact not_isMarker_of_isFinal h.final
    | cons d ds =>
        rw [hparams] at hc
        obtain rfl := Option.some.inj hc
        exact not_isMarker_of_isBody (mem_renderParams (by rw [hparams]; exact List.mem_cons_self))

end ControlSequences
