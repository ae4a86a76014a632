import Velacritty.ControlSequences
import Velacritty.KeySequences

/-! What a program that reads the sequences of keys makes of them. -/
namespace Velacritty
open ControlSequences

inductive KeyEventType where
  | press
  | repetition
  | release
  deriving DecidableEq, Repr

/-- What a key's sequence says: its code, the modifiers, the type of the event and the text. -/
structure KeyReport where
  code : Param
  final : Char
  modifiers : SequenceModifiers
  event : KeyEventType
  text : List Nat
  deriving DecidableEq, Repr

def SequenceModifiers.ofBits (n : Nat) : SequenceModifiers where
  shift := n.testBit 0
  alt := n.testBit 1
  control := n.testBit 2
  super := n.testBit 3

def KeyEventType.ofNumber : Nat → KeyEventType
  | 2 => .repetition
  | 3 => .release
  | _ => .press

/-- A parameter that is left out stands for no modifiers and a press, and for no text. -/
def readReport (s : Sequence) : Option KeyReport := do
  let (code, rest) ← (match s.params with | code :: rest => some (code, rest) | [] => none)
  let (modifiers, event) ← (match rest.head? with
    | none => some (.ofBits 0, .press)
    | some [some m] => some (.ofBits (m - 1), .press)
    | some [some m, some e] => some (.ofBits (m - 1), .ofNumber e)
    | some _ => none)
  let text ← (match rest.tail with
    | [] => some []
    | text :: _ => text.mapM id)
  some ⟨code, s.final, modifiers, event, text⟩

def readKey (text : List Char) : Option (KeyReport × List Char) := do
  let (s, rest) ← parse text
  let report ← readReport s
  some (report, rest)

def kittyKey : Nat → Option NamedKey
  | 9 => some .tab
  | 13 => some .enter
  | 27 => some .escape
  | 32 => some .space
  | 127 => some .backspace
  | 57358 => some .capsLock
  | 57359 => some .scrollLock
  | 57360 => some .numLock
  | 57361 => some .printScreen
  | 57362 => some .pause
  | 57363 => some .contextMenu
  | 57376 => some .f13
  | 57377 => some .f14
  | 57378 => some .f15
  | 57379 => some .f16
  | 57380 => some .f17
  | 57381 => some .f18
  | 57382 => some .f19
  | 57383 => some .f20
  | 57384 => some .f21
  | 57385 => some .f22
  | 57386 => some .f23
  | 57387 => some .f24
  | 57388 => some .f25
  | 57389 => some .f26
  | 57390 => some .f27
  | 57391 => some .f28
  | 57392 => some .f29
  | 57393 => some .f30
  | 57394 => some .f31
  | 57395 => some .f32
  | 57396 => some .f33
  | 57397 => some .f34
  | 57398 => some .f35
  | 57414 => some .enter
  | 57417 => some .arrowLeft
  | 57418 => some .arrowRight
  | 57419 => some .arrowUp
  | 57420 => some .arrowDown
  | 57421 => some .pageUp
  | 57422 => some .pageDown
  | 57423 => some .home
  | 57424 => some .endKey
  | 57425 => some .insert
  | 57426 => some .delete
  | 57428 => some .mediaPlay
  | 57429 => some .mediaPause
  | 57430 => some .mediaPlayPause
  | 57432 => some .mediaStop
  | 57433 => some .mediaFastForward
  | 57434 => some .mediaRewind
  | 57435 => some .mediaTrackNext
  | 57436 => some .mediaTrackPrevious
  | 57437 => some .mediaRecord
  | 57438 => some .audioVolumeDown
  | 57439 => some .audioVolumeUp
  | 57440 => some .audioVolumeMute
  | 57441 => some .shift
  | 57442 => some .control
  | 57443 => some .alt
  | 57444 => some .super
  | 57445 => some .hyper
  | 57446 => some .metaKey
  | 57447 => some .shift
  | 57448 => some .control
  | 57449 => some .alt
  | 57450 => some .super
  | 57451 => some .hyper
  | 57452 => some .metaKey
  | _ => none

def tildeKey : Nat → Option NamedKey
  | 2 => some .insert
  | 3 => some .delete
  | 5 => some .pageUp
  | 6 => some .pageDown
  | 13 => some .f3
  | 15 => some .f5
  | 17 => some .f6
  | 18 => some .f7
  | 19 => some .f8
  | 20 => some .f9
  | 21 => some .f10
  | 23 => some .f11
  | 24 => some .f12
  | 25 => some .f13
  | 26 => some .f14
  | 28 => some .f15
  | 29 => some .f16
  | 31 => some .f17
  | 32 => some .f18
  | 33 => some .f19
  | 34 => some .f20
  | _ => none

def letterKey : Char → Option NamedKey
  | 'H' => some .home
  | 'F' => some .endKey
  | 'D' => some .arrowLeft
  | 'C' => some .arrowRight
  | 'A' => some .arrowUp
  | 'B' => some .arrowDown
  | 'P' => some .f1
  | 'Q' => some .f2
  | 'R' => some .f3
  | 'S' => some .f4
  | _ => none

def numpadCharacter : Nat → Option Char
  | 57399 => some '0'
  | 57400 => some '1'
  | 57401 => some '2'
  | 57402 => some '3'
  | 57403 => some '4'
  | 57404 => some '5'
  | 57405 => some '6'
  | 57406 => some '7'
  | 57407 => some '8'
  | 57408 => some '9'
  | 57409 => some '.'
  | 57410 => some '/'
  | 57411 => some '*'
  | 57412 => some '-'
  | 57413 => some '+'
  | 57415 => some '='
  | _ => none

/-- The characters that have codes of their own on the numpad. -/
def numpadCharacters : List Char := ['0', '1', '2', '3', '4', '5', '6', '7', '8', '9', '.', '/', '*', '-', '+', '=']

/-- The key of a sequence that is not a character's. -/
def namedKeyOf (code : Param) (final : Char) : Option NamedKey :=
  match code, final with
  | [some n], 'u' => kittyKey n
  | [some n], '~' => tildeKey n
  | [_], final => letterKey final
  | _, _ => none

/-! ### The tables -/

def Tells (payload : List Char) (final : Char) (named : NamedKey) : Bool :=
  match readNumber payload with
  | some n => renderNumber n == payload && isFinal final && namedKeyOf [n] final == some named
  | none => false

theorem numpadBase_tells {named : NamedKey} {base : String}
    (h : SequenceBuilder.numpadBase (.named named) = some base) :
    Tells base.toList 'u' named = true := by
  cases named <;> cases h <;> decide

def TellsCharacter (payload : List Char) (ch : Char) : Bool :=
  match readNumber payload with
  | some n => renderNumber n == payload && n.bind numpadCharacter == some ch
  | none => false

theorem numpadBase_character {text : List Char} {base : String}
    (h : SequenceBuilder.numpadBase (.character text) = some base) :
    ∃ ch, text = [ch] ∧ ch ∈ numpadCharacters ∧ TellsCharacter base.toList ch = true := by
  unfold SequenceBuilder.numpadBase at h
  split at h <;> cases h <;> rename_i heq <;> cases heq <;> exact ⟨_, rfl, by decide, by decide⟩

theorem numpadBase_isSome : ∀ ch ∈ numpadCharacters, (SequenceBuilder.numpadBase (.character [ch])).isSome :=
  List.all_eq_true.mp (by decide)

theorem kittyBase_tells {named : NamedKey} {base : String × SequenceTerminator}
    (h : SequenceBuilder.kittyBase named = some base) :
    Tells base.1.toList base.2.encodeEscSequence named = true := by
  cases named <;> cases h <;> decide

theorem normalBase_tells {named : NamedKey} {oneBased : String} {base : String × SequenceTerminator}
    (hone : oneBased = "" ∨ oneBased = "1") (h : SequenceBuilder.normalBase oneBased named = some base) :
    Tells base.1.toList base.2.encodeEscSequence named = true := by
  rcases hone with rfl | rfl <;> cases named <;> cases h <;> decide

theorem controlCharOrModBase_tells {named : NamedKey} {location : KeyLocation}
    (h : SequenceBuilder.controlCharOrModBase location named ≠ "") :
    Tells (SequenceBuilder.controlCharOrModBase location named).toList 'u' named = true := by
  cases named <;> first | exact absurd rfl h | (cases location <;> decide)

/-- No key that has a sequence of its own is one of the modifiers that the state holds. -/
theorem setModifier_plain {named : NamedKey} (press : Bool) (mods : SequenceModifiers)
    (h : (SequenceBuilder.numpadBase (.named named)).isSome ∨ (SequenceBuilder.kittyBase named).isSome ∨
      ∃ oneBased, (SequenceBuilder.normalBase oneBased named).isSome) :
    SequenceBuilder.setModifier named press mods = mods := by
  rcases h with h | h | ⟨_, h⟩ <;> cases named <;> first | rfl | cases h

/-! ### What is built -/

theorem decimal_eq (n : Nat) : decimal n = renderNumber (some n) := Nat.toList_repr

@[simp] theorem ofBits_bits (m : SequenceModifiers) : .ofBits m.bits = m := by
  obtain ⟨_ | _, _ | _, _ | _, _ | _⟩ := m <;> rfl

def reportedModifiers (key : KeyEvent) (mods : ModifiersState) : SequenceModifiers :=
  match key.logicalKey with
  | .named named => SequenceBuilder.setModifier named (key.state == .pressed) (.ofState mods)
  | _ => .ofState mods

def reportedEvent (key : KeyEvent) (mode : TermMode) : KeyEventType :=
  if mode.keyboard.reportEventTypes then
    if key.repeated then .repetition else if key.state == .released then .release else .press
  else .press

def reportedText (key : KeyEvent) (mode : TermMode) : List Nat :=
  ((associatedText key mode).getD []).map Char.toNat

/-- The number that stands for a character: without Shift its own, with Shift that of its lowercase
character, or if this is the same one, that of what the key types without modifiers. -/
structure StandsFor (texts : KeyTexts) (key : KeyEvent) (shift : Bool) (ch : Char) (n : Nat) : Prop where
  plain : shift = false → n = ch.toNat
  lowercase : shift = true → texts.toLowercase ch ≠ ch → n = (texts.toLowercase ch).toNat
  unmodified : shift = true → texts.toLowercase ch = ch →
    ∀ c rest, key.keyWithoutModifiers = .character (c :: rest) → n = c.toNat
  otherwise : shift = true → texts.toLowercase ch = ch →
    (∀ c rest, key.keyWithoutModifiers ≠ .character (c :: rest)) → n = ch.toNat

/-- The code tells the key: a named one, or a character, on the numpad by a code of its own and
elsewhere by the number that stands for it, with its own number if the mode asks for that. A text that
is not one character has the code zero. -/
structure TellsKey (texts : KeyTexts) (key : KeyEvent) (mods : ModifiersState) (mode : TermMode)
    (code : Param) (final : Char) : Prop where
  identified : key.logicalKey ≠ .unidentified
  named : ∀ named, key.logicalKey = .named named → namedKeyOf code final = some named
  numpad : ∀ ch ∈ numpadCharacters, key.logicalKey = .character [ch] → key.location = .numpad →
    final = 'u' ∧ ∃ n, code = [some n] ∧ numpadCharacter n = some ch
  character : ∀ ch, key.logicalKey = .character [ch] → (key.location = .numpad → ch ∉ numpadCharacters) →
    final = 'u' ∧ ∃ n, StandsFor texts key mods.shift ch n ∧
      code = some n :: if mode.keyboard.reportAlternateKeys ∧ n ≠ ch.toNat then [some ch.toNat] else []
  text : ∀ cs, key.logicalKey = .character cs → cs.length ≠ 1 → final = 'u' ∧ code = [some 0]

/-- What every attempt to build a sequence gives. -/
structure BaseReads (texts : KeyTexts) (key : KeyEvent) (mods : ModifiersState) (mode : TermMode)
    (base : SequenceBase) (code : Param) : Prop where
  nonempty : code ≠ []
  payload : base.payload = renderParam code
  final : isFinal base.terminator.encodeEscSequence = true
  tells : TellsKey texts key mods mode code base.terminator.encodeEscSequence

section
variable {texts : KeyTexts} {key : KeyEvent} {mods : ModifiersState} {mode : TermMode} {base : SequenceBase}

theorem TellsKey.of_named {named : NamedKey} {code : Param} {final : Char}
    (hkey : key.logicalKey = .named named) (h : namedKeyOf code final = some named) :
    TellsKey texts key mods mode code final := by
  have hnot {cs : List Char} (hcs : key.logicalKey = .character cs) : False := by
    rw [hkey] at hcs
    cases hcs
  refine ⟨fun hnone => ?_, fun m hm => ?_, fun _ _ hch => (hnot hch).elim, fun _ hch => (hnot hch).elim,
    fun _ hcs => (hnot hcs).elim⟩
  · rw [hkey] at hnone
    cases hnone
  · rw [hkey] at hm
    cases hm
    exact h

theorem baseReads_of_tells {named : NamedKey} (hkey : key.logicalKey = .named named)
    (h : Tells base.payload base.terminator.encodeEscSequence named = true) :
    ∃ code, BaseReads texts key mods mode base code := by
  unfold Tells at h
  split at h
  · rename_i n _
    simp only [Bool.and_eq_true, beq_iff_eq] at h
    exact ⟨[n], by simp, by simp [renderParam, h.1.1], h.1.2, .of_named hkey h.2⟩
  · cases h

theorem baseReads_of_numpad {ch : Char} {payload : List Char} (hkey : key.logicalKey = .character [ch])
    (hnumpad : key.location = .numpad) (hch : ch ∈ numpadCharacters) (h : TellsCharacter payload ch = true) :
    ∃ code, BaseReads texts key mods mode ⟨payload, .kitty⟩ code := by
  unfold TellsCharacter at h
  split at h
  · rename_i n _
    simp only [Bool.and_eq_true, beq_iff_eq] at h
    obtain ⟨hpayload, hcode⟩ := h
    obtain ⟨m, rfl, hm⟩ := Option.bind_eq_some_iff.mp hcode
    refine ⟨[some m], List.cons_ne_nil _ _, by simp [renderParam, hpayload], rfl, ?_, ?_, ?_, ?_, ?_⟩
    · intro hnone
      rw [hkey] at hnone
      cases hnone
    · intro named hnamed
      rw [hkey] at hnamed
      cases hnamed
    · intro c _ hc _
      rw [hkey] at hc
      cases hc
      exact ⟨rfl, m, rfl, hm⟩
    · intro c hc hnot
      rw [hkey] at hc
      cases hc
      exact absurd hch (hnot hnumpad)
    · intro cs hcs hlength
      rw [hkey] at hcs
      cases hcs
      exact absurd rfl hlength
  · cases h

theorem unicodeKeyCode_standsFor (texts : KeyTexts) (shift : Bool) (key : KeyEvent) (ch : Char) :
    StandsFor texts key shift ch (SequenceBuilder.unicodeKeyCode texts shift key ch) := by
  cases shift with
  | false => exact ⟨fun _ => rfl, Bool.noConfusion, Bool.noConfusion, Bool.noConfusion⟩
  | true =>
      refine ⟨Bool.noConfusion, fun _ hlower => ?_, fun _ hsame c rest hkey => ?_, fun _ hsame hkey => ?_⟩
      · have hne : ch.toNat ≠ (texts.toLowercase ch).toNat := fun heq =>
          hlower (Char.toNat_inj.mp heq.symm)
        simp [SequenceBuilder.unicodeKeyCode, hne]
      · simp [SequenceBuilder.unicodeKeyCode, hsame, hkey]
      · unfold SequenceBuilder.unicodeKeyCode
        rw [if_pos rfl, hsame, if_pos (by simp)]
        split
        · rename_i unmodded hunmodded
          cases unmodded with
          | nil => rfl
          | cons c rest => exact absurd hunmodded (hkey c rest)
        · rfl

theorem numpad_reads (h : (sequenceBuilder key mods mode).tryBuildNumpad key = some base) :
    (∃ code, BaseReads texts key mods mode base code) ∧
      reportedModifiers key mods = .ofState mods := by
  unfold SequenceBuilder.tryBuildNumpad at h
  split at h
  · cases h
  · rename_i hnumpad
    obtain ⟨text, htext, rfl⟩ := Option.map_eq_some_iff.mp h
    cases hkey : key.logicalKey with
    | named named =>
        rw [hkey] at htext
        refine ⟨baseReads_of_tells hkey (numpadBase_tells htext), ?_⟩
        rw [reportedModifiers, hkey]
        exact setModifier_plain _ _ (.inl (by rw [htext]; rfl))
    | character text' =>
        refine ⟨?_, by rw [reportedModifiers, hkey]⟩
        rw [hkey] at htext
        obtain ⟨ch, rfl, hch, htells⟩ := numpadBase_character htext
        simp only [Bool.or_eq_true, bne_iff_ne, not_or, not_not] at hnumpad
        exact baseReads_of_numpad hkey hnumpad.2 hch htells
    | unidentified =>
        rw [hkey] at htext
        cases htext

theorem kitty_reads (h : (sequenceBuilder key mods mode).tryBuildNamedKitty key = some base) :
    (∃ code, BaseReads texts key mods mode base code) ∧
      reportedModifiers key mods = .ofState mods := by
  unfold SequenceBuilder.tryBuildNamedKitty at h
  split at h
  · rename_i named hkey
    split at h
    · obtain ⟨entry, hentry, rfl⟩ := Option.map_eq_some_iff.mp h
      refine ⟨baseReads_of_tells hkey (kittyBase_tells hentry), ?_⟩
      rw [reportedModifiers, hkey]
      exact setModifier_plain _ _ (.inr (.inl (by rw [hentry]; rfl)))
    · cases h
  · cases h

theorem normal_reads {hasText : Bool}
    (h : (sequenceBuilder key mods mode).tryBuildNamedNormal key hasText = some base) :
    (∃ code, BaseReads texts key mods mode base code) ∧
      reportedModifiers key mods = .ofState mods := by
  unfold SequenceBuilder.tryBuildNamedNormal at h
  split at h
  · rename_i named hkey
    obtain ⟨entry, hentry, rfl⟩ := Option.map_eq_some_iff.mp h
    refine ⟨baseReads_of_tells hkey (normalBase_tells ?_ hentry), ?_⟩
    · split
      · exact .inl rfl
      · exact .inr rfl
    · rw [reportedModifiers, hkey]
      exact setModifier_plain _ _ (.inr (.inr ⟨_, by rw [hentry]; rfl⟩))
  · cases h

theorem controlCharOrMod_reads {after : SequenceModifiers}
    (h : (sequenceBuilder key mods mode).tryBuildControlCharOrMod key (.ofState mods) =
      (some base, after)) :
    (∃ code, BaseReads texts key mods mode base code) ∧ after = reportedModifiers key mods := by
  unfold SequenceBuilder.tryBuildControlCharOrMod at h
  split at h
  · cases h
  · split at h
    · rename_i named hkey
      split at h
      · cases h
      · dsimp only at h
        obtain ⟨hbase, rfl⟩ := Prod.mk.inj h
        refine ⟨?_, by rw [reportedModifiers, hkey]⟩
        split at hbase
        · cases hbase
        · rename_i hne
          cases hbase
          exact baseReads_of_tells hkey (controlCharOrModBase_tells (by simpa using hne))
    · cases h

/-- The modifiers that a failed attempt leaves behind are those of a key that is not a character. -/
theorem controlCharOrMod_character {after mods' : SequenceModifiers} {text : List Char}
    (hkey : key.logicalKey = .character text)
    (h : (sequenceBuilder key mods mode).tryBuildControlCharOrMod key mods' = (none, after)) :
    after = mods' := by
  unfold SequenceBuilder.tryBuildControlCharOrMod at h
  split at h
  · exact (Prod.mk.inj h).2.symm
  · rw [hkey] at h
    exact (Prod.mk.inj h).2.symm

theorem renderParam_pair (a b : Nat) :
    renderParam [some a, some b] = decimal a ++ ':' :: decimal b := by
  rw [renderParam, List.map_cons, intercalate_cons, decimal_eq, decimal_eq]
  simp

theorem textual_reads {text : Option (List Char)}
    (hnumpad : (sequenceBuilder key mods mode).tryBuildNumpad key = none)
    (h : (sequenceBuilder key mods mode).tryBuildTextual texts key text = some base) :
    (∃ code, BaseReads texts key mods mode base code) ∧ ∃ character, key.logicalKey = .character character := by
  unfold SequenceBuilder.tryBuildTextual at h
  split at h
  · rename_i character hkey
    refine ⟨?_, character, hkey⟩
    have hidentified : key.logicalKey ≠ .unidentified := by
      rw [hkey]
      exact Key.noConfusion
    have hnamed (p : Param) (named : NamedKey) (hn : key.logicalKey = .named named) :
        namedKeyOf p 'u' = some named := by
      rw [hkey] at hn
      cases hn
    split at h
    · cases h
    · rename_i hkitty
      have hother (ch : Char) (hch : key.logicalKey = .character [ch]) (hloc : key.location = .numpad) :
          ch ∉ numpadCharacters := by
        intro hmem
        obtain ⟨numpadText, hsome⟩ := Option.isSome_iff_exists.mp (numpadBase_isSome ch hmem)
        rw [SequenceBuilder.tryBuildNumpad, hch, hsome, if_neg (by simp [hloc, hkitty])] at hnumpad
        cases hnumpad
      split at h
      · rename_i ch
        obtain rfl := (Option.some.inj h).symm
        have hstands := unicodeKeyCode_standsFor texts (sequenceBuilder key mods mode).modifiers.shift key ch
        generalize SequenceBuilder.unicodeKeyCode texts
          (sequenceBuilder key mods mode).modifiers.shift key ch = code at hstands ⊢
        have htells (rest : Param) (hrest : rest = if mode.keyboard.reportAlternateKeys ∧ code ≠ ch.toNat then
            [some ch.toNat] else []) : TellsKey texts key mods mode (some code :: rest) 'u' := by
          refine ⟨hidentified, hnamed _, fun c hmem hc hloc => absurd hmem (hother c hc hloc),
            fun c hc _ => ?_, fun cs hcs hlength => ?_⟩
          · rw [hkey] at hc
            cases hc
            exact ⟨rfl, code, hstands, by rw [hrest]⟩
          · rw [hkey] at hcs
            cases hcs
            exact absurd rfl hlength
        split
        · rename_i halt
          simp only [Bool.and_eq_true, bne_iff_ne] at halt
          refine ⟨[some code, some ch.toNat], by simp, (renderParam_pair _ _).symm, rfl, htells _ ?_⟩
          exact (if_pos ⟨halt.1, Ne.symm halt.2⟩).symm
        · rename_i halt
          simp only [Bool.and_eq_true, bne_iff_ne] at halt
          refine ⟨[some code], by simp, by simp [renderParam, decimal_eq], rfl, htells _ ?_⟩
          exact (if_neg fun hrest => halt ⟨hrest.1, Ne.symm hrest.2⟩).symm
      · rename_i _ hlong
        split at h
        · cases h
          refine ⟨[some 0], by simp, by decide, rfl, hidentified, hnamed _,
            fun c hmem hc hloc => absurd hmem (hother c hc hloc), fun c hc => ?_, fun _ _ _ => ⟨rfl, rfl⟩⟩
          rw [hkey] at hc
          exact absurd (Key.character.inj hc) (hlong c)
        · cases h
  · cases h

/-- Whatever attempt succeeds, the payload is a parameter that tells the key. -/
theorem sequenceBase_reads {text : Option (List Char)} {after : SequenceModifiers}
    (h : (sequenceBuilder key mods mode).sequenceBase texts key text = (some base, after)) :
    (∃ code, BaseReads texts key mods mode base code) ∧ after = reportedModifiers key mods := by
  unfold SequenceBuilder.sequenceBase at h
  split at h
  · rename_i _ hnumpad
    cases h
    obtain ⟨hreads, hmods⟩ := numpad_reads hnumpad
    exact ⟨hreads, hmods.symm⟩
  · rename_i hnumpad
    split at h
    · rename_i _ hkitty
      cases h
      obtain ⟨hreads, hmods⟩ := kitty_reads hkitty
      exact ⟨hreads, hmods.symm⟩
    · split at h
      · rename_i _ hnormal
        cases h
        obtain ⟨hreads, hmods⟩ := normal_reads hnormal
        exact ⟨hreads, hmods.symm⟩
      · split at h
        · rename_i _ hcontrol
          cases h
          exact controlCharOrMod_reads hcontrol
        · rename_i _ hcontrol
          obtain ⟨htext, rfl⟩ := Prod.mk.inj h
          obtain ⟨hreads, character, hkey⟩ := textual_reads hnumpad htext
          refine ⟨hreads, ?_⟩
          rw [controlCharOrMod_character hkey hcontrol, reportedModifiers, hkey]
          rfl

end

/-! ### Whole sequences -/

def eventNumber (key : KeyEvent) : Nat :=
  if key.repeated then 2 else if key.state == .pressed then 1 else 3

def reportParams (eventType : Bool) (key : KeyEvent) (modifiers : SequenceModifiers)
    (text : Option (List Char)) : List Param :=
  (if eventType || !modifiers.isEmpty || text.isSome then
    [some modifiers.encodeEscSequence :: if eventType then [some (eventNumber key)] else []]
  else []) ++
    match text with
    | some (c :: cs) => [(c :: cs).map fun c => some c.toNat]
    | _ => []

theorem renderParam_text (c : Char) (cs : List Char) :
    renderParam (some c.toNat :: cs.map fun c => some c.toNat) =
      decimal c.toNat ++ cs.flatMap fun c => ':' :: decimal c.toNat := by
  rw [renderParam, List.map_cons, intercalate_cons, List.map_map, List.flatMap_map]
  simp only [Function.comp_apply, decimal_eq]

theorem decimal_eventNumber (key : KeyEvent) : decimal (eventNumber key) =
    [if key.repeated then '2' else if key.state == .pressed then '1' else '3'] := by
  unfold eventNumber
  split
  · rfl
  · split <;> rfl

theorem buildSequence_render {texts : KeyTexts} {key : KeyEvent} {mods : ModifiersState}
    {mode : TermMode} {base : SequenceBase} {after : SequenceModifiers} {code : Param}
    (h : (sequenceBuilder key mods mode).sequenceBase texts key (associatedText key mode) =
      (some base, after)) (hreads : BaseReads texts key mods mode base code) :
    buildSequence texts key mods mode = Sequence.render ⟨[],
      code :: reportParams (sequenceBuilder key mods mode).kittyEventType key after
        (associatedText key mode), base.terminator.encodeEscSequence⟩ := by
  unfold buildSequence
  dsimp only
  rw [h]
  dsimp only
  rw [Sequence.render, renderParams, List.map_cons, intercalate_cons, hreads.payload,
    ← decimal_eventNumber]
  unfold reportParams
  generalize (sequenceBuilder key mods mode).kittyEventType = eventType
  rcases associatedText key mode with _ | _ | ⟨c, cs⟩
  · cases eventType <;> cases after.isEmpty <;> simp [renderParam, decimal_eq]
  · cases eventType <;> cases after.isEmpty <;> simp [renderParam, decimal_eq]
  · simp only [List.map_cons, Option.isSome_some, Bool.or_true, if_true]
    cases eventType <;> simp [renderParam_text] <;> simp [renderParam, decimal_eq]

theorem reportParams_ne_nil {eventType : Bool} {key : KeyEvent} {modifiers : SequenceModifiers}
    {text : Option (List Char)} {p : Param} (h : p ∈ reportParams eventType key modifiers text) :
    p ≠ [] := by
  unfold reportParams at h
  rcases List.mem_append.mp h with h | h
  · split at h
    · rw [List.mem_singleton.mp h]
      simp
    · cases h
  · split at h
    · rw [List.mem_singleton.mp h]
      simp
    · cases h

theorem eq_ofBits_of_isEmpty {m : SequenceModifiers} (h : m.isEmpty = true) : m = .ofBits 0 := by
  rw [← ofBits_bits m]
  exact congrArg _ (by simpa [SequenceModifiers.isEmpty] using h)

theorem readReport_params {marker : List Char} {code : Param} {eventType : Bool} {key : KeyEvent}
    {modifiers : SequenceModifiers} {text : Option (List Char)} {final : Char} (htext : text ≠ some []) :
    readReport ⟨marker, code :: reportParams eventType key modifiers text, final⟩ =
      some ⟨code, final, modifiers, if eventType then .ofNumber (eventNumber key) else .press,
        (text.getD []).map Char.toNat⟩ := by
  have hmods : SequenceModifiers.ofBits (modifiers.encodeEscSequence - 1) = modifiers := by
    rw [SequenceModifiers.encodeEscSequence, Nat.add_sub_cancel, ofBits_bits]
  rcases text with _ | _ | ⟨c, cs⟩
  · cases eventType with
    | true => simp [readReport, reportParams, hmods]
    | false =>
        cases hempty : modifiers.isEmpty with
        | true => simp [readReport, reportParams, hempty, ← eq_ofBits_of_isEmpty hempty]
        | false => simp [readReport, reportParams, hempty, hmods]
  · exact absurd rfl htext
  · have hcodes : ((c :: cs).map fun c => some c.toNat).mapM id = some ((c :: cs).map Char.toNat) := by
      have h : (((c :: cs).map Char.toNat).map some).mapM id = some ((c :: cs).map Char.toNat) :=
        mapM_map fun _ _ => rfl
      rwa [List.map_map] at h
    rw [List.map_cons, List.map_cons] at hcodes
    cases eventType with
    | true => simp [readReport, reportParams, hmods, hcodes]
    | false => simp [readReport, reportParams, hmods, hcodes]

theorem associatedText_ne_nil (key : KeyEvent) (mode : TermMode) : associatedText key mode ≠ some [] := by
  intro h
  have := (Option.filter_eq_some_iff.mp h).2
  simp at this

theorem reportedEvent_eq (key : KeyEvent) (mods : ModifiersState) (mode : TermMode) :
    (if (sequenceBuilder key mods mode).kittyEventType then KeyEventType.ofNumber (eventNumber key)
      else .press) = reportedEvent key mode := by
  unfold sequenceBuilder reportedEvent eventNumber
  cases mode.keyboard.reportEventTypes <;> cases key.repeated <;> cases key.state <;> rfl

/-- The report is of the key: which one it was, the modifiers, whether it was pressed, repeated or
released, and the text, each as far as the mode asks for it. -/
structure Reports (texts : KeyTexts) (key : KeyEvent) (mods : ModifiersState) (mode : TermMode)
    (report : KeyReport) : Prop where
  tells : TellsKey texts key mods mode report.code report.final
  modifiers : report.modifiers = reportedModifiers key mods
  event : report.event = reportedEvent key mode
  text : report.text = reportedText key mode

theorem buildSequence_readKey {texts : KeyTexts} {key : KeyEvent} {mods : ModifiersState} {mode : TermMode}
    {base : SequenceBase} {after : SequenceModifiers} (rest : List Char)
    (hbase : (sequenceBuilder key mods mode).sequenceBase texts key (associatedText key mode) =
      (some base, after)) :
    ∃ report, readKey (buildSequence texts key mods mode ++ rest) = some (report, rest) ∧
      Reports texts key mods mode report := by
  obtain ⟨⟨code, hreads⟩, hafter⟩ := sequenceBase_reads hbase
  have hwf : Sequence.WF ⟨[], code :: reportParams (sequenceBuilder key mods mode).kittyEventType key
      after (associatedText key mode), base.terminator.encodeEscSequence⟩ := by
    refine ⟨fun c hc => (nomatch hc), List.cons_ne_nil _ _, fun p hp => ?_, hreads.final⟩
    rcases List.mem_cons.mp hp with rfl | hp
    · exact hreads.nonempty
    · exact reportParams_ne_nil hp
  refine ⟨⟨code, base.terminator.encodeEscSequence, after, reportedEvent key mode,
    reportedText key mode⟩, ?_, hreads.tells, hafter, rfl, rfl⟩
  rw [readKey, buildSequence_render hbase hreads, parse_render hwf, ← reportedEvent_eq key mods]
  simp only [Option.bind_eq_bind, Option.bind_some,
    readReport_params (associatedText_ne_nil key mode)]
  rfl

theorem buildSequence_cases (texts : KeyTexts) (key : KeyEvent) (mods : ModifiersState) (mode : TermMode)
    (rest : List Char) :
    buildSequence texts key mods mode = [] ∨
      ∃ report, readKey (buildSequence texts key mods mode ++ rest) = some (report, rest) ∧
        Reports texts key mods mode report := by
  rcases hbase : (sequenceBuilder key mods mode).sequenceBase texts key (associatedText key mode)
    with ⟨_ | base, after⟩
  · left
    unfold buildSequence
    dsimp only
    rw [hbase]
  · exact .inr (buildSequence_readKey rest hbase)

def hasSequence (key : KeyEvent) (mode : TermMode) : Bool :=
  let kitty := mode.keyboard.reportAllKeysAsEsc || mode.keyboard.disambiguateEscCodes ||
    mode.keyboard.reportEventTypes
  match key.logicalKey with
  | .named named => (SequenceBuilder.normalBase "" named).isSome ||
      kitty && ((SequenceBuilder.kittyBase named).isSome || SequenceBuilder.controlCharBase named != "" ||
        mode.keyboard.reportAllKeysAsEsc && SequenceBuilder.controlCharOrModBase key.location named != "")
  | .character text =>
      kitty && (text.length == 1 || mode.keyboard.reportAllKeysAsEsc && (associatedText key mode).isSome)
  | .unidentified => false

theorem normalBase_isSome (oneBased oneBased' : String) (named : NamedKey) :
    (SequenceBuilder.normalBase oneBased named).isSome = (SequenceBuilder.normalBase oneBased' named).isSome := by
  cases named <;> rfl

theorem numpadBase_named {named : NamedKey} (h : (SequenceBuilder.numpadBase (.named named)).isSome) :
    (SequenceBuilder.normalBase "" named).isSome ∨ SequenceBuilder.controlCharBase named ≠ "" := by
  cases named <;> first | exact .inl rfl | exact .inr (by decide) | cases h

theorem controlCharOrModBase_ne {named : NamedKey} (location : KeyLocation)
    (h : SequenceBuilder.controlCharBase named ≠ "") :
    SequenceBuilder.controlCharOrModBase location named ≠ "" := by
  cases named <;> first | exact absurd rfl h | (cases location <;> decide)

section
variable {texts : KeyTexts} {key : KeyEvent} {mods : ModifiersState} {mode : TermMode}

theorem sequenceBase_isSome (b : SequenceBuilder) (text : Option (List Char)) :
    (b.sequenceBase texts key text).1.isSome = ((b.tryBuildNumpad key).isSome ||
      (b.tryBuildNamedKitty key).isSome || (b.tryBuildNamedNormal key text.isSome).isSome ||
      (b.tryBuildControlCharOrMod key b.modifiers).1.isSome || (b.tryBuildTextual texts key text).isSome) := by
  unfold SequenceBuilder.sequenceBase
  cases b.tryBuildNumpad key with
  | some base => rfl
  | none =>
      cases b.tryBuildNamedKitty key with
      | some base => rfl
      | none =>
          cases b.tryBuildNamedNormal key text.isSome with
          | some base => rfl
          | none => rcases b.tryBuildControlCharOrMod key b.modifiers with ⟨_ | base, mods'⟩ <;> rfl

theorem sequenceBase_named {named : NamedKey} (hkey : key.logicalKey = .named named) (b : SequenceBuilder)
    (hall : b.kittyEncodeAll = true → b.kittySeq = true) (text : Option (List Char)) :
    (b.sequenceBase texts key text).1.isSome = ((SequenceBuilder.normalBase "" named).isSome || b.kittySeq &&
      ((SequenceBuilder.kittyBase named).isSome || SequenceBuilder.controlCharBase named != "" ||
        b.kittyEncodeAll && SequenceBuilder.controlCharOrModBase key.location named != "")) := by
  obtain ⟨mode, kittySeq, encodeAll, eventType, modifiers⟩ := b
  have hnumpad := @numpadBase_named named
  have hcontrol := @controlCharOrModBase_ne named key.location
  rw [sequenceBase_isSome]
  simp only [SequenceBuilder.tryBuildNumpad, SequenceBuilder.tryBuildNamedKitty,
    SequenceBuilder.tryBuildNamedNormal, SequenceBuilder.tryBuildControlCharOrMod,
    SequenceBuilder.tryBuildTextual, hkey, Option.isSome_map, normalBase_isSome _ ""]
  generalize (SequenceBuilder.normalBase "" named).isSome = normal at hnumpad ⊢
  generalize SequenceBuilder.controlCharBase named = controlChar at hnumpad hcontrol ⊢
  generalize SequenceBuilder.controlCharOrModBase key.location named = controlCharOrMod at hcontrol ⊢
  generalize SequenceBuilder.numpadBase (.named named) = numpad at hnumpad ⊢
  cases kittySeq with
  | false =>
      obtain rfl : encodeAll = false := Bool.eq_false_iff.mpr fun h => Bool.noConfusion (hall h)
      simp
  | true =>
      cases numpad <;> cases normal <;> by_cases hchar : controlChar = "" <;>
        by_cases hmod : controlCharOrMod = "" <;> cases encodeAll <;> simp_all

theorem sequenceBase_character {cs : List Char} (hkey : key.logicalKey = .character cs) (b : SequenceBuilder)
    (text : Option (List Char)) : (b.sequenceBase texts key text).1.isSome =
      (b.kittySeq && (cs.length == 1 || b.kittyEncodeAll && text.isSome)) := by
  obtain ⟨mode, kittySeq, encodeAll, eventType, modifiers⟩ := b
  have hnumpad (h : (SequenceBuilder.numpadBase (.character cs)).isSome) : cs.length = 1 := by
    obtain ⟨base, hbase⟩ := Option.isSome_iff_exists.mp h
    obtain ⟨ch, rfl, -⟩ := numpadBase_character hbase
    rfl
  rw [sequenceBase_isSome]
  simp only [SequenceBuilder.tryBuildNumpad, SequenceBuilder.tryBuildNamedKitty,
    SequenceBuilder.tryBuildNamedNormal, SequenceBuilder.tryBuildControlCharOrMod,
    SequenceBuilder.tryBuildTextual, hkey]
  generalize SequenceBuilder.numpadBase (.character cs) = numpad at hnumpad ⊢
  cases kittySeq with
  | false => simp
  | true =>
      match cs with
      | [ch] => simp
      | [] => cases numpad <;> cases encodeAll <;> cases text <;> simp_all
      | _ :: _ :: _ => cases numpad <;> cases encodeAll <;> cases text <;> simp_all

theorem sequenceBase_eq (texts : KeyTexts) (key : KeyEvent) (mods : ModifiersState) (mode : TermMode) :
    ((sequenceBuilder key mods mode).sequenceBase texts key
      (associatedText key mode)).1.isSome = hasSequence key mode := by
  cases hkey : key.logicalKey with
  | named named =>
      rw [sequenceBase_named hkey, hasSequence, hkey]
      · rfl
      · intro hall
        exact Bool.or_eq_true_iff.mpr (.inl (Bool.or_eq_true_iff.mpr (.inl hall)))
  | character text =>
      rw [sequenceBase_character hkey, hasSequence, hkey]
      rfl
  | unidentified =>
      rw [sequenceBase_isSome, hasSequence, hkey]
      simp [SequenceBuilder.tryBuildNumpad, SequenceBuilder.tryBuildNamedKitty,
        SequenceBuilder.tryBuildNamedNormal, SequenceBuilder.tryBuildControlCharOrMod,
        SequenceBuilder.tryBuildTextual, hkey, SequenceBuilder.numpadBase]

/-- Whatever key, modifiers and mode: if the mode has a sequence for the key, what is sent is read as
one sequence, whatever follows it, which tells the key, the modifiers, the event and the text. Nothing
is sent otherwise. -/
theorem buildSequence_reads (texts : KeyTexts) (key : KeyEvent) (mods : ModifiersState) (mode : TermMode)
    (rest : List Char) :
    if hasSequence key mode then
      ∃ report, readKey (buildSequence texts key mods mode ++ rest) = some (report, rest) ∧
        Reports texts key mods mode report
    else buildSequence texts key mods mode = [] := by
  rw [← sequenceBase_eq texts key mods mode]
  rcases hbase : (sequenceBuilder key mods mode).sequenceBase texts key (associatedText key mode)
    with ⟨_ | base, after⟩
  · rw [if_neg (by simp), buildSequence]
    dsimp only
    rw [hbase]
  · have hsome : (some base, after).1.isSome = true := rfl
    rw [if_pos hsome]
    exact buildSequence_readKey rest hbase

end

/-- Two sequences of named keys that are the same are of the same key. -/
theorem buildSequence_injective (texts : KeyTexts) {key key' : KeyEvent} {mods mods' : ModifiersState}
    {mode mode' : TermMode} {named named' : NamedKey} (hkey : key.logicalKey = .named named)
    (hkey' : key'.logicalKey = .named named') (hne : buildSequence texts key mods mode ≠ [])
    (h : buildSequence texts key mods mode = buildSequence texts key' mods' mode') :
    named = named' ∧ reportedModifiers key mods = reportedModifiers key' mods' ∧
      reportedEvent key mode = reportedEvent key' mode' ∧
      reportedText key mode = reportedText key' mode' := by
  obtain ⟨report, hread, htells, hmods, hevent, htext⟩ :=
    (buildSequence_cases texts key mods mode []).resolve_left hne
  obtain ⟨report', hread', htells', hmods', hevent', htext'⟩ :=
    (buildSequence_cases texts key' mods' mode' []).resolve_left (h ▸ hne)
  rw [h, hread'] at hread
  obtain rfl : report' = report := by simpa using hread
  refine ⟨?_, hmods.symm.trans hmods', hevent.symm.trans hevent', htext.symm.trans htext'⟩
  have := htells.named named hkey
  rw [htells'.named named' hkey'] at this
  exact (Option.some.inj this).symm

/-- The texts of the named keys, and lowercase for the letters of ASCII. -/
def asciiTexts : KeyTexts where
  toText
    | .enter => some ['\r']
    | .backspace => some ['\x08']
    | .tab => some ['\t']
    | .space => some [' ']
    | .escape => some ['\x1b']
    | _ => none
  toLowercase := Char.toLower

def pressOf (key : Key) (text : List Char) : KeyEvent := ⟨key, .standard, .pressed, false, some text, key⟩

/-- F5 has the same sequence with and without the kitty protocol. -/
theorem buildSequence_injective_f5 :
    let mode : TermMode := { keyboard := { disambiguateEscCodes := true } }
    NamedKey.f5 = NamedKey.f5 ∧
      reportedModifiers (pressOf (.named .f5) []) .empty = reportedModifiers (pressOf (.named .f5) []) .empty ∧
      reportedEvent (pressOf (.named .f5) []) .initial = reportedEvent (pressOf (.named .f5) []) mode ∧
      reportedText (pressOf (.named .f5) []) .initial = reportedText (pressOf (.named .f5) []) mode :=
  buildSequence_injective asciiTexts rfl rfl (by decide) (by decide)

end Velacritty
