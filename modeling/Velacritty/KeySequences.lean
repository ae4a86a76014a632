import Velacritty.Term
import Velacritty.TouchGestures
import Velacritty.Utf8Strings

/-! The escape sequences of keys. What is written to the PTY are the UTF-8 bytes of these texts. -/
namespace Velacritty

/-- The keys that are not characters; `other` stands for all that have no sequence. -/
inductive NamedKey where
  | f1 | f2 | f3 | f4 | f5 | f6 | f7 | f8 | f9 | f10 | f11 | f12 | f13 | f14 | f15 | f16 | f17
  | f18 | f19 | f20 | f21 | f22 | f23 | f24 | f25 | f26 | f27 | f28 | f29 | f30 | f31 | f32 | f33
  | f34 | f35 | enter | arrowLeft | arrowRight | arrowUp | arrowDown | pageUp | pageDown | home
  | endKey | insert | delete | scrollLock | printScreen | pause | contextMenu | mediaPlay
  | mediaPause | mediaPlayPause | mediaStop | mediaFastForward | mediaRewind | mediaTrackNext
  | mediaTrackPrevious | mediaRecord | audioVolumeDown | audioVolumeUp | audioVolumeMute | tab
  | escape | space | backspace | shift | control | alt | super | hyper | metaKey | capsLock
  | numLock
  | other (id : Nat)
  deriving DecidableEq, Repr

inductive Key where
  | named (key : NamedKey)
  | character (text : List Char)
  | unidentified
  deriving DecidableEq, Repr

inductive KeyLocation where
  | standard
  | left
  | right
  | numpad
  deriving DecidableEq, Repr

structure KeyEvent where
  logicalKey : Key
  location : KeyLocation
  state : ElementState
  repeated : Bool
  textWithAllModifiers : Option (List Char)
  keyWithoutModifiers : Key
  deriving DecidableEq, Repr

structure ModifiersState where
  shift : Bool
  control : Bool
  alt : Bool
  super : Bool
  deriving DecidableEq, Repr

def ModifiersState.empty : ModifiersState := ⟨false, false, false, false⟩

/-- What is taken from the windowing library and from Unicode: the text of a named key, and the
first character of a lowercase mapping. -/
structure KeyTexts where
  toText : NamedKey → Option (List Char)
  toLowercase : Char → Char

/-! ### Sequences -/

structure SequenceModifiers where
  shift : Bool
  alt : Bool
  control : Bool
  super : Bool
  deriving DecidableEq, Repr

namespace SequenceModifiers

def bits (m : SequenceModifiers) : Nat :=
  m.shift.toNat + 2 * m.alt.toNat + 4 * m.control.toNat + 8 * m.super.toNat

def isEmpty (m : SequenceModifiers) : Bool := m.bits == 0

/-- Get the value which should be passed to escape sequence. -/
def encodeEscSequence (m : SequenceModifiers) : Nat := m.bits + 1

def ofState (mods : ModifiersState) : SequenceModifiers where
  shift := mods.shift
  alt := mods.alt
  control := mods.control
  super := mods.super

end SequenceModifiers

inductive SequenceTerminator where
  /-- The normal key esc sequence terminator defined by xterm/dec. -/
  | normal (char : Char)
  /-- The terminator is for kitty escape sequence. -/
  | kitty
  deriving DecidableEq, Repr

def SequenceTerminator.encodeEscSequence : SequenceTerminator → Char
  | .normal char => char
  | .kitty => 'u'

structure SequenceBase where
  payload : List Char
  terminator : SequenceTerminator
  deriving DecidableEq, Repr

/-- Helper to build escape sequence payloads from key events. -/
structure SequenceBuilder where
  mode : TermMode
  /-- The emitted sequence should follow the kitty keyboard protocol. -/
  kittySeq : Bool
  /-- Encode all the keys according to the protocol. -/
  kittyEncodeAll : Bool
  /-- Report event types. -/
  kittyEventType : Bool
  modifiers : SequenceModifiers
  deriving DecidableEq, Repr

/-- Check whether the text is `0x7f`, `C0` or `C1` control code. -/
def isControlCharacter (text : List Char) : Bool :=
  Utf8.byteLen text == 1 &&
    text.head?.any fun c => c.toNat < 0x20 || (0x7f ≤ c.toNat && c.toNat ≤ 0x9f)

def decimal (n : Nat) : List Char := (toString n).toList

namespace SequenceBuilder

def numpadBase : Key → Option String
  | .character ['0'] => some "57399"
  | .character ['1'] => some "57400"
  | .character ['2'] => some "57401"
  | .character ['3'] => some "57402"
  | .character ['4'] => some "57403"
  | .character ['5'] => some "57404"
  | .character ['6'] => some "57405"
  | .character ['7'] => some "57406"
  | .character ['8'] => some "57407"
  | .character ['9'] => some "57408"
  | .character ['.'] => some "57409"
  | .character ['/'] => some "57410"
  | .character ['*'] => some "57411"
  | .character ['-'] => some "57412"
  | .character ['+'] => some "57413"
  | .character ['='] => some "57415"
  | .named .enter => some "57414"
  | .named .arrowLeft => some "57417"
  | .named .arrowRight => some "57418"
  | .named .arrowUp => some "57419"
  | .named .arrowDown => some "57420"
  | .named .pageUp => some "57421"
  | .named .pageDown => some "57422"
  | .named .home => some "57423"
  | .named .endKey => some "57424"
  | .named .insert => some "57425"
  | .named .delete => some "57426"
  | _ => none

def tryBuildNumpad (b : SequenceBuilder) (key : KeyEvent) : Option SequenceBase :=
  if !b.kittySeq || key.location != .numpad then none
  else (numpadBase key.logicalKey).map fun base => ⟨base.toList, .kitty⟩

def kittyBase : NamedKey → Option (String × SequenceTerminator)
  | .f3 => some ("13", .normal '~')
  | .f13 => some ("57376", .kitty)
  | .f14 => some ("57377", .kitty)
  | .f15 => some ("57378", .kitty)
  | .f16 => some ("57379", .kitty)
  | .f17 => some ("57380", .kitty)
  | .f18 => some ("57381", .kitty)
  | .f19 => some ("57382", .kitty)
  | .f20 => some ("57383", .kitty)
  | .f21 => some ("57384", .kitty)
  | .f22 => some ("57385", .kitty)
  | .f23 => some ("57386", .kitty)
  | .f24 => some ("57387", .kitty)
  | .f25 => some ("57388", .kitty)
  | .f26 => some ("57389", .kitty)
  | .f27 => some ("57390", .kitty)
  | .f28 => some ("57391", .kitty)
  | .f29 => some ("57392", .kitty)
  | .f30 => some ("57393", .kitty)
  | .f31 => some ("57394", .kitty)
  | .f32 => some ("57395", .kitty)
  | .f33 => some ("57396", .kitty)
  | .f34 => some ("57397", .kitty)
  | .f35 => some ("57398", .kitty)
  | .scrollLock => some ("57359", .kitty)
  | .printScreen => some ("57361", .kitty)
  | .pause => some ("57362", .kitty)
  | .contextMenu => some ("57363", .kitty)
  | .mediaPlay => some ("57428", .kitty)
  | .mediaPause => some ("57429", .kitty)
  | .mediaPlayPause => some ("57430", .kitty)
  | .mediaStop => some ("57432", .kitty)
  | .mediaFastForward => some ("57433", .kitty)
  | .mediaRewind => some ("57434", .kitty)
  | .mediaTrackNext => some ("57435", .kitty)
  | .mediaTrackPrevious => some ("57436", .kitty)
  | .mediaRecord => some ("57437", .kitty)
  | .audioVolumeDown => some ("57438", .kitty)
  | .audioVolumeUp => some ("57439", .kitty)
  | .audioVolumeMute => some ("57440", .kitty)
  | _ => none

/-- Try building from a named key using the kitty keyboard protocol encoding for functional keys. -/
def tryBuildNamedKitty (b : SequenceBuilder) (key : KeyEvent) : Option SequenceBase :=
  match key.logicalKey with
  | .named named =>
      if b.kittySeq then (kittyBase named).map fun base => ⟨base.1.toList, base.2⟩ else none
  | _ => none

def normalBase (oneBased : String) : NamedKey → Option (String × SequenceTerminator)
  | .pageUp => some ("5", .normal '~')
  | .pageDown => some ("6", .normal '~')
  | .insert => some ("2", .normal '~')
  | .delete => some ("3", .normal '~')
  | .home => some (oneBased, .normal 'H')
  | .endKey => some (oneBased, .normal 'F')
  | .arrowLeft => some (oneBased, .normal 'D')
  | .arrowRight => some (oneBased, .normal 'C')
  | .arrowUp => some (oneBased, .normal 'A')
  | .arrowDown => some (oneBased, .normal 'B')
  | .f1 => some (oneBased, .normal 'P')
  | .f2 => some (oneBased, .normal 'Q')
  | .f3 => some (oneBased, .normal 'R')
  | .f4 => some (oneBased, .normal 'S')
  | .f5 => some ("15", .normal '~')
  | .f6 => some ("17", .normal '~')
  | .f7 => some ("18", .normal '~')
  | .f8 => some ("19", .normal '~')
  | .f9 => some ("20", .normal '~')
  | .f10 => some ("21", .normal '~')
  | .f11 => some ("23", .normal '~')
  | .f12 => some ("24", .normal '~')
  | .f13 => some ("25", .normal '~')
  | .f14 => some ("26", .normal '~')
  | .f15 => some ("28", .normal '~')
  | .f16 => some ("29", .normal '~')
  | .f17 => some ("31", .normal '~')
  | .f18 => some ("32", .normal '~')
  | .f19 => some ("33", .normal '~')
  | .f20 => some ("34", .normal '~')
  | _ => none

def tryBuildNamedNormal (b : SequenceBuilder) (key : KeyEvent) (hasAssociatedText : Bool) :
    Option SequenceBase :=
  match key.logicalKey with
  | .named named =>
      let oneBased :=
        if b.modifiers.isEmpty && !b.kittyEventType && !hasAssociatedText then "" else "1"
      (normalBase oneBased named).map fun base => ⟨base.1.toList, base.2⟩
  | _ => none

def controlCharBase : NamedKey → String
  | .tab => "9"
  | .enter => "13"
  | .escape => "27"
  | .space => "32"
  | .backspace => "127"
  | _ => ""

def controlCharOrModBase (location : KeyLocation) (named : NamedKey) : String :=
  match named, location with
  | .shift, .left => "57441"
  | .control, .left => "57442"
  | .alt, .left => "57443"
  | .super, .left => "57444"
  | .hyper, .left => "57445"
  | .metaKey, .left => "57446"
  | .shift, _ => "57447"
  | .control, _ => "57448"
  | .alt, _ => "57449"
  | .super, _ => "57450"
  | .hyper, _ => "57451"
  | .metaKey, _ => "57452"
  | .capsLock, _ => "57358"
  | .numLock, _ => "57360"
  | named, _ => controlCharBase named

/-- For modifiers itself apply the state based on keysyms and not the _actual_ modifiers state. -/
def setModifier (named : NamedKey) (press : Bool) (mods : SequenceModifiers) : SequenceModifiers :=
  match named with
  | .shift => { mods with shift := press }
  | .control => { mods with control := press }
  | .alt => { mods with alt := press }
  | .super => { mods with super := press }
  | _ => mods

/-- Try building escape from control characters (e.g. Enter) and modifiers. -/
def tryBuildControlCharOrMod (b : SequenceBuilder) (key : KeyEvent) (mods : SequenceModifiers) :
    Option SequenceBase × SequenceModifiers :=
  if !b.kittyEncodeAll && !b.kittySeq then (none, mods)
  else
    match key.logicalKey with
    | .named named =>
        if !b.kittyEncodeAll && controlCharBase named == "" then (none, mods)
        else
          let base := controlCharOrModBase key.location named
          (if base == "" then none else some ⟨base.toList, .kitty⟩,
            setModifier named (key.state == .pressed) mods)
    | _ => (none, mods)

def unicodeKeyCode (texts : KeyTexts) (shift : Bool) (key : KeyEvent) (ch : Char) : Nat :=
  let unshiftedCh := if shift then texts.toLowercase ch else ch
  if shift && ch.toNat == unshiftedCh.toNat then
    match key.keyWithoutModifiers with
    | .character unmodded => (unmodded.head?.getD unshiftedCh).toNat
    | _ => unshiftedCh.toNat
  else unshiftedCh.toNat

def tryBuildTextual (texts : KeyTexts) (b : SequenceBuilder) (key : KeyEvent)
    (associatedText : Option (List Char)) : Option SequenceBase :=
  match key.logicalKey with
  | .character character =>
      if !b.kittySeq then none
      else
        match character with
        | [ch] =>
            let alternateKeyCode := ch.toNat
            let unicodeKeyCode := unicodeKeyCode texts b.modifiers.shift key ch
            let payload :=
              if b.mode.keyboard.reportAlternateKeys && alternateKeyCode != unicodeKeyCode then
                decimal unicodeKeyCode ++ ':' :: decimal alternateKeyCode
              else decimal unicodeKeyCode
            some ⟨payload, .kitty⟩
        | _ =>
            if b.kittyEncodeAll && associatedText.isSome then some ⟨"0".toList, .kitty⟩ else none
  | _ => none

/-- The first of the attempts that succeeds, and the modifiers after it. -/
def sequenceBase (texts : KeyTexts) (b : SequenceBuilder) (key : KeyEvent)
    (associatedText : Option (List Char)) : Option SequenceBase × SequenceModifiers :=
  match b.tryBuildNumpad key with
  | some base => (some base, b.modifiers)
  | none =>
      match b.tryBuildNamedKitty key with
      | some base => (some base, b.modifiers)
      | none =>
          match b.tryBuildNamedNormal key associatedText.isSome with
          | some base => (some base, b.modifiers)
          | none =>
              match b.tryBuildControlCharOrMod key b.modifiers with
              | (some base, mods) => (some base, mods)
              | (none, mods) => (tryBuildTextual texts b key associatedText, mods)

end SequenceBuilder

def associatedText (key : KeyEvent) (mode : TermMode) : Option (List Char) :=
  key.textWithAllModifiers.filter fun text =>
    mode.keyboard.reportAssociatedText && key.state != .released && !text.isEmpty &&
      !isControlCharacter text

def sequenceBuilder (key : KeyEvent) (mods : ModifiersState) (mode : TermMode) : SequenceBuilder where
  mode := mode
  kittySeq := mode.keyboard.reportAllKeysAsEsc || mode.keyboard.disambiguateEscCodes ||
    mode.keyboard.reportEventTypes
  kittyEncodeAll := mode.keyboard.reportAllKeysAsEsc
  kittyEventType := mode.keyboard.reportEventTypes && (key.repeated || key.state == .released)
  modifiers := .ofState mods

/-- Build a key's keyboard escape sequence based on the given key, modifiers and mode. -/
def buildSequence (texts : KeyTexts) (key : KeyEvent) (mods : ModifiersState) (mode : TermMode) :
    List Char :=
  let context := sequenceBuilder key mods mode
  let associatedText := associatedText key mode
  match context.sequenceBase texts key associatedText with
  | (none, _) => []
  | (some base, modifiers) =>
      let payload := '\x1b' :: '[' :: base.payload
      let payload :=
        if context.kittyEventType || !modifiers.isEmpty || associatedText.isSome then
          payload ++ ';' :: decimal modifiers.encodeEscSequence
        else payload
      let payload :=
        if context.kittyEventType then
          payload ++ [':', if key.repeated then '2' else if key.state == .pressed then '1' else '3']
        else payload
      let payload :=
        match associatedText with
        | some (c :: cs) =>
            payload ++ ';' :: decimal c.toNat ++ cs.flatMap fun c => ':' :: decimal c.toNat
        | _ => payload
      payload ++ [base.terminator.encodeEscSequence]

/-! ### Key input -/

/-- Whether `Alt` is sent as an escape; `optionAsAlt` is true everywhere but for the option keys of
macOS that are not configured to do so. -/
def altSendEsc (texts : KeyTexts) (optionAsAlt : Bool) (key : KeyEvent) (mods : ModifiersState)
    (text : List Char) : Bool :=
  match key.logicalKey with
  | .named named =>
      if (texts.toText named).isSome then mods.alt && optionAsAlt else mods.alt
  | _ => mods.alt && optionAsAlt && text.length == 1

/-- Mask `Alt` modifier from input when we won't send esc. -/
def maskedMods (texts : KeyTexts) (optionAsAlt : Bool) (key : KeyEvent) (mods : ModifiersState) :
    ModifiersState :=
  if altSendEsc texts optionAsAlt key mods (key.textWithAllModifiers.getD []) then mods
  else { mods with alt := false }

end Velacritty
