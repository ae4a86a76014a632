import Velacritty.ControlSequences
import Velacritty.KeySequences

/-! The reports of the mouse in their three formats, and what a program reads from them. -/
namespace Velacritty
open ControlSequences

def mousePosEncode (pos : Nat) : List UInt8 :=
  let pos := 32 + 1 + pos
  let first := 0xC0 + pos / 64
  let second := 0x80 + pos % 64
  [UInt8.ofNat first, UInt8.ofNat second]

/-- The first line and column that the format has no room for. -/
def maxPoint (utf8 : Bool) : Nat := if utf8 then 2015 else 223

def normalMouseReport (mode : TermMode) (point : Point) (button : UInt8) : List UInt8 :=
  if (maxPoint mode.utf8Mouse : Int) ≤ point.line ∨ maxPoint mode.utf8Mouse ≤ point.column then []
  else
    [0x1b, 0x5b, 0x4d, 32 + button] ++
      (if mode.utf8Mouse ∧ 95 ≤ point.column then mousePosEncode point.column
      else [32 + 1 + UInt8.ofNat point.column]) ++
      if mode.utf8Mouse ∧ 95 ≤ point.line then mousePosEncode point.line.toNat
      else [32 + 1 + UInt8.ofInt point.line]

def intoBytes (text : List Char) : List UInt8 := text.flatMap String.utf8EncodeChar

def sgrMouseText (point : Point) (button : UInt8) (state : ElementState) : List Char :=
  "\x1b[<".toList ++ decimal button.toNat ++ ';' :: decimal (point.column + 1) ++
    ';' :: (toString (point.line + 1)).toList ++ [if state = .pressed then 'M' else 'm']

def mouseMods (modifiers : ModifiersState) : UInt8 :=
  (if modifiers.shift then 4 else 0) + (if modifiers.alt then 8 else 0) +
    if modifiers.control then 16 else 0

/-- What is written for a mouse event at a place of the window. -/
def mouseReport (mode : TermMode) (modifiers : ModifiersState) (point : Point) (button : UInt8)
    (state : ElementState) : List UInt8 :=
  if point.line < 0 then []
  else if mode.sgrMouse then
    intoBytes (sgrMouseText point (button + mouseMods modifiers) state)
  else if state = .released then normalMouseReport mode point (3 + mouseMods modifiers)
  else normalMouseReport mode point (button + mouseMods modifiers)

/-- The codes that are reported: the three buttons, the motions with each of them and with none, and
the wheel in four directions. -/
def mouseCodes : List UInt8 := [0, 1, 2, 32, 33, 34, 35, 64, 65, 66, 67]

/-! ### Reading -/

/-- What a code says: the button or the motion, and the modifiers. -/
structure MouseCode where
  button : Nat
  shift : Bool
  alt : Bool
  control : Bool
  deriving DecidableEq, Repr

def readMouseCode (code : Nat) : MouseCode :=
  ⟨code % 4 + code / 32 * 32, code.testBit 2, code.testBit 3, code.testBit 4⟩

/-- One coordinate: a byte, or in the UTF-8 format a character of one or two bytes. -/
def readPosition (utf8 : Bool) : List UInt8 → Option (Nat × List UInt8)
  | [] => none
  | first :: rest =>
      if utf8 ∧ 0x80 ≤ first.toNat then
        match rest with
        | second :: rest => some ((first.toNat - 0xC0) * 64 + (second.toNat - 0x80) - 33, rest)
        | [] => none
      else some (first.toNat - 33, rest)

def readNormal (utf8 : Bool) : List UInt8 → Option ((MouseCode × Nat × Nat) × List UInt8)
  | 0x1b :: 0x5b :: 0x4d :: code :: text => do
      let (column, text) ← readPosition utf8 text
      let (line, text) ← readPosition utf8 text
      some ((readMouseCode (code.toNat - 32), column, line), text)
  | _ => none

/-! ### Codes -/

theorem readMouseCode_modifiers : ∀ button ∈ 3 :: mouseCodes, ∀ shift control alt : Bool,
    (button + mouseMods ⟨shift, control, alt, false⟩).toNat + 32 < 128 ∧
      readMouseCode (button + mouseMods ⟨shift, control, alt, false⟩).toNat =
        ⟨button.toNat, shift, alt, control⟩ := by
  decide +kernel

/-- The modifiers use bits that no code uses. -/
theorem readMouseCode_add {button : UInt8} (hbutton : button ∈ 3 :: mouseCodes)
    (modifiers : ModifiersState) :
    (button + mouseMods modifiers).toNat + 32 < 128 ∧
      readMouseCode (button + mouseMods modifiers).toNat =
        ⟨button.toNat, modifiers.shift, modifiers.alt, modifiers.control⟩ :=
  readMouseCode_modifiers button hbutton modifiers.shift modifiers.control modifiers.alt

/-! ### Positions -/

/-- One coordinate of the normal and of the UTF-8 format. -/
def positionBytes (utf8 : Bool) (n : Nat) : List UInt8 :=
  if utf8 ∧ 95 ≤ n then mousePosEncode n else [32 + 1 + UInt8.ofNat n]

theorem toNat_ofNat_small {n : Nat} (h : n < 256) : (UInt8.ofNat n).toNat = n := by
  simp; omega

theorem toNat_add_position {n : Nat} (h : n < 223) :
    ((32 + 1 + UInt8.ofNat n : UInt8)).toNat = 33 + n := by
  simp [UInt8.toNat_add]; omega

theorem readPosition_positionBytes {utf8 : Bool} {n : Nat} (h : n < maxPoint utf8)
    (rest : List UInt8) : readPosition utf8 (positionBytes utf8 n ++ rest) = some (n, rest) := by
  unfold positionBytes
  split
  · rename_i hlarge
    obtain ⟨hutf, hn⟩ := hlarge
    rw [maxPoint, if_pos hutf] at h
    have hfirst := toNat_ofNat_small (n := 0xC0 + (32 + 1 + n) / 64) (by omega)
    have hsecond := toNat_ofNat_small (n := 0x80 + (32 + 1 + n) % 64) (by omega)
    simp only [mousePosEncode, List.cons_append, List.nil_append, readPosition, hfirst, hsecond]
    rw [if_pos ⟨hutf, by omega⟩]
    simp only [Option.some.injEq, Prod.mk.injEq, and_true]
    omega
  · rename_i hsmall
    have hn : n < 223 := by
      by_cases hutf : utf8 = true
      · have hnot : ¬ 95 ≤ n := fun h => hsmall ⟨hutf, h⟩
        omega
      · rwa [maxPoint, if_neg hutf] at h
    have hfirst := toNat_add_position hn
    simp only [List.cons_append, List.nil_append, readPosition, hfirst]
    rw [if_neg]
    · simp
    · rintro ⟨hutf, hbig⟩
      exact hsmall ⟨hutf, by omega⟩

theorem toNat_charOfNat {n : Nat} (h : n < 2048) : (Char.ofNat n).val.toNat = n := by
  have hvalid : n.isValidChar := .inl (by omega)
  have heq : Char.ofNat n = Char.ofNatAux n hvalid := dif_pos hvalid
  rw [heq]
  rfl

theorem positionBytes_utf8 {n : Nat} (h : n < 2015) :
    positionBytes true n = String.utf8EncodeChar (Char.ofNat (33 + n)) := by
  unfold positionBytes
  rw [String.utf8EncodeChar, toNat_charOfNat (by omega)]
  split
  · rename_i hlarge
    simp only [true_and] at hlarge
    rw [if_neg (by omega), if_pos (by omega), mousePosEncode, Nat.mod_eq_of_lt (b := 0x20) (by omega)]
    rw [Nat.add_comm 0xC0, Nat.add_comm 0x80]
  · rename_i hsmall
    simp only [true_and] at hsmall
    rw [if_pos (by omega)]
    congr 1
    apply UInt8.toNat_inj.mp
    rw [toNat_add_position (by omega), toNat_ofNat_small (by omega)]

/-! ### Reports -/

theorem ofInt_of_nonneg {line : Int} (h : 0 ≤ line) : UInt8.ofInt line = UInt8.ofNat line.toNat := by
  obtain ⟨n, rfl⟩ := Int.eq_ofNat_of_zero_le h
  apply UInt8.toNat_inj.mp
  simp [UInt8.ofInt]
  omega

/-- Inside of the range of the format, a report is the code and the two coordinates. -/
theorem normalMouseReport_eq {mode : TermMode} {point : Point} (button : UInt8) (hline : 0 ≤ point.line)
    (hline' : point.line.toNat < maxPoint mode.utf8Mouse) (hcolumn : point.column < maxPoint mode.utf8Mouse) :
    normalMouseReport mode point button = 0x1b :: 0x5b :: 0x4d :: (32 + button) ::
      (positionBytes mode.utf8Mouse point.column ++ positionBytes mode.utf8Mouse point.line.toNat) := by
  have hlarge : (95 ≤ point.line) = (95 ≤ point.line.toNat) := propext (by omega)
  rw [normalMouseReport, if_neg (by omega), ofInt_of_nonneg hline]
  simp only [hlarge]
  rfl

theorem readNormal_report {mode : TermMode} {point : Point} {button : UInt8} (hline : 0 ≤ point.line)
    (hline' : point.line.toNat < maxPoint mode.utf8Mouse) (hcolumn : point.column < maxPoint mode.utf8Mouse)
    (hbutton : button.toNat + 32 < 128) (rest : List UInt8) :
    readNormal mode.utf8Mouse (normalMouseReport mode point button ++ rest) =
      some ((readMouseCode button.toNat, point.column, point.line.toNat), rest) := by
  have hcode : (32 + button).toNat - 32 = button.toNat := by
    rw [UInt8.toNat_add]
    have : (32 : UInt8).toNat = 32 := rfl
    omega
  rw [normalMouseReport_eq button hline hline' hcolumn]
  simp only [List.cons_append, List.append_assoc, readNormal, readPosition_positionBytes hcolumn,
    readPosition_positionBytes hline', Option.bind_eq_bind, Option.bind_some, hcode]

/-- In the UTF-8 format the whole report is a text of six characters. -/
theorem normalMouseReport_utf8 {mode : TermMode} {point : Point} {button : UInt8}
    (hutf : mode.utf8Mouse = true) (hline : 0 ≤ point.line)
    (hline' : point.line.toNat < maxPoint mode.utf8Mouse) (hcolumn : point.column < maxPoint mode.utf8Mouse)
    (hbutton : button.toNat + 32 < 128) :
    normalMouseReport mode point button = intoBytes ("\x1b[M".toList ++ [Char.ofNat (32 + button.toNat),
      Char.ofNat (33 + point.column), Char.ofNat (33 + point.line.toNat)]) := by
  have hcode : String.utf8EncodeChar (Char.ofNat (32 + button.toNat)) = [32 + button] := by
    rw [String.utf8EncodeChar, toNat_charOfNat (by omega), if_pos (by omega)]
    congr 1
  rw [normalMouseReport_eq button hline hline' hcolumn]
  rw [hutf] at hline' hcolumn ⊢
  rw [maxPoint, if_pos rfl] at hline' hcolumn
  simp only [intoBytes, List.flatMap_append, List.flatMap_cons, List.flatMap_nil, hcode,
    ← positionBytes_utf8 hcolumn, ← positionBytes_utf8 hline', List.append_nil]
  rfl

def sgrSequence (point : Point) (code : Nat) (state : ElementState) : Sequence :=
  ⟨['<'], [[some code], [some (point.column + 1)], [some (point.line.toNat + 1)]],
    if state = .pressed then 'M' else 'm'⟩

theorem sgrMouseText_eq {point : Point} (button : UInt8) (state : ElementState) (hline : 0 ≤ point.line) :
    sgrMouseText point button state = (sgrSequence point button.toNat state).render := by
  obtain ⟨line, column⟩ := point
  obtain ⟨n, rfl⟩ := Int.eq_ofNat_of_zero_le hline
  have htext : (toString ((n : Int) + 1)).toList = Nat.toDigits 10 (n + 1) := Nat.toList_repr
  simp only [sgrMouseText, htext, decimal, Nat.toString_eq_repr, Nat.toList_repr]
  simp [sgrSequence, Sequence.render, renderParams, renderParam, renderNumber]

theorem sgrSequence_wf (point : Point) (code : Nat) (state : ElementState) :
    (sgrSequence point code state).WF where
  marker := fun c hc => by
    rw [List.mem_singleton.mp hc]
    rfl
  params := List.cons_ne_nil _ _
  subs := fun p hp => by
    simp only [sgrSequence, List.mem_cons, List.not_mem_nil, or_false] at hp
    rcases hp with rfl | rfl | rfl <;> exact List.cons_ne_nil _ _
  final := by
    unfold sgrSequence
    cases state <;> rfl

/-- The code of a report: in the formats other than SGR, a release does not tell its button. -/
def reportedCode (mode : TermMode) (button : UInt8) (modifiers : ModifiersState) (state : ElementState) :
    UInt8 :=
  if !mode.sgrMouse && state == .released then 3 + mouseMods modifiers
  else button + mouseMods modifiers

theorem reportedCode_reads (mode : TermMode) {button : UInt8} (hbutton : button ∈ mouseCodes)
    (modifiers : ModifiersState) (state : ElementState) :
    (reportedCode mode button modifiers state).toNat + 32 < 128 ∧
      readMouseCode (reportedCode mode button modifiers state).toNat =
        ⟨if !mode.sgrMouse && state == .released then 3 else button.toNat,
          modifiers.shift, modifiers.alt, modifiers.control⟩ := by
  unfold reportedCode
  split
  · exact readMouseCode_add List.mem_cons_self modifiers
  · exact readMouseCode_add (List.mem_cons_of_mem _ hbutton) modifiers

theorem mouseReport_scrollback (mode : TermMode) (modifiers : ModifiersState) {point : Point} (button : UInt8)
    (state : ElementState) (hline : point.line < 0) : mouseReport mode modifiers point button state = [] := by
  rw [mouseReport, if_pos hline]

theorem mouseReport_sgr {mode : TermMode} (modifiers : ModifiersState) {point : Point} (button : UInt8)
    (state : ElementState) (hline : ¬ point.line < 0) (hsgr : mode.sgrMouse = true) :
    mouseReport mode modifiers point button state =
      intoBytes (sgrMouseText point (reportedCode mode button modifiers state) state) := by
  simp [mouseReport, hline, hsgr, reportedCode]

theorem mouseReport_normal {mode : TermMode} (modifiers : ModifiersState) {point : Point} (button : UInt8)
    (state : ElementState) (hline : ¬ point.line < 0) (hsgr : mode.sgrMouse = false) :
    mouseReport mode modifiers point button state =
      normalMouseReport mode point (reportedCode mode button modifiers state) := by
  cases state <;> simp [mouseReport, hline, hsgr, reportedCode]

/-- For every event of the mouse that is reported, in every format: the code tells the button and the
modifiers; outside of the scrollback the report is there exactly if the format has room for the
cell, and it is read as that cell, whatever follows it. The UTF-8 format writes characters, and the
SGR format also tells presses from releases. -/
theorem mouseReport_reads (mode : TermMode) (modifiers : ModifiersState) (point : Point) {button : UInt8}
    (state : ElementState) (hbutton : button ∈ mouseCodes) :
    let code := (reportedCode mode button modifiers state).toNat
    let out := mouseReport mode modifiers point button state
    readMouseCode code = ⟨if !mode.sgrMouse && state == .released then 3 else button.toNat,
        modifiers.shift, modifiers.alt, modifiers.control⟩ ∧
      (out = [] ↔ point.line < 0 ∨ mode.sgrMouse = false ∧
        (maxPoint mode.utf8Mouse ≤ point.line ∨ maxPoint mode.utf8Mouse ≤ point.column)) ∧
      (out ≠ [] → mode.sgrMouse = true → ∃ text, out = intoBytes text ∧
        ∀ rest, parse (text ++ rest) = some (sgrSequence point code state, rest)) ∧
      (out ≠ [] → mode.sgrMouse = false →
        (∀ rest, readNormal mode.utf8Mouse (out ++ rest) =
          some ((readMouseCode code, point.column, point.line.toNat), rest)) ∧
        (mode.utf8Mouse = true → out = intoBytes ("\x1b[M".toList ++ [Char.ofNat (32 + code),
          Char.ofNat (33 + point.column), Char.ofNat (33 + point.line.toNat)]))) := by
  obtain ⟨hsmall, hcode⟩ := reportedCode_reads mode hbutton modifiers state
  refine ⟨hcode, ?_⟩
  by_cases hline : point.line < 0
  · rw [mouseReport_scrollback mode modifiers button state hline]
    exact ⟨iff_of_true rfl (.inl hline), fun h => absurd rfl h, fun h => absurd rfl h⟩
  · cases hsgr : mode.sgrMouse with
    | true =>
        rw [mouseReport_sgr modifiers button state hline hsgr]
        refine ⟨iff_of_false ?_ (by simp [hline]), fun _ _ => ⟨_, rfl, fun rest => ?_⟩, ?_⟩
        · simp [intoBytes, sgrMouseText, String.utf8EncodeChar]
        · rw [sgrMouseText_eq _ _ (by omega)]
          exact parse_render (sgrSequence_wf _ _ _) rest
        · intro _ h
          cases h
    | false =>
        rw [mouseReport_normal modifiers button state hline hsgr]
        by_cases hroom : (maxPoint mode.utf8Mouse : Int) ≤ point.line ∨
            maxPoint mode.utf8Mouse ≤ point.column
        · have hnone : normalMouseReport mode point (reportedCode mode button modifiers state) = [] := by
            rw [normalMouseReport, if_pos hroom]
          rw [hnone]
          exact ⟨iff_of_true rfl (.inr ⟨rfl, hroom⟩), fun h => absurd rfl h, fun h => absurd rfl h⟩
        · have hline' : point.line.toNat < maxPoint mode.utf8Mouse := by omega
          have hcolumn : point.column < maxPoint mode.utf8Mouse := by omega
          have hnonneg : 0 ≤ point.line := by omega
          refine ⟨iff_of_false ?_ (by simp [hline, hroom]), fun _ h => (nomatch h), fun _ _ =>
            ⟨fun rest => readNormal_report hnonneg hline' hcolumn hsmall rest,
              fun hutf => normalMouseReport_utf8 hutf hnonneg hline' hcolumn hsmall⟩⟩
          rw [normalMouseReport_eq _ hnonneg hline' hcolumn]
          exact List.cons_ne_nil _ _

/-- A drag with Control held, in a column that takes two bytes. -/
theorem mouseReport_reads_drag :
    let mode : TermMode := { utf8Mouse := true }
    let modifiers : ModifiersState := { ModifiersState.empty with control := true }
    let code := (reportedCode mode 32 modifiers .pressed).toNat
    let out := mouseReport mode modifiers ⟨5, 100⟩ 32 .pressed
    readMouseCode code = ⟨if !mode.sgrMouse && ElementState.pressed == .released then 3 else UInt8.toNat 32,
        modifiers.shift, modifiers.alt, modifiers.control⟩ ∧
      (out = [] ↔ (5 : Int) < 0 ∨ mode.sgrMouse = false ∧
        ((maxPoint mode.utf8Mouse : Int) ≤ 5 ∨ maxPoint mode.utf8Mouse ≤ 100)) ∧
      (out ≠ [] → mode.sgrMouse = true → ∃ text, out = intoBytes text ∧
        ∀ rest, parse (text ++ rest) = some (sgrSequence ⟨5, 100⟩ code .pressed, rest)) ∧
      (out ≠ [] → mode.sgrMouse = false →
        (∀ rest, readNormal mode.utf8Mouse (out ++ rest) = some ((readMouseCode code, 100, 5), rest)) ∧
        (mode.utf8Mouse = true → out = intoBytes ("\x1b[M".toList ++ [Char.ofNat (32 + code),
          Char.ofNat (33 + 100), Char.ofNat (33 + 5)]))) :=
  mouseReport_reads _ _ ⟨5, 100⟩ .pressed (by decide)

end Velacritty
