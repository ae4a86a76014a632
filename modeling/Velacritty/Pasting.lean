import Velacritty.MouseReports

/-! Pasted text, and what a program reads of it. -/
namespace Velacritty

/-! ### Bytes up to a marker -/

def readUntil (marker : List UInt8) : List UInt8 → Option (List UInt8 × List UInt8)
  | [] => none
  | byte :: bytes =>
      if marker.isPrefixOf (byte :: bytes) then some ([], (byte :: bytes).drop marker.length)
      else (readUntil marker bytes).map fun (before, behind) => (byte :: before, behind)

theorem readUntil_append {first : UInt8} {bytes : List UInt8} (h : first ∉ bytes) (marker rest : List UInt8) :
    readUntil (first :: marker) (bytes ++ (first :: marker) ++ rest) = some (bytes, rest) := by
  induction bytes with
  | nil =>
      have hprefix : (first :: marker).isPrefixOf (first :: (marker ++ rest)) = true :=
        List.isPrefixOf_iff_prefix.mpr (List.prefix_append (first :: marker) rest)
      have hdrop : ((first :: marker) ++ rest).drop (first :: marker).length = rest := List.drop_left
      rw [List.nil_append, List.cons_append, readUntil, if_pos hprefix, ← List.cons_append, hdrop]
  | cons byte bytes ih =>
      have hne : first ≠ byte := fun heq => h (heq ▸ List.mem_cons_self)
      have hprefix : ¬ (first :: marker).isPrefixOf (byte :: (bytes ++ (first :: marker) ++ rest)) := by
        rw [List.isPrefixOf_iff_prefix, List.cons_prefix_cons]
        exact fun hprefix => hne hprefix.1
      rw [List.cons_append, List.cons_append, readUntil, if_neg hprefix,
        ih fun hmem => h (List.mem_cons_of_mem _ hmem)]
      rfl

/-- A byte below 128 is a character of its own, and never part of another one. -/
theorem toNat_of_mem_utf8EncodeChar {byte : UInt8} {c : Char} (hbyte : byte ∈ String.utf8EncodeChar c)
    (hascii : byte.toNat < 128) : c.toNat = byte.toNat := by
  have hlarge {n m : Nat} (hn : 128 ≤ n) (hnm : m + n < 256) (heq : byte = UInt8.ofNat (m + n)) :
      c.toNat = byte.toNat := by
    rw [heq, toNat_ofNat_small hnm] at hascii
    omega
  simp only [String.utf8EncodeChar] at hbyte
  split at hbyte
  · rename_i hsmall
    rw [List.mem_singleton.mp hbyte, toNat_ofNat_small (by omega)]
    rfl
  · split at hbyte
    · rcases List.mem_cons.mp hbyte with heq | hbyte
      · exact hlarge (by omega) (by omega) heq
      · exact hlarge (by omega) (by omega) (List.mem_singleton.mp hbyte)
    · split at hbyte
      · simp only [List.mem_cons, List.not_mem_nil, or_false] at hbyte
        rcases hbyte with heq | heq | heq <;> exact hlarge (by omega) (by omega) heq
      · simp only [List.mem_cons, List.not_mem_nil, or_false] at hbyte
        rcases hbyte with heq | heq | heq | heq <;> exact hlarge (by omega) (by omega) heq

theorem not_mem_intoBytes {byte : UInt8} (hascii : byte.toNat < 128) {text : List Char}
    (h : ∀ c ∈ text, c.toNat ≠ byte.toNat) : byte ∉ intoBytes text := by
  intro hmem
  obtain ⟨c, hc, hbyte⟩ := List.mem_flatMap.mp hmem
  exact h c hc (toNat_of_mem_utf8EncodeChar hbyte hascii)

/-! ### Pasting -/

inductive Pasted where
  | search (characters : List Char)
  | inlineSearch (text : List Char)
  | terminal (writes : List (List UInt8))
  deriving DecidableEq, Repr

/-- `str::replace` of the line breaks of Windows. -/
def replaceCrLf : List Char → List Char
  | '\r' :: '\n' :: rest => '\r' :: replaceCrLf rest
  | c :: rest => c :: replaceCrLf rest
  | [] => []

def paste (text : List Char) (bracketed searchActive charPending : Bool) (mode : TermMode) : Pasted :=
  if searchActive then .search text
  else if charPending then .inlineSearch text
  else if bracketed && mode.bracketedPaste then
    let filtered := text.filter fun c => c != '\x1b' && c != '\x03'
    .terminal [intoBytes "\x1b[200~".toList, intoBytes filtered, intoBytes "\x1b[201~".toList]
  else if bracketed then
    -- Programs cannot tell the text from keystrokes: line breaks are what the Enter key writes.
    .terminal [intoBytes ((replaceCrLf text).map fun c => if c = '\n' then '\r' else c)]
  else .terminal [intoBytes text]

/-- What a program reads of bytes that begin with a bracketed paste: the text, and what is behind it. -/
def readPaste (bytes : List UInt8) : Option (List UInt8 × List UInt8) :=
  if (intoBytes "\x1b[200~".toList).isPrefixOf bytes then
    readUntil (intoBytes "\x1b[201~".toList) (bytes.drop 6)
  else none

/-- Neither of the two characters that are dropped can be written by any other one. -/
theorem filtered_bytes (text : List Char) (byte : UInt8) (hbyte : byte = 0x1b ∨ byte = 0x03) :
    byte ∉ intoBytes (text.filter fun c => c != '\x1b' && c != '\x03') := by
  refine not_mem_intoBytes (by rcases hbyte with rfl | rfl <;> decide) fun c hc heq => ?_
  have hkept := (List.mem_filter.mp hc).2
  have hc : c = '\x1b' ∨ c = '\x03' := by
    rcases hbyte with rfl | rfl
    · exact .inl (Char.toNat_inj.mp heq)
    · exact .inr (Char.toNat_inj.mp heq)
  rcases hc with rfl | rfl <;> exact absurd hkept (by decide)

def enterBreaks (text : List Char) : List Char :=
  (replaceCrLf text).map fun c => if c = '\n' then '\r' else c

def Unbroken (line : List Char) : Prop := ∀ c ∈ line, c ≠ '\r' ∧ c ≠ '\n'

/-- The text has these lines: each but the last one ends in a line break. -/
inductive HasLines : List Char → List (List Char) → Prop
  | last {line : List Char} (hline : Unbroken line) : HasLines line [line]
  | crLf {line rest : List Char} {lines : List (List Char)} (hline : Unbroken line)
      (hrest : HasLines rest lines) : HasLines (line ++ '\r' :: '\n' :: rest) (line :: lines)
  | lf {line rest : List Char} {lines : List (List Char)} (hline : Unbroken line)
      (hrest : HasLines rest lines) : HasLines (line ++ '\n' :: rest) (line :: lines)
  | cr {line rest : List Char} {lines : List (List Char)} (hline : Unbroken line)
      (halone : rest.head? ≠ some '\n') (hrest : HasLines rest lines) :
      HasLines (line ++ '\r' :: rest) (line :: lines)

theorem HasLines.cons {c : Char} {text line : List Char} {lines : List (List Char)}
    (hc : c ≠ '\r' ∧ c ≠ '\n') (h : HasLines text (line :: lines)) :
    HasLines (c :: text) ((c :: line) :: lines) := by
  have hcons (hline : Unbroken line) : Unbroken (c :: line) := List.forall_mem_cons.mpr ⟨hc, hline⟩
  cases h with
  | last hline => exact .last (hcons hline)
  | crLf hline hrest => exact .crLf (hcons hline) hrest
  | lf hline hrest => exact .lf (hcons hline) hrest
  | cr hline halone hrest => exact .cr (hcons hline) halone hrest

theorem HasLines.exists_cons {text : List Char} {lines : List (List Char)} (h : HasLines text lines) :
    ∃ line rest, lines = line :: rest := by
  cases h <;> exact ⟨_, _, rfl⟩

theorem exists_hasLines (text : List Char) : ∃ lines, HasLines text lines := by
  have hnil : Unbroken [] := fun _ hc => nomatch hc
  induction text using replaceCrLf.induct with
  | case1 rest ih =>
      obtain ⟨lines, hrest⟩ := ih
      exact ⟨[] :: lines, .crLf hnil hrest⟩
  | case2 c rest hother ih =>
      obtain ⟨lines, hrest⟩ := ih
      by_cases hlf : c = '\n'
      · exact ⟨[] :: lines, hlf ▸ .lf hnil hrest⟩
      · by_cases hcr : c = '\r'
        · refine ⟨[] :: lines, hcr ▸ .cr hnil (fun hhead => ?_) hrest⟩
          obtain ⟨tail, rfl⟩ := List.head?_eq_some_iff.mp hhead
          exact hother tail hcr rfl
        · obtain ⟨line, more, rfl⟩ := hrest.exists_cons
          exact ⟨(c :: line) :: more, hrest.cons ⟨hcr, hlf⟩⟩
  | case3 => exact ⟨[[]], .last hnil⟩

theorem enterBreaks_line {line : List Char} (hline : Unbroken line) (rest : List Char) :
    enterBreaks (line ++ rest) = line ++ enterBreaks rest := by
  induction line with
  | nil => rfl
  | cons c line ih =>
      obtain ⟨⟨hcr, hlf⟩, hline⟩ := List.forall_mem_cons.mp hline
      have hreplace : replaceCrLf (c :: (line ++ rest)) = c :: replaceCrLf (line ++ rest) := by
        rw [replaceCrLf]
        exact fun _ hc _ => hcr hc
      rw [List.cons_append, enterBreaks, hreplace, List.map_cons, if_neg hlf, ← enterBreaks, ih hline,
        List.cons_append]

/-- The lines of a text are written with what Enter writes between them. -/
theorem HasLines.enterBreaks {text : List Char} {lines : List (List Char)} (h : HasLines text lines) :
    enterBreaks text = ['\r'].intercalate lines := by
  induction h with
  | @last line hline =>
      have hself := enterBreaks_line hline []
      rw [List.append_nil] at hself
      exact hself
  | @crLf line rest lines hline hrest ih =>
      obtain ⟨next, more, rfl⟩ := hrest.exists_cons
      rw [enterBreaks_line hline, List.intercalate_cons_cons, ← ih, List.append_assoc]
      rfl
  | @lf line rest lines hline hrest ih =>
      obtain ⟨next, more, rfl⟩ := hrest.exists_cons
      rw [enterBreaks_line hline, List.intercalate_cons_cons, ← ih, List.append_assoc]
      rfl
  | @cr line rest lines hline halone hrest ih =>
      obtain ⟨next, more, rfl⟩ := hrest.exists_cons
      have hreplace : replaceCrLf ('\r' :: rest) = '\r' :: replaceCrLf rest := by
        rw [replaceCrLf]
        rintro tail - rfl
        exact halone rfl
      rw [enterBreaks_line hline, List.intercalate_cons_cons, ← ih, List.append_assoc,
        Velacritty.enterBreaks, hreplace]
      rfl

/-- In bracketed mode a program reads the pasted text but for the escape character and ETX, whatever
is written next; nothing of the text is taken for the end of it. Otherwise the lines of the text, by
breaks of any style, are written with what Enter writes between them. -/
theorem paste_reads (text : List Char) (mode : TermMode) :
    (mode.bracketedPaste = true → ∃ writes, paste text true false false mode = .terminal writes ∧
      ∀ rest, readPaste (writes.flatten ++ rest) =
        some (intoBytes (text.filter fun c => c != '\x1b' && c != '\x03'), rest)) ∧
    (mode.bracketedPaste = false → (∃ lines, HasLines text lines) ∧ ∀ lines, HasLines text lines →
      paste text true false false mode = .terminal [intoBytes (['\r'].intercalate lines)]) := by
  constructor
  · intro hmode
    refine ⟨_, by rw [paste, if_neg Bool.false_ne_true, if_neg Bool.false_ne_true, hmode]; rfl, fun rest => ?_⟩
    have hread := readUntil_append (filtered_bytes text 0x1b (.inl rfl)) [0x5b, 0x32, 0x30, 0x31, 0x7e] rest
    have hstart : intoBytes "\x1b[200~".toList = [0x1b, 0x5b, 0x32, 0x30, 0x30, 0x7e] := by decide
    have hend : intoBytes "\x1b[201~".toList = [0x1b, 0x5b, 0x32, 0x30, 0x31, 0x7e] := by decide
    rw [readPaste, hstart, hend, List.flatten_cons, List.append_assoc,
      if_pos (List.isPrefixOf_iff_prefix.mpr (List.prefix_append _ _))]
    have hdrop (bytes : List UInt8) : ([0x1b, 0x5b, 0x32, 0x30, 0x30, 0x7e] ++ bytes).drop 6 = bytes := rfl
    rw [hdrop, List.flatten_cons, List.flatten_cons, List.flatten_nil, List.append_nil]
    exact hread
  · refine fun hmode => ⟨exists_hasLines text, fun lines h => ?_⟩
    rw [paste, if_neg Bool.false_ne_true, if_neg Bool.false_ne_true, hmode, ← h.enterBreaks]
    rfl

end Velacritty
