import Velacritty.UiConfig

/-! The command line of a Windows process, and how the program splits it into its arguments
again. Texts are lists of characters. -/
namespace Velacritty

structure WindowsPtyOptions extends PtyOptions where
  escapeArgs : Bool
  deriving DecidableEq, Repr

/-- Add a character: the backslashes before a quote are doubled, and the quote gets one. -/
def escapeStep : List Char × Nat → Char → List Char × Nat
  | (cmd, backslashes), x =>
      if x = '\\' then (cmd ++ [x], backslashes + 1)
      else
        let cmd := if x = '"' then cmd ++ List.replicate (backslashes + 1) '\\' else cmd
        (cmd ++ [x], 0)

theorem escapeStep_backslash (cmd : List Char) (n : Nat) :
    escapeStep (cmd, n) '\\' = (cmd ++ ['\\'], n + 1) := rfl

theorem escapeStep_quote (cmd : List Char) (n : Nat) :
    escapeStep (cmd, n) '"' = (cmd ++ List.replicate (n + 1) '\\' ++ ['"'], 0) := rfl

theorem escapeStep_other {x : Char} (hslash : x ≠ '\\') (hquote : x ≠ '"') (cmd : List Char) (n : Nat) :
    escapeStep (cmd, n) x = (cmd ++ [x], 0) := by
  simp only [escapeStep, if_neg hslash, if_neg hquote]

/-- The argument is put between quotes. -/
def needsQuote (arg : List Char) : Bool := arg.any (fun c => c = ' ' || c = '\t') || arg.isEmpty

def pushEscapedArg (cmd arg : List Char) : List Char :=
  let quote := needsQuote arg
  let cmd := if quote then cmd ++ ['"'] else cmd
  let (cmd, backslashes) := arg.foldl escapeStep (cmd, 0)
  if quote then cmd ++ List.replicate backslashes '\\' ++ ['"'] else cmd

namespace WindowsPtyOptions

def shellOrDefault (config : WindowsPtyOptions) : Shell := config.shell.getD ⟨"powershell", []⟩

def cmdline (config : WindowsPtyOptions) : List Char :=
  config.shellOrDefault.args.foldl (fun cmd arg =>
    let cmd := cmd ++ [' ']
    if config.escapeArgs then pushEscapedArg cmd arg.toList else cmd ++ arg.toList)
    config.shellOrDefault.program.toList

end WindowsPtyOptions

/-! ### The rules of the C runtime -/

/-- A reader of a command line: the arguments that are complete, the one that has begun,
whether it is inside of quotes, and the backslashes it has read last. -/
structure ArgReader where
  args : List (List Char)
  arg : Option (List Char)
  quoted : Bool
  backslashes : Nat
  deriving DecidableEq, Repr

namespace ArgReader

def start : ArgReader := ⟨[], none, false, 0⟩

def push (r : ArgReader) (cs : List Char) : ArgReader :=
  { r with arg := some (r.arg.getD [] ++ cs), backslashes := 0 }

/-- Backslashes that no quote follows are literal. -/
def flush (r : ArgReader) : ArgReader :=
  if r.backslashes = 0 then r else r.push (List.replicate r.backslashes '\\')

/-- The argument is complete, if one has begun. -/
def close (r : ArgReader) : ArgReader := { r with args := r.args ++ r.arg.toList, arg := none }

/-- Read a character: of the backslashes before a quote each two stand for one, and if one is
left then the quote is literal. -/
def step (r : ArgReader) (c : Char) : ArgReader :=
  if c = '\\' then { r with backslashes := r.backslashes + 1 }
  else if c = '"' then
    let half := List.replicate (r.backslashes / 2) '\\'
    if r.backslashes % 2 = 0 then { r.push half with quoted := !r.quoted } else r.push (half ++ ['"'])
  else if (c = ' ' ∨ c = '\t') ∧ r.quoted = false then r.flush.close
  else r.flush.push [c]

end ArgReader

/-- The arguments of a command line. -/
def splitArgs (text : List Char) : List (List Char) :=
  (text.foldl ArgReader.step .start).flush.close.args

/-! ### Reading what was escaped -/

namespace ArgReader
variable {r : ArgReader} {cmd arg cs : List Char}

/-- The argument so far, with the backslashes that were read last. -/
def text (r : ArgReader) : List Char := r.arg.getD [] ++ List.replicate r.backslashes '\\'

theorem flush_push (r : ArgReader) (cs : List Char) :
    r.flush.push cs = { r with arg := some (r.text ++ cs), backslashes := 0 } := by
  unfold flush
  split
  · next hzero =>
      simp only [push, text, hzero, List.replicate_zero, List.append_nil]
  · simp only [push, text, Option.getD_some]

theorem foldl_backslashes (r : ArgReader) (n : Nat) :
    (List.replicate n '\\').foldl step r = { r with backslashes := r.backslashes + n } := by
  induction n generalizing r with
  | zero => rfl
  | succ n ih =>
      have hstep : r.step '\\' = { r with backslashes := r.backslashes + 1 } := if_pos rfl
      rw [List.replicate_succ, List.foldl_cons, hstep, ih]
      simp only [Nat.add_assoc, Nat.add_comm 1]

theorem step_escapedQuote (r : ArgReader) :
    (List.replicate (r.backslashes + 1) '\\' ++ ['"']).foldl step r =
      { r with arg := some (r.text ++ ['"']), backslashes := 0 } := by
  have hodd : (r.backslashes + (r.backslashes + 1)) % 2 = 1 := by omega
  have hhalf : (r.backslashes + (r.backslashes + 1)) / 2 = r.backslashes := by omega
  rw [List.foldl_append, foldl_backslashes, List.foldl_cons, List.foldl_nil, step, if_neg (by decide),
    if_pos rfl]
  simp only [hodd, hhalf, Nat.one_ne_zero, if_false, push, text, List.append_assoc]

theorem step_endQuote (r : ArgReader) :
    (List.replicate r.backslashes '\\' ++ ['"']).foldl step r =
      { r with arg := some r.text, quoted := !r.quoted, backslashes := 0 } := by
  have heven : (r.backslashes + r.backslashes) % 2 = 0 := by omega
  have hhalf : (r.backslashes + r.backslashes) / 2 = r.backslashes := by omega
  rw [List.foldl_append, foldl_backslashes, List.foldl_cons, List.foldl_nil, step, if_neg (by decide),
    if_pos rfl]
  simp only [heven, hhalf, if_true, push, text]

/-- The text behind the program leads the reader here. -/
def Reads (program cmd : List Char) (r : ArgReader) : Prop :=
  ∃ text, cmd = program ++ text ∧ text.foldl step .start = r

theorem Reads.append {program : List Char} (h : Reads program cmd r) (cs : List Char) :
    Reads program (cmd ++ cs) (cs.foldl step r) := by
  obtain ⟨text, rfl, rfl⟩ := h
  exact ⟨text ++ cs, List.append_assoc _ _ _, List.foldl_append⟩

/-- The reader has gone on with its argument. -/
structure GoesOn (r r' : ArgReader) (cs : List Char) : Prop where
  args : r'.args = r.args
  quoted : r'.quoted = r.quoted
  text : r'.text = r.text ++ cs

theorem escapeStep_reads {program : List Char} (h : Reads program cmd r) {x : Char}
    (hx : x = ' ' ∨ x = '\t' → r.quoted = true) :
    ∃ r', Reads program (escapeStep (cmd, r.backslashes) x).1 r' ∧
      r'.backslashes = (escapeStep (cmd, r.backslashes) x).2 ∧ GoesOn r r' [x] := by
  by_cases hslash : x = '\\'
  · subst hslash
    rw [escapeStep_backslash]
    refine ⟨_, h.append ['\\'], rfl, rfl, rfl, ?_⟩
    rw [List.foldl_cons, List.foldl_nil, step, if_pos rfl]
    simp only [text, List.replicate_succ', List.append_assoc]
  · by_cases hquote : x = '"'
    · subst hquote
      rw [escapeStep_quote]
      have hread := h.append (List.replicate (r.backslashes + 1) '\\' ++ ['"'])
      rw [step_escapedQuote, ← List.append_assoc] at hread
      exact ⟨_, hread, rfl, rfl, rfl, List.append_nil _⟩
    · rw [escapeStep_other hslash hquote]
      have hread := h.append [x]
      have hstep : r.step x = { r with arg := some (r.text ++ [x]), backslashes := 0 } := by
        have hinside : ¬ ((x = ' ' ∨ x = '\t') ∧ r.quoted = false) := by
          rintro ⟨hspace, hout⟩
          exact absurd ((hx hspace).symm.trans hout) (Bool.noConfusion ·)
        rw [step, if_neg hslash, if_neg hquote, if_neg hinside, flush_push]
      rw [List.foldl_cons, List.foldl_nil, hstep] at hread
      exact ⟨_, hread, rfl, rfl, rfl, List.append_nil _⟩

theorem escape_reads {program : List Char} (arg : List Char) (h : Reads program cmd r)
    (harg : ∀ x ∈ arg, x = ' ' ∨ x = '\t' → r.quoted = true) :
    ∃ r', Reads program (arg.foldl escapeStep (cmd, r.backslashes)).1 r' ∧
      r'.backslashes = (arg.foldl escapeStep (cmd, r.backslashes)).2 ∧ GoesOn r r' arg := by
  induction arg generalizing cmd r with
  | nil => exact ⟨r, h, rfl, rfl, rfl, (List.append_nil _).symm⟩
  | cons x arg ih =>
      obtain ⟨hx, harg⟩ := List.forall_mem_cons.mp harg
      obtain ⟨r', hread, hcount, hon⟩ := escapeStep_reads h hx
      obtain ⟨r'', hread', hcount', hon'⟩ := ih hread fun y hy hspace => hon.quoted.trans (harg y hy hspace)
      rw [hcount] at hread' hcount'
      refine ⟨r'', hread', hcount', hon'.args.trans hon.args, hon'.quoted.trans hon.quoted, ?_⟩
      rw [hon'.text, hon.text, List.append_assoc]
      rfl

/-- Between two arguments, or at the end of one. -/
structure Ends (r : ArgReader) (args : List (List Char)) : Prop where
  outside : r.quoted = false
  close : r.flush.close = ⟨args, none, false, 0⟩

theorem ends_of_text {args : List (List Char)} (hout : r.quoted = false) (hargs : r.args = args)
    (hsome : r.arg = none → r.text ≠ []) : Ends r (args ++ [r.text]) := by
  refine ⟨hout, ?_⟩
  obtain ⟨_, arg, _, backslashes⟩ := r
  obtain rfl := hout
  obtain rfl := hargs
  unfold flush
  split
  · next hzero =>
      obtain rfl : backslashes = 0 := hzero
      cases arg with
      | none => exact absurd rfl (hsome rfl)
      | some arg => simp only [close, text, Option.toList, Option.getD_some, List.replicate_zero, List.append_nil]
  · rfl

theorem pushEscapedArg_reads {program : List Char} {args : List (List Char)}
    (h : Reads program cmd ⟨args, none, false, 0⟩) (arg : List Char) :
    ∃ r, Reads program (pushEscapedArg cmd arg) r ∧ Ends r (args ++ [arg]) := by
  unfold pushEscapedArg
  cases hquote : needsQuote arg with
  | true =>
      have hquoted : ['"'].foldl step ⟨args, none, false, 0⟩ = ⟨args, some [], true, 0⟩ :=
        step_endQuote ⟨args, none, false, 0⟩
      have hbegin := h.append ['"']
      rw [hquoted] at hbegin
      obtain ⟨r, hread, hcount, hon⟩ := escape_reads arg hbegin fun _ _ _ => rfl
      have htext : r.text = arg := hon.text
      have hend := hread.append (List.replicate r.backslashes '\\' ++ ['"'])
      rw [step_endQuote, ← List.append_assoc] at hend
      simp only [if_true]
      rw [← hcount]
      refine ⟨_, hend, ?_⟩
      have hends := ends_of_text (r := { r with arg := some r.text, quoted := !r.quoted, backslashes := 0 })
        (by simp only [hon.quoted, Bool.not_true]) hon.args fun hnone => by cases hnone
      rwa [show ArgReader.text { r with arg := some r.text, quoted := !r.quoted, backslashes := 0 } = arg from
        (List.append_nil _).trans htext] at hends
  | false =>
      rw [needsQuote, Bool.or_eq_false_iff, List.any_eq_false, List.isEmpty_eq_false_iff] at hquote
      obtain ⟨hspace, hne⟩ := hquote
      obtain ⟨r, hread, -, hon⟩ := escape_reads arg h fun x hx hor =>
        absurd (by simpa using hor) (hspace x hx)
      have htext : r.text = arg := hon.text
      have hends := ends_of_text hon.quoted hon.args fun _ hnil => hne (htext.symm.trans hnil)
      rw [htext] at hends
      exact ⟨r, hread, hends⟩

end ArgReader

namespace WindowsPtyOptions
open ArgReader

theorem foldl_reads {program cmd : List Char} {r : ArgReader} (done : List (List Char)) (args : List String)
    (h : Reads program cmd r) (hr : r.Ends done) :
    ∃ r', Reads program (args.foldl (fun cmd arg => pushEscapedArg (cmd ++ [' ']) arg.toList) cmd) r' ∧
      r'.Ends (done ++ args.map String.toList) := by
  induction args generalizing cmd r done with
  | nil =>
      rw [List.map_nil, List.append_nil]
      exact ⟨r, h, hr⟩
  | cons arg args ih =>
      have hspace := h.append [' ']
      have hstep : r.step ' ' = ⟨done, none, false, 0⟩ := by
        rw [step, if_neg (by decide), if_neg (by decide), if_pos ⟨.inl rfl, hr.outside⟩, hr.close]
      rw [List.foldl_cons, List.foldl_nil, hstep] at hspace
      obtain ⟨r', hread, hends⟩ := pushEscapedArg_reads hspace arg.toList
      obtain ⟨r'', hread', hends'⟩ := ih _ hread hends
      rw [List.append_assoc] at hends'
      exact ⟨r'', hread', hends'⟩

/-- What the command line has behind the program is split into the arguments of the shell. -/
theorem cmdline_splitArgs (config : WindowsPtyOptions) (h : config.escapeArgs = true) :
    ∃ text, config.cmdline = config.shellOrDefault.program.toList ++ text ∧
      splitArgs text = config.shellOrDefault.args.map String.toList := by
  have hstart : Reads config.shellOrDefault.program.toList config.shellOrDefault.program.toList .start :=
    ⟨[], (List.append_nil _).symm, rfl⟩
  obtain ⟨r, ⟨text, hcmd, hread⟩, hends⟩ := foldl_reads [] config.shellOrDefault.args hstart
    ⟨rfl, rfl⟩
  refine ⟨text, ?_, ?_⟩
  · rw [← hcmd, cmdline]
    simp only [h, if_true]
  · rw [splitArgs, hread, hends.close, List.nil_append]

/-- An argument with a space, a quote and backslashes at its end. -/
theorem cmdline_splitArgs_path :
    let config : WindowsPtyOptions :=
      { shell := some ⟨"sh", ["-c", "C:\\Program \"Files\\"]⟩, workingDirectory := none, drainOnExit := false,
        env := [], escapeArgs := true }
    ∃ text, config.cmdline = "sh".toList ++ text ∧
      splitArgs text = ["-c".toList, "C:\\Program \"Files\\".toList] :=
  cmdline_splitArgs _ rfl

end WindowsPtyOptions
end Velacritty
