import Velacritty.EventLoop
import Mathlib.Tactic.SplitIfs

/-! What one call of `pty_read` hands to the parser, and what it drops. -/
namespace Velacritty.EventLoop
variable {P : Type}

@[simp] theorem delivered_nil : delivered [] = [] := rfl

theorem delivered_append (xs ys : List ReadStep) :
    delivered (xs ++ ys) = delivered xs ++ delivered ys := by
  simp only [delivered, List.flatMap_append]

def ReadResult.bytes : ReadResult → List UInt8
  | .ok bytes => bytes
  | _ => []

theorem delivered_concat (xs : List ReadStep) (e : ReadStep) :
    delivered (xs ++ [e]) = delivered xs ++ e.read.bytes := by
  rw [delivered_append]
  congr 1
  cases h : e.read <;> simp [delivered, ReadResult.bytes, h]

/-- No answer of the trace lets the call take the terminal lock. -/
def Unlocked (trace : List ReadStep) : Prop :=
  (∀ e ∈ trace, e.tryLock = false) ∧ (delivered trace).length < readBufferSize

/-- The call ends with a hard read error while bytes read before it still wait
for the terminal lock. -/
def FailsPending (trace : List ReadStep) : Prop :=
  ∃ before last, trace = before ++ [last] ∧ last.read = .error ∧
    Unlocked before ∧ delivered before ≠ []

/-- The loop invariant after the answers `before`: handed bytes and buffer together
are what was delivered, the buffer is empty once the lock is held, and the lock
is held exactly when some answer allowed it. -/
structure ReadInv (advanced₀ : List UInt8) (before : List ReadStep) (l : ReadLocals)
    (s : ReadState P) : Prop where
  bytes : s.advanced ++ l.unprocessed = advanced₀ ++ delivered before
  parsed : l.locked = true → l.unprocessed = []
  waiting : l.locked = false → s.advanced = advanced₀
  unlocked : l.locked = false ↔ Unlocked before

theorem ReadInv.start (s : ReadState P) : ReadInv s.advanced [] .start s where
  bytes := by simp [ReadLocals.start]
  parsed := fun h => by simp [ReadLocals.start] at h
  waiting := fun _ => rfl
  unlocked := by simp [ReadLocals.start, Unlocked, readBufferSize]

theorem ReadInv.unprocessed_eq {a : List UInt8} {before : List ReadStep} {l : ReadLocals}
    {s : ReadState P} (h : ReadInv a before l s) (hl : l.locked = false) :
    l.unprocessed = delivered before := by
  have hb := h.bytes
  rw [h.waiting hl] at hb
  exact List.append_cancel_left hb

/-- The call handed over a prefix of what was delivered, and all of it exactly
when it did not fail with bytes pending. -/
def Handed (advanced₀ : List UInt8) (trace : List ReadStep) (s : ReadState P) : Prop :=
  ∃ out, s.advanced = advanced₀ ++ out ∧ out <+: delivered trace ∧
    (out = delivered trace ↔ ¬ FailsPending trace)

/-- What holds when an iteration ends, by the way it ends. -/
def FlowSpec (advanced₀ : List UInt8) (before : List ReadStep) : ReadFlow P → Prop
  | .next l s => ReadInv advanced₀ before l s
  | .leave _ s | .fail s => Handed advanced₀ before s

theorem Handed.all {a : List UInt8} {trace : List ReadStep} {s : ReadState P}
    (h : s.advanced = a ++ delivered trace) (hno : ¬ FailsPending trace) : Handed a trace s :=
  ⟨_, h, List.prefix_rfl, iff_of_true rfl hno⟩

theorem unlocked_concat (before : List ReadStep) (e : ReadStep) :
    Unlocked (before ++ [e]) ↔
      Unlocked before ∧ e.tryLock = false ∧ (delivered (before ++ [e])).length < readBufferSize := by
  have hlen : (delivered before).length ≤ (delivered (before ++ [e])).length := by
    rw [delivered_append, List.length_append]; omega
  constructor
  · rintro ⟨hall, hsmall⟩
    exact ⟨⟨fun x hx => hall x (List.mem_append_left _ hx), Nat.lt_of_le_of_lt hlen hsmall⟩,
      hall e (by simp), hsmall⟩
  · rintro ⟨⟨hall, _⟩, he, hsmall⟩
    refine ⟨fun x hx => ?_, hsmall⟩
    rcases List.mem_append.mp hx with hx | hx
    · exact hall x hx
    · exact List.mem_singleton.mp hx ▸ he

theorem not_failsPending_concat {before : List ReadStep} {e : ReadStep} (he : e.read ≠ .error) :
    ¬ FailsPending (before ++ [e]) := by
  rintro ⟨b, last, heq, hlast, _⟩
  obtain ⟨rfl, h⟩ := List.append_inj' heq rfl
  exact he (List.cons.inj h |>.1 ▸ hlast)

/-- Below the read, every byte in the buffer is either parsed or kept. -/
theorem syncTerminal_spec (vte : Processor P) {a : List UInt8} {before : List ReadStep}
    {e : ReadStep} {l : ReadLocals} {s : ReadState P} (h : ReadInv a before l s)
    (he : e.read ≠ .error) {u : List UInt8} (hu : u = l.unprocessed ++ e.read.bytes) :
    FlowSpec a (before ++ [e]) (syncTerminal vte e.tryLock { l with unprocessed := u } s) := by
  have hbytes : s.advanced ++ u = a ++ delivered (before ++ [e]) := by
    rw [delivered_concat, ← List.append_assoc, ← h.bytes, hu, List.append_assoc]
  unfold syncTerminal
  by_cases hlock : (l.locked || e.tryLock || decide (readBufferSize ≤ u.length)) = true
  · rw [if_pos hlock]
    have hinv : ReadInv a (before ++ [e]) ⟨[], l.processed + u.length, true⟩
        { s with
          parser := vte.advance s.parser u
          advanced := s.advanced ++ u
          recording := s.recording.map (· ++ u) } := by
      refine ⟨by simpa using hbytes, fun _ => rfl, fun h => by simp at h, ?_⟩
      simp only [Bool.true_eq_false, false_iff, unlocked_concat, not_and, ← h.unlocked]
      intro hunl htry
      have hlen : readBufferSize ≤ u.length := by simpa [hunl, htry] using hlock
      rw [delivered_concat, ← h.unprocessed_eq hunl, ← hu]
      omega
    dsimp only
    split
    · exact .all hbytes (not_failsPending_concat he)
    · exact hinv
  · rw [if_neg hlock]
    simp only [Bool.or_eq_true, decide_eq_true_eq, not_or, Bool.not_eq_true] at hlock
    obtain ⟨⟨hunl, htry⟩, hlen⟩ := hlock
    refine ⟨hbytes, fun h => ?_, fun _ => h.waiting hunl, ?_⟩
    · simp [hunl] at h
    · refine ⟨fun _ => (unlocked_concat _ _).mpr ⟨h.unlocked.mp hunl, htry, ?_⟩, fun _ => hunl⟩
      rw [delivered_concat, ← h.unprocessed_eq hunl, ← hu]
      omega

/-- One iteration keeps the invariant, and each exit says what was dropped: only
the hard error drops bytes, and only those waiting for the lock. -/
theorem readIteration_spec (vte : Processor P) {a : List UInt8} {before : List ReadStep}
    {e : ReadStep} {l : ReadLocals} {s : ReadState P} {flow : ReadFlow P}
    (h : ReadInv a before l s) (hflow : readIteration vte e l s = some flow) :
    FlowSpec a (before ++ [e]) flow := by
  have hidle (he : e.read ≠ .error) (hb : e.read.bytes = []) (hu : l.unprocessed = []) :
      FlowSpec a (before ++ [e]) (.leave l s) := by
    refine .all ?_ (not_failsPending_concat he)
    rw [delivered_concat, hb, List.append_nil, ← h.bytes, hu, List.append_nil]
  cases hread : e.read with
  | ok bytes =>
      simp only [readIteration, hread] at hflow
      split_ifs at hflow with _ hempty
      · cases hflow
        exact hidle (by simp [hread]) (by simpa [ReadResult.bytes, hread] using hempty.1) hempty.2
      · cases hflow
        exact syncTerminal_spec vte h (by simp [hread]) (by simp [ReadResult.bytes, hread])
  | interrupted =>
      simp only [readIteration, hread] at hflow
      split_ifs at hflow with hempty
      · cases hflow
        exact hidle (by simp [hread]) (by simp [ReadResult.bytes, hread]) hempty
      · cases hflow
        exact syncTerminal_spec vte h (by simp [hread]) (by simp [ReadResult.bytes, hread])
  | wouldBlock =>
      simp only [readIteration, hread] at hflow
      split_ifs at hflow with hempty
      · cases hflow
        exact hidle (by simp [hread]) (by simp [ReadResult.bytes, hread]) hempty
      · cases hflow
        exact syncTerminal_spec vte h (by simp [hread]) (by simp [ReadResult.bytes, hread])
  | error =>
      simp only [readIteration, hread, Option.some.injEq] at hflow
      subst hflow
      have hd : delivered (before ++ [e]) = delivered before := by
        rw [delivered_concat]; simp [ReadResult.bytes, hread]
      cases hlocked : l.locked with
      | true =>
          have hall : s.advanced = a ++ delivered (before ++ [e]) := by
            rw [hd, ← h.bytes, h.parsed hlocked, List.append_nil]
          refine .all hall ?_
          rintro ⟨b, last, heq, _, hunl, _⟩
          obtain ⟨rfl, -⟩ := List.append_inj' heq rfl
          simp [h.unlocked.mpr hunl] at hlocked
      | false =>
          -- nothing was parsed yet: the bytes read so far are dropped
          have hunl := h.unlocked.mp hlocked
          refine ⟨[], by simpa using h.waiting hlocked, List.nil_prefix, ?_⟩
          rw [hd]
          constructor
          · rintro hnil ⟨b, last, heq, _, _, hne⟩
            obtain ⟨rfl, -⟩ := List.append_inj' heq rfl
            exact hne hnil.symm
          · intro hno
            by_contra hne
            exact hno ⟨before, e, rfl, hread, hunl, fun h => hne h.symm⟩

theorem wakeup_advanced (vte : Processor P) (l : ReadLocals) (s : ReadState P) :
    (wakeup vte l s).advanced = s.advanced := by
  unfold wakeup
  split <;> rfl

theorem readLoop_handed (vte : Processor P) {a : List UInt8} {trace before : List ReadStep}
    {l : ReadLocals} {s s' : ReadState P} {b : Bool} (h : ReadInv a before l s)
    (hrun : readLoop vte trace l s = some (b, s', [])) : Handed a (before ++ trace) s' := by
  induction trace generalizing before l s with
  | nil => simp [readLoop] at hrun
  | cons e rest ih =>
      rw [readLoop] at hrun
      cases hflow : readIteration vte e l s with
      | none => simp [hflow] at hrun
      | some flow =>
          have hspec := readIteration_spec vte h hflow
          rw [hflow] at hrun
          cases flow with
          | next l' t =>
              have hrest := ih hspec hrun
              simpa using hrest
          | leave l' t =>
              simp only [Option.some.injEq, Prod.mk.injEq] at hrun
              obtain ⟨_, rfl, rfl⟩ := hrun
              obtain ⟨out, hout, hpre, hiff⟩ := hspec
              exact ⟨out, (wakeup_advanced vte l' t).trans hout, hpre, hiff⟩
          | fail t =>
              simp only [Option.some.injEq, Prod.mk.injEq] at hrun
              obtain ⟨_, rfl, rfl⟩ := hrun
              exact hspec

/-- One call of `pty_read`, whatever its reader and the lock answered. -/
theorem ptyRead_handed (vte : Processor P) {trace : List ReadStep} {s s' : ReadState P} {b : Bool}
    (hrun : ptyRead vte s trace = some (b, s', [])) : Handed s.advanced trace s' := by
  simpa using readLoop_handed vte (ReadInv.start s) hrun

/-- Over any number of calls the parser receives exactly the delivered bytes, in
order, if and only if no call fails with bytes pending. -/
theorem ptyReads_exact_iff (vte : Processor P) {calls : List (List ReadStep)} {s s' : ReadState P}
    (hrun : ptyReads vte s calls = some s') :
    s'.advanced = s.advanced ++ delivered calls.flatten ↔ ∀ call ∈ calls, ¬ FailsPending call := by
  suffices h : ∃ out, s'.advanced = s.advanced ++ out ∧
      out.length ≤ (delivered calls.flatten).length ∧
      (out = delivered calls.flatten ↔ ∀ call ∈ calls, ¬ FailsPending call) by
    obtain ⟨out, hout, _, hiff⟩ := h
    rw [hout, List.append_cancel_left_eq, hiff]
  induction calls generalizing s with
  | nil =>
      cases hrun
      exact ⟨[], by simp⟩
  | cons trace traces ih =>
      rw [ptyReads] at hrun
      split at hrun
      · rename_i b t hcall
        obtain ⟨x, hx, hpre, hxiff⟩ := ptyRead_handed vte hcall
        obtain ⟨y, hy, hlen, hyiff⟩ := ih hrun
        refine ⟨x ++ y, by rw [hy, hx, List.append_assoc], ?_, ?_⟩
        · have := hpre.length_le
          simp only [List.flatten_cons, delivered_append, List.length_append]
          omega
        · rw [List.flatten_cons, delivered_append, List.forall_mem_cons, ← hxiff, ← hyiff]
          constructor
          · intro heq
            have hl := congrArg List.length heq
            have := hpre.length_le
            simp only [List.length_append] at hl
            exact List.append_inj heq (by omega)
          · rintro ⟨rfl, rfl⟩
            rfl
      · cases hrun

/-- A parser that only remembers its input. -/
def echo : Processor (List UInt8) := ⟨(· ++ ·), fun _ => 0⟩

def idle : ReadState (List UInt8) := ⟨[], [], none, 0⟩

theorem ptyReads_exact_iff_locked :
    (⟨[104, 105], [104, 105], none, 1⟩ : ReadState (List UInt8)).advanced =
        idle.advanced ++ delivered [⟨.ok [104], false⟩, ⟨.ok [105], true⟩, ⟨.wouldBlock, true⟩] ↔
      ∀ call ∈ [[⟨.ok [104], false⟩, ⟨.ok [105], true⟩, ⟨.wouldBlock, true⟩]], ¬ FailsPending call :=
  ptyReads_exact_iff echo (by decide : ptyReads echo idle
    [[⟨.ok [104], false⟩, ⟨.ok [105], true⟩, ⟨.wouldBlock, true⟩]] = some ⟨[104, 105], [104, 105], none, 1⟩)

/-- One byte is read while another thread holds the terminal, then the PTY fails:
the byte never reaches the parser. -/
theorem ptyReads_drops_pending :
    ¬ ∀ (calls : List (List ReadStep)) (s' : ReadState (List UInt8)),
      ptyReads echo idle calls = some s' →
        s'.advanced = idle.advanced ++ delivered calls.flatten := by
  intro h
  have hrun : ptyReads echo idle [[⟨.ok [104], false⟩, ⟨.error, false⟩]] = some idle := by decide
  exact absurd (h _ _ hrun) (by decide)

end Velacritty.EventLoop
