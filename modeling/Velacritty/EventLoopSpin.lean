import Velacritty.EventLoopRead
import Velacritty.EventLoopWrite

/-! The event loop thread, one poll after the other, while other threads send it messages at any
time. A send is two steps of the sender: the message is queued, then the poller is notified. -/
namespace Velacritty.EventLoop
open Fallible

/-- What the poller reports, by the token it was registered with. -/
inductive PollEvent where
  | child
  | pty (interrupt readable writable : Bool)
  | other
  deriving DecidableEq, Repr

/-- The answers to what handling one event asks: `next_child_event`, the reader, whether its error
was `EIO`, and the writer. -/
structure Answers where
  child : Option (Option Int)
  reads : List ReadStep
  eio : Bool
  writes : List WriteResult
  deriving DecidableEq, Repr

/-- Where the thread stands in an iteration of the loop, with the events it has still to handle. -/
inductive LoopPhase where
  | polling
  | woken (events : List PollEvent)
  | draining (events : List PollEvent)
  | handling (events : List PollEvent)
  | stopped
  deriving DecidableEq, Repr

/-- The event loop. `notified` is the poller's flag and `notifying` counts the senders that have
queued a message and not yet notified; `sent`, `drained` and `accepted` are the logs of
`WriteWorld`. -/
structure Spin (P : Type) where
  phase : LoopPhase
  receiver : PeekableReceiver
  notified : Bool
  notifying : Nat
  state : State
  interestWritable : Bool
  reader : ReadState P
  sizes : List WindowSize
  childExits : List Int
  exited : Bool
  sent : List Msg
  drained : List Msg
  accepted : List UInt8
  deriving DecidableEq, Repr

/-- The parts that an event loop is given. -/
structure Pty (P : Type) where
  vte : Processor P
  stopSync : P → P
  drainOnExit : Bool

namespace Spin
variable {P : Type}

/-- The loop as it is spawned: only readable events are of interest. -/
def spawn (parser : P) : Spin P where
  phase := .polling
  receiver := ⟨[], none⟩
  notified := false
  notifying := 0
  state := ⟨[], none⟩
  interestWritable := false
  reader := ⟨parser, [], none, 0⟩
  sizes := []
  childExits := []
  exited := false
  sent := []
  drained := []
  accepted := []

/-- The first half of `EventLoopSender::send`. -/
def send (w : Spin P) (msg : Msg) : Spin P := { w with
  receiver := { w.receiver with rx := w.receiver.rx ++ [msg] }
  notifying := w.notifying + 1
  sent := w.sent ++ [msg] }

def wakeup (w : Spin P) : Spin P :=
  { w with reader := { w.reader with wakeups := w.reader.wakeups + 1 } }

/-- After the poll: the synchronized update ran out, unless something is to be done. -/
def check (pty : Pty P) (w : Spin P) (events : List PollEvent) : Spin P :=
  if events = [] then
    let w := { w with receiver := w.receiver.peek }
    if w.receiver.peeked.isNone then
      { w with reader := { w.reader with parser := pty.stopSync w.reader.parser }, phase := .polling }.wakeup
    else { w with phase := .draining events }
  else { w with phase := .draining events }

/-- One round of `drain_recv_channel`. -/
def recv (w : Spin P) (events : List PollEvent) : Spin P :=
  match w.receiver.recv with
  | (none, r) => { w with receiver := r, phase := .handling events }
  | (some msg, r) =>
      let w := { w with receiver := r, drained := w.drained ++ [msg] }
      match msg with
      | .input bytes => { w with state := { w.state with writeList := w.state.writeList ++ [bytes] } }
      | .resize size => { w with sizes := w.sizes ++ [size] }
      | .shutdown => { w with phase := .stopped }

/-- Reading for an event; the answer says whether the event is handled further. -/
def readEvent (pty : Pty P) (w : Spin P) (a : Answers) : Option (Bool × Spin P) :=
  match ptyRead pty.vte w.reader a.reads with
  | some (true, reader, []) => some (true, { w with reader := reader })
  | some (false, reader, []) =>
      some (false, { w with reader := reader, phase := if a.eio then w.phase else .stopped })
  | _ => none

def writeEvent (w : Spin P) (a : Answers) : Option (Spin P) :=
  match ptyWrite w.state a.writes with
  | some (ok, s, out, []) =>
      let w := { w with state := s, accepted := w.accepted ++ out }
      some (if ok then w else { w with phase := .stopped })
  | _ => none

/-- The child exited: its last output is read if asked for, and the loop ends. -/
def childExited (pty : Pty P) (w : Spin P) (code : Option Int) (a : Answers) : Option (Spin P) :=
  let w := { w with childExits := w.childExits ++ code.toList }
  let finish (w : Spin P) : Spin P := { w with exited := true, phase := .stopped }.wakeup
  if pty.drainOnExit then
    match ptyRead pty.vte w.reader a.reads with
    | some (_, reader, []) => some (finish { w with reader := reader })
    | _ => none
  else some (finish w)

/-- Handling one event, with the phase already set to go on with the others. -/
def handleEvent (pty : Pty P) (w : Spin P) (a : Answers) : PollEvent → Option (Spin P)
  | .child =>
      match a.child with
      | some code => w.childExited pty code a
      | none => some w
  | .pty interrupt readable writable =>
      if interrupt then some w
      else do
        let (go, w) ← (if readable then w.readEvent pty a else some (true, w))
        if go && writable then w.writeEvent a else some w
  | .other => some w

/-- What can happen: the senders' steps, and the steps of the loop's thread. -/
inductive Op where
  | notify (bytes : List UInt8)
  | onResize (size : WindowSize)
  | shutdown
  | pollerNotify
  | wait (events : List PollEvent)
  | interrupted
  | failed
  | check
  | recv
  | handle (answers : Answers)
  | register
  deriving DecidableEq, Repr

def step (pty : Pty P) (w : Spin P) (op : Op) : Option (Spin P) :=
  match op, w.phase with
  | .notify bytes, _ => some (if bytes = [] then w else w.send (.input bytes))
  | .onResize size, _ => some (w.send (.resize size))
  | .shutdown, _ => some (w.send .shutdown)
  | .pollerNotify, _ =>
      if w.notifying = 0 then none
      else some { w with notifying := w.notifying - 1, notified := true }
  -- a poll that returns has cleared the flag, an interrupted one has not
  | .wait events, .polling => some { w with notified := false, phase := .woken events }
  | .interrupted, .polling => some w
  | .failed, .polling => some { w with phase := .stopped }
  | .check, .woken events => some (w.check pty events)
  | .recv, .draining events => some (w.recv events)
  | .handle a, .handling (e :: events) => handleEvent pty { w with phase := .handling events } a e
  | .register, .handling [] =>
      some { w with interestWritable := w.state.needsWrite, phase := .polling }
  | _, _ => none

/-- Nothing restricts the order of the steps. -/
def Any (_ : Spin P) (_ : Op) : Prop := True

/-! ### Draining -/

theorem recv_rounds (pty : Pty P) (events : List PollEvent) (n : Nat) (w : Spin P)
    (hphase : w.phase = .draining events) (hn : w.receiver.size < n) :
    ∃ rounds w', runOps (step pty) w (List.replicate rounds .recv) = some w' ∧
      w'.phase = (if (drainLoop n w.receiver w.state).1 then .handling events else .stopped) ∧
      (w'.receiver, w'.state, w'.sizes) = ((drainLoop n w.receiver w.state).2.1,
        (drainLoop n w.receiver w.state).2.2.1, w.sizes ++ (drainLoop n w.receiver w.state).2.2.2) := by
  induction n generalizing w with
  | zero => omega
  | succ n ih =>
      have hstep : step pty w .recv = some (w.recv events) := by simp only [step, hphase]
      obtain ⟨hhead, htail⟩ := w.receiver.recv_eq
      have hsize (r : PeekableReceiver) (msg : Msg) (hr : w.receiver.recv = (some msg, r)) :
          r.size < n := by
        rw [hr] at hhead htail
        obtain ⟨rest, hq⟩ := List.head?_eq_some_iff.mp hhead.symm
        rw [PeekableReceiver.size_eq, hq] at hn
        rw [PeekableReceiver.size_eq, htail, hq]
        simpa using hn
      rw [drainLoop]
      split
      · rename_i r hr
        refine ⟨1, w.recv events, by simp only [List.replicate, runOps, hstep]; rfl, ?_⟩
        simp only [recv, hr]
        simp
      · rename_i bytes r hr
        obtain ⟨rounds, w', hrun, hphase', heq⟩ := ih (w.recv events)
          (by simp only [recv, hr]; exact hphase) (by simpa only [recv, hr] using hsize r _ hr)
        simp only [recv, hr] at hphase' heq
        refine ⟨rounds + 1, w', ?_, hphase', heq⟩
        rw [List.replicate_succ, runOps, hstep]
        exact hrun
      · rename_i size r hr
        obtain ⟨rounds, w', hrun, hphase', heq⟩ := ih (w.recv events)
          (by simp only [recv, hr]; exact hphase) (by simpa only [recv, hr] using hsize r _ hr)
        simp only [recv, hr] at hphase' heq
        refine ⟨rounds + 1, w', ?_, hphase', ?_⟩
        · rw [List.replicate_succ, runOps, hstep]
          exact hrun
        · rw [heq]
          simp
      · rename_i r hr
        refine ⟨1, w.recv events, by simp only [List.replicate, runOps, hstep]; rfl, ?_⟩
        simp only [recv, hr]
        simp

/-- Without a sender in between, the rounds of the receiver are `drain_recv_channel`. -/
theorem drain_rounds (pty : Pty P) {events : List PollEvent} {w : Spin P}
    (hphase : w.phase = .draining events) :
    ∃ rounds w', runOps (step pty) w (List.replicate rounds .recv) = some w' ∧
      w'.phase = (if (drainRecvChannel w.receiver w.state).1 then .handling events else .stopped) ∧
      (w'.receiver, w'.state, w'.sizes) = ((drainRecvChannel w.receiver w.state).2.1,
        (drainRecvChannel w.receiver w.state).2.2.1,
        w.sizes ++ (drainRecvChannel w.receiver w.state).2.2.2) :=
  recv_rounds pty events (w.receiver.size + 1) w hphase (Nat.lt_succ_self _)

/-! ### Invariants -/

def toWrite (w : Spin P) : WriteWorld := ⟨w.receiver, w.state, w.sent, w.drained, w.accepted⟩

def Announced (w : Spin P) : Prop :=
  w.receiver.queued ≠ [] → w.notified = true ∨ 0 < w.notifying

structure Sound (w : Spin P) : Prop where
  write : WriteInv w.toWrite
  interest : w.phase = .polling ∨ (∃ events, w.phase = .woken events) →
    w.interestWritable = w.state.needsWrite
  announced : w.phase = .polling ∨ (∃ events, w.phase = .handling events) → w.Announced

theorem Sound.spawn (parser : P) : Sound (spawn parser) where
  write := .start
  interest := fun _ => rfl
  announced := fun _ h => absurd rfl h

theorem Sound.send {w : Spin P} (h : w.Sound) {msg : Msg} (hok : ∀ b, msg = .input b → b ≠ []) :
    (w.send msg).Sound where
  write := by
    refine WriteInv.step h.write (?_ : SendsNonempty _ (.send msg)) rfl
    cases msg with
    | input bytes => exact hok bytes rfl
    | shutdown | resize => trivial
  interest := h.interest
  announced := fun _ _ => .inr (Nat.succ_pos _)

/-- What one round of the receiver takes from the queue, it adds to what is drained. -/
theorem recv_write {w : Spin P} (h : WriteInv w.toWrite) (events : List PollEvent) :
    WriteInv (w.recv events).toWrite := by
  obtain ⟨hhead, htail⟩ := w.receiver.recv_eq
  have horder : w.sent = w.drained ++ w.receiver.queued := h.order
  have hbytes : inputBytes w.drained = w.accepted ++ w.state.pending := h.bytes
  unfold recv
  split
  · rename_i r hr
    rw [hr] at hhead htail
    have hnil : w.receiver.queued = [] := List.head?_eq_none_iff.mp hhead.symm
    refine ⟨?_, h.bytes, h.busy, h.nonempty⟩
    show w.sent = w.drained ++ r.queued
    rw [htail, hnil]
    simpa [hnil] using horder
  · rename_i msg r hr
    rw [hr] at hhead htail
    obtain ⟨rest, hq⟩ := List.head?_eq_some_iff.mp hhead.symm
    rw [hq, List.tail_cons] at htail
    have horder' : w.sent = (w.drained ++ [msg]) ++ r.queued := by
      rw [horder, hq, htail, List.append_assoc]
      rfl
    cases msg with
    | input bytes =>
        have hne : bytes ≠ [] := h.nonempty bytes (by
          show _ ∈ w.sent
          rw [horder']
          simp)
        refine ⟨horder', ?_, ⟨?_, h.busy.current⟩, h.nonempty⟩
        · show inputBytes (w.drained ++ [.input bytes]) = w.accepted ++ _
          rw [inputBytes_append, hbytes]
          simp [toWrite, State.pending, inputBytes]
        · intro b hb
          rcases List.mem_append.mp hb with hb | hb
          · exact h.busy.queued b hb
          · rwa [List.mem_singleton.mp hb]
    | resize size =>
        refine ⟨horder', ?_, h.busy, h.nonempty⟩
        show inputBytes (w.drained ++ [.resize size]) = w.accepted ++ w.state.pending
        simpa [inputBytes_append, inputBytes] using hbytes
    | shutdown =>
        refine ⟨horder', ?_, h.busy, h.nonempty⟩
        show inputBytes (w.drained ++ [.shutdown]) = w.accepted ++ w.state.pending
        simpa [inputBytes_append, inputBytes] using hbytes

/-- The queue is empty when the receiver's last round ends, and a shutdown ends the loop. -/
theorem recv_phase (w : Spin P) (events : List PollEvent) (hphase : w.phase = .draining events) :
    (w.recv events).phase = .draining events ∨ (w.recv events).phase = .stopped ∨
      (w.recv events).receiver.queued = [] := by
  obtain ⟨hhead, htail⟩ := w.receiver.recv_eq
  unfold recv
  split
  · rename_i r hr
    rw [hr] at hhead htail
    refine .inr (.inr ?_)
    show r.queued = []
    rw [htail, List.head?_eq_none_iff.mp hhead.symm, List.tail_nil]
  · rename_i msg r hr
    cases msg with
    | input bytes => exact .inl hphase
    | resize size => exact .inl hphase
    | shutdown => exact .inr (.inl rfl)

theorem Sound.recv {w : Spin P} (h : w.Sound) {events : List PollEvent}
    (hphase : w.phase = .draining events) : (w.recv events).Sound := by
  have hnot : ¬ ((w.recv events).phase = .polling ∨ ∃ events', (w.recv events).phase = .woken events') := by
    unfold Spin.recv
    split
    · simp
    · rename_i msg r hr
      cases msg <;> simp [hphase]
  refine ⟨recv_write h.write events, fun hp => absurd hp hnot, fun hp hq => ?_⟩
  rcases recv_phase w events hphase with hp' | hp' | hnil
  · rw [hp'] at hp
    simp at hp
  · rw [hp'] at hp
    simp at hp
  · exact absurd hnil hq

/-- The check goes back to the poll only when nothing is queued. -/
theorem queued_of_peek_none {r : PeekableReceiver} (h : r.peek.peeked.isNone = true) :
    r.queued = [] := by
  obtain ⟨rx, peeked⟩ := r
  cases peeked with
  | some msg => simp [PeekableReceiver.peek] at h
  | none =>
      cases rx with
      | nil => rfl
      | cons msg rest => simp [PeekableReceiver.peek, PeekableReceiver.tryRecv] at h

theorem Sound.check (pty : Pty P) {w : Spin P} (h : w.Sound) {events : List PollEvent}
    (hint : w.interestWritable = w.state.needsWrite) : (w.check pty events).Sound := by
  have hpeek : WriteInv { w.toWrite with receiver := w.receiver.peek } :=
    WriteInv.step h.write (show SendsNonempty _ WriteOp.peek from trivial) rfl
  unfold Spin.check
  split
  · dsimp only
    split
    · rename_i hnone
      refine ⟨hpeek, fun _ => hint, fun _ hq => absurd ?_ hq⟩
      exact w.receiver.queued_peek.trans (queued_of_peek_none hnone)
    · exact ⟨hpeek, fun hp => by simp at hp, fun hp => by simp at hp⟩
  · exact ⟨h.write, fun hp => by simp at hp, fun hp => by simp at hp⟩

/-- What an event's handler keeps: the queue, the senders, and the write side in order. It goes on
with the other events or ends the loop. -/
structure Handled (w w' : Spin P) : Prop where
  write : WriteInv w'.toWrite
  receiver : w'.receiver = w.receiver
  notified : w'.notified = w.notified
  notifying : w'.notifying = w.notifying
  phase : w'.phase = w.phase ∨ w'.phase = .stopped

theorem readEvent_handled (pty : Pty P) {w w' : Spin P} {a : Answers} {go : Bool}
    (h : WriteInv w.toWrite) (hrun : w.readEvent pty a = some (go, w')) : Handled w w' := by
  unfold readEvent at hrun
  split at hrun
  · cases hrun
    exact ⟨h, rfl, rfl, rfl, .inl rfl⟩
  · cases hrun
    refine ⟨h, rfl, rfl, rfl, ?_⟩
    dsimp only
    split
    · exact .inl rfl
    · exact .inr rfl
  · cases hrun

theorem writeEvent_handled {w w' : Spin P} {a : Answers} (h : WriteInv w.toWrite)
    (hrun : w.writeEvent a = some w') : Handled w w' := by
  unfold writeEvent at hrun
  split at hrun
  · rename_i ok s out hwrite
    cases hrun
    have hinv : WriteInv { w.toWrite with state := s, accepted := w.accepted ++ out } :=
      WriteInv.step h (show SendsNonempty _ (WriteOp.write a.writes) from trivial) (by simp [writeStep, toWrite, hwrite])
    split
    · exact ⟨hinv, rfl, rfl, rfl, .inl rfl⟩
    · exact ⟨hinv, rfl, rfl, rfl, .inr rfl⟩
  · cases hrun

theorem childExited_handled (pty : Pty P) {w w' : Spin P} {code : Option Int} {a : Answers}
    (h : WriteInv w.toWrite) (hrun : w.childExited pty code a = some w') : Handled w w' := by
  unfold childExited at hrun
  dsimp only at hrun
  split at hrun
  · split at hrun
    · cases hrun
      exact ⟨h, rfl, rfl, rfl, .inr rfl⟩
    · cases hrun
  · cases hrun
    exact ⟨h, rfl, rfl, rfl, .inr rfl⟩

theorem handleEvent_handled (pty : Pty P) {w w' : Spin P} {a : Answers} {e : PollEvent}
    (h : WriteInv w.toWrite) (hrun : handleEvent pty w a e = some w') : Handled w w' := by
  cases e with
  | child =>
      simp only [handleEvent] at hrun
      split at hrun
      · exact childExited_handled pty h hrun
      · cases hrun
        exact ⟨h, rfl, rfl, rfl, .inl rfl⟩
  | pty interrupt readable writable =>
      simp only [handleEvent] at hrun
      split at hrun
      · cases hrun
        exact ⟨h, rfl, rfl, rfl, .inl rfl⟩
      · rw [Option.bind_eq_bind, Option.bind_eq_some_iff] at hrun
        obtain ⟨⟨go, v⟩, hread, hrun⟩ := hrun
        have hv : Handled w v := by
          split at hread
          · exact readEvent_handled pty h hread
          · cases hread
            exact ⟨h, rfl, rfl, rfl, .inl rfl⟩
        dsimp only at hrun
        split at hrun
        · have hw := writeEvent_handled hv.write hrun
          refine ⟨hw.write, hw.receiver.trans hv.receiver, hw.notified.trans hv.notified,
            hw.notifying.trans hv.notifying, ?_⟩
          rcases hw.phase with hp | hp
          · rw [hp]
            exact hv.phase
          · exact .inr hp
        · cases hrun
          exact hv
  | other =>
      cases hrun
      exact ⟨h, rfl, rfl, rfl, .inl rfl⟩

theorem Sound.handle (pty : Pty P) {w w' : Spin P} (h : w.Sound) {a : Answers} {e : PollEvent}
    {events : List PollEvent} (hphase : w.phase = .handling (e :: events))
    (hrun : handleEvent pty { w with phase := .handling events } a e = some w') : w'.Sound := by
  have hw := handleEvent_handled pty (w := { w with phase := .handling events }) h.write hrun
  refine ⟨hw.write, fun hp => ?_, fun hp hq => ?_⟩
  · rcases hw.phase with hp' | hp' <;> rw [hp'] at hp <;> simp at hp
  · rw [hw.receiver] at hq
    rw [hw.notified, hw.notifying]
    exact h.announced (.inr ⟨_, hphase⟩) hq

theorem Sound.step (pty : Pty P) {w w' : Spin P} {op : Op} (h : w.Sound)
    (hs : Spin.step pty w op = some w') : w'.Sound := by
  simp only [Spin.step] at hs
  split at hs
  · cases hs
    split
    · exact h
    · rename_i hne
      refine h.send fun b hb => ?_
      cases hb
      exact hne
  · cases hs
    exact h.send fun b hb => nomatch hb
  · cases hs
    exact h.send fun b hb => nomatch hb
  · split at hs
    · cases hs
    · cases hs
      exact ⟨h.write, h.interest, fun _ _ => .inl rfl⟩
  · rename_i events hphase
    cases hs
    exact ⟨h.write, fun _ => h.interest (.inl hphase), fun hp => by simp at hp⟩
  · cases hs
    exact h
  · cases hs
    exact ⟨h.write, fun hp => by simp at hp, fun hp => by simp at hp⟩
  · rename_i events hphase
    cases hs
    exact h.check pty (h.interest (.inr ⟨events, hphase⟩))
  · rename_i events hphase
    cases hs
    exact h.recv hphase
  · rename_i a e events hphase
    exact h.handle pty hphase hs
  · rename_i hphase
    cases hs
    exact ⟨h.write, fun _ => rfl, fun _ => h.announced (.inr ⟨[], hphase⟩)⟩
  · cases hs

/-- In every run, whatever other threads send and whenever they do, the messages are drained in the
order sent, and what the PTY accepted followed by what is still to be written are the inputs among
them. When the loop waits for the poller, it is interested in writing exactly when something is to
be written, and a message that is queued has a notification that ends the wait. -/
theorem run_serves (pty : Pty P) (parser : P) {w : Spin P}
    (h : Reaches (Spin.step pty) Any (Spin.spawn parser) w) :
    w.sent = w.drained ++ w.receiver.queued ∧
      inputBytes w.drained = w.accepted ++ w.state.pending ∧
      (w.phase = .polling → (w.interestWritable = true ↔ w.state.pending ≠ []) ∧
        (w.drained ≠ w.sent → w.notified = true ∨ 0 < w.notifying)) := by
  have hw : w.Sound := h.invariant (Sound.spawn parser) fun _ _ _ hv _ hs => hv.step pty hs
  have horder : w.sent = w.drained ++ w.receiver.queued := hw.write.order
  refine ⟨horder, hw.write.bytes, fun hp => ⟨?_, fun hne => ?_⟩⟩
  · rw [hw.interest (.inl hp)]
    exact hw.write.busy.needsWrite_iff
  · refine hw.announced (.inl hp) fun hnil => hne ?_
    rw [horder, hnil, List.append_nil]

/-- An input arrives while the loop checks its channel, and is written in part. -/
theorem run_serves_short : ∃ w : Spin (List UInt8),
    (w.phase = .polling ∧ w.accepted = [1] ∧ w.state.pending = [2]) ∧
    w.sent = w.drained ++ w.receiver.queued ∧
      inputBytes w.drained = w.accepted ++ w.state.pending ∧
      (w.phase = .polling → (w.interestWritable = true ↔ w.state.pending ≠ []) ∧
        (w.drained ≠ w.sent → w.notified = true ∨ 0 < w.notifying)) :=
  ⟨_, ⟨rfl, rfl, rfl⟩, run_serves ⟨echo, id, false⟩ []
    (.step (a := .register)
      (.step (a := .handle ⟨none, [], false, [.ok 1, .wouldBlock]⟩)
        (.step (a := .recv) (.step (a := .recv)
          (.step (a := .check) (.step (a := .notify [1, 2])
            (.step (a := .wait [.pty false false true]) .refl trivial rfl) trivial rfl)
            trivial rfl) trivial rfl) trivial rfl) trivial rfl) trivial rfl)⟩

end Spin
end Velacritty.EventLoop
