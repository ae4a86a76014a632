import Velacritty.EventLoop
import Mathlib.Tactic.SplitIfs

/-! Runs of the channel and the writer: what was accepted, what is still queued. -/
namespace Velacritty.EventLoop
open Fallible

/-- The sending threads, the receiver, the write state, and three logs: every
message sent, every message drained, and every byte the writer accepted. -/
structure WriteWorld where
  receiver : PeekableReceiver
  state : State
  sent : List Msg
  drained : List Msg
  accepted : List UInt8
  deriving DecidableEq, Repr

def WriteWorld.start : WriteWorld := ⟨⟨[], none⟩, ⟨[], none⟩, [], [], []⟩

/-- What can happen to the event loop's write side. -/
inductive WriteOp where
  | send (msg : Msg)
  | peek
  | drain
  | write (answers : List WriteResult)
  deriving DecidableEq, Repr

def writeStep (w : WriteWorld) : WriteOp → Option WriteWorld
  | .send msg => some { w with
      receiver := { w.receiver with rx := w.receiver.rx ++ [msg] }, sent := w.sent ++ [msg] }
  | .peek => some { w with receiver := w.receiver.peek }
  | .drain =>
      let (_, r, s, _) := drainRecvChannel w.receiver w.state
      let taken := (w.receiver.peeked.toList ++ w.receiver.rx).take (w.receiver.size - r.size)
      some { w with receiver := r, state := s, drained := w.drained ++ taken }
  | .write answers =>
      (ptyWrite w.state answers).map fun (_, s, out, _) =>
        { w with state := s, accepted := w.accepted ++ out }

/-- `Notifier::notify` never sends an empty input. -/
def SendsNonempty (_ : WriteWorld) : WriteOp → Prop
  | .send (.input bytes) => bytes ≠ []
  | _ => True

/-- The input bytes of a list of messages, in order. -/
def inputBytes (msgs : List Msg) : List UInt8 :=
  msgs.flatMap fun m => match m with | .input bytes => bytes | _ => []

theorem inputBytes_append (xs ys : List Msg) :
    inputBytes (xs ++ ys) = inputBytes xs ++ inputBytes ys := by
  simp only [inputBytes, List.flatMap_append]

/-- Messages not yet drained, oldest first. -/
def PeekableReceiver.queued (r : PeekableReceiver) : List Msg := r.peeked.toList ++ r.rx

/-- Drained bytes that the writer has not accepted. -/
def State.pending (s : State) : List UInt8 :=
  (s.writing.map Writing.remainingBytes).getD [] ++ s.writeList.flatten

/-- Nothing empty is queued and the current item is unfinished. -/
structure State.Busy (s : State) : Prop where
  queued : ∀ b ∈ s.writeList, b ≠ []
  current : ∀ w, s.writing = some w → w.written < w.source.length

theorem remainingBytes_ne_nil {w : Writing} (h : w.written < w.source.length) :
    w.remainingBytes ≠ [] := by
  simp only [Writing.remainingBytes, ne_eq, List.drop_eq_nil_iff]
  omega

theorem State.Busy.needsWrite_iff {s : State} (h : s.Busy) : s.needsWrite = true ↔ s.pending ≠ [] := by
  obtain ⟨list, writing⟩ := s
  cases writing with
  | some w =>
      have := remainingBytes_ne_nil (h.current w rfl)
      simp [State.needsWrite, State.pending, this]
  | none =>
      cases list with
      | nil => simp [State.needsWrite, State.pending]
      | cons b bs =>
          have := h.queued b List.mem_cons_self
          simp [State.needsWrite, State.pending, this]

/-! ### Receiver -/

@[simp] theorem PeekableReceiver.queued_peek (r : PeekableReceiver) : r.peek.queued = r.queued := by
  obtain ⟨rx, peeked⟩ := r
  cases peeked <;> cases rx <;> rfl

theorem PeekableReceiver.recv_eq (r : PeekableReceiver) :
    r.recv.1 = r.queued.head? ∧ r.recv.2.queued = r.queued.tail := by
  obtain ⟨rx, peeked⟩ := r
  cases peeked <;> cases rx <;> exact ⟨rfl, rfl⟩

theorem PeekableReceiver.size_eq (r : PeekableReceiver) : r.size = r.queued.length := by
  simp [PeekableReceiver.size, PeekableReceiver.queued, Nat.add_comm]

/-- The loop takes messages from the front up to a shutdown message, and queues
the inputs among them. -/
theorem drainLoop_spec (n : Nat) (r : PeekableReceiver) (s : State) :
    ∃ taken, r.queued = taken ++ (drainLoop n r s).2.1.queued ∧
      (drainLoop n r s).2.2.1.writing = s.writing ∧
      (drainLoop n r s).2.2.1.writeList =
        s.writeList ++ taken.filterMap (fun m => match m with | .input b => some b | _ => none) := by
  induction n generalizing r s with
  | zero => exact ⟨[], by simp [drainLoop]⟩
  | succ n ih =>
      obtain ⟨hhead, htail⟩ := r.recv_eq
      rw [drainLoop]
      split
      · rename_i r' hr
        rw [hr] at hhead htail
        have hnil : r.queued = [] := List.head?_eq_none_iff.mp hhead.symm
        exact ⟨[], by simp [htail, hnil]⟩
      all_goals
        rename_i r' hr
        rw [hr] at hhead htail
        obtain ⟨rest, hq⟩ := List.head?_eq_some_iff.mp hhead.symm
        rw [hq, List.tail_cons] at htail
      · rename_i bytes
        obtain ⟨taken, hqueued, hwriting, hlist⟩ := ih r' { s with writeList := s.writeList ++ [bytes] }
        refine ⟨.input bytes :: taken, ?_, hwriting, ?_⟩
        · rw [hq, ← htail, hqueued, List.cons_append]
        · rw [hlist]; simp
      · rename_i size
        obtain ⟨taken, hqueued, hwriting, hlist⟩ := ih r' s
        exact ⟨.resize size :: taken, by rw [hq, ← htail, hqueued, List.cons_append], hwriting,
          by simpa using hlist⟩
      · exact ⟨[.shutdown], by simp [hq, htail]⟩

/-! ### Writer -/

theorem flatten_filterMap_input (msgs : List Msg) :
    (msgs.filterMap fun m => match m with | .input b => some b | _ => none).flatten =
      inputBytes msgs := by
  induction msgs with
  | nil => rfl
  | cons m ms ih => cases m <;> simp [inputBytes] at ih ⊢ <;> exact ih

theorem Writing.remainingBytes_advance (w : Writing) (n : Nat) :
    (w.advance n).remainingBytes = w.remainingBytes.drop n := by
  simp [Writing.advance, Writing.remainingBytes, List.drop_drop]

theorem Writing.not_finished {w : Writing} (h : w.finished ≠ true) : w.written < w.source.length := by
  simpa [Writing.finished] using h

theorem Writing.remainingBytes_finished {w : Writing} (h : w.finished = true) :
    w.remainingBytes = [] := by
  simpa [Writing.finished, Writing.remainingBytes] using h

theorem State.gotoNext_pending (s : State) : s.gotoNext.pending = s.writeList.flatten := by
  obtain ⟨list, writing⟩ := s
  cases list <;> simp [State.gotoNext, State.pending, Writing.new, Writing.remainingBytes]

theorem State.Busy.gotoNext {s : State} (h : ∀ b ∈ s.writeList, b ≠ []) : s.gotoNext.Busy where
  queued := fun b hb => h b (List.mem_of_mem_tail hb)
  current := fun w hw => by
    cases hlist : s.writeList with
    | nil => simp [State.gotoNext, hlist] at hw
    | cons b bs =>
        simp only [State.gotoNext, hlist, List.head?_cons, Option.map_some, Option.some.injEq] at hw
        subst hw
        have := h b (hlist ▸ List.mem_cons_self)
        simpa [Writing.new, List.length_pos_iff] using this

/-- With an unfinished item in hand, the loop splits what is pending into what
the writer accepted and what stays queued. -/
theorem writeLoop_spec {answers left : List WriteResult} {current : Writing} {s t : State} {b : Bool}
    {out : List UInt8} (hcur : current.written < current.source.length)
    (hq : ∀ b ∈ s.writeList, b ≠ []) (hrun : writeLoop answers current s = some (b, t, out, left)) :
    out ++ t.pending = current.remainingBytes ++ s.writeList.flatten ∧ t.Busy := by
  induction answers generalizing current s out with
  | nil => simp [writeLoop] at hrun
  | cons a rest ih =>
      have hput : [] ++ (s.setCurrent (some current)).pending =
          current.remainingBytes ++ s.writeList.flatten ∧ (s.setCurrent (some current)).Busy :=
        ⟨rfl, hq, fun w hw => by cases hw; exact hcur⟩
      cases a with
      | ok n =>
          rw [writeLoop] at hrun
          split_ifs at hrun with hzero hlen
          · cases hrun
            exact hput
          · dsimp only at hrun
            split_ifs at hrun with hfin
            · -- the item is written out: the queue supplies the next one
              have hrem : current.remainingBytes.drop n = [] := by
                rw [← Writing.remainingBytes_advance]
                exact Writing.remainingBytes_finished hfin
              have hall : current.remainingBytes.take n = current.remainingBytes := by
                have := List.take_append_drop n current.remainingBytes
                rwa [hrem, List.append_nil] at this
              have hnext := State.Busy.gotoNext hq
              have hpend := s.gotoNext_pending
              rw [State.pending] at hpend
              cases hw : s.gotoNext.writing with
              | none =>
                  simp only [State.takeCurrent, hw, Option.some.injEq, Prod.mk.injEq] at hrun
                  obtain ⟨_, rfl, rfl, _⟩ := hrun
                  refine ⟨?_, hnext.queued, fun w h => by simp at h⟩
                  rw [hall, ← hpend, hw]
                  rfl
              | some next =>
                  simp only [State.takeCurrent, hw, Option.map_eq_some_iff] at hrun
                  obtain ⟨⟨b', t', out', left'⟩, hrec, heq⟩ := hrun
                  cases heq
                  obtain ⟨h1, h2⟩ := ih (s := { s.gotoNext with writing := none })
                    (hnext.current next hw) hnext.queued hrec
                  refine ⟨?_, h2⟩
                  rw [List.append_assoc, h1, hall, ← hpend, hw]
                  rfl
            · rw [Option.map_eq_some_iff] at hrun
              obtain ⟨⟨b', t', out', left'⟩, hrec, heq⟩ := hrun
              cases heq
              obtain ⟨h1, h2⟩ := ih (Writing.not_finished hfin) hq hrec
              refine ⟨?_, h2⟩
              rw [List.append_assoc, h1, Writing.remainingBytes_advance, ← List.append_assoc,
                List.take_append_drop]
      | interrupted | wouldBlock | error =>
          rw [writeLoop] at hrun
          cases hrun
          exact hput

theorem State.ensureNext_spec {s : State} (h : s.Busy) :
    s.ensureNext.pending = s.pending ∧ s.ensureNext.Busy := by
  unfold State.ensureNext
  split
  · rename_i hnone
    refine ⟨?_, .gotoNext h.queued⟩
    rw [s.gotoNext_pending, State.pending, Option.isNone_iff_eq_none.mp hnone]
    rfl
  · exact ⟨rfl, h⟩

/-- One call of `pty_write` moves bytes from the front of what is pending to the
writer, whatever the writer answers. -/
theorem ptyWrite_spec {s t : State} {answers left : List WriteResult} {b : Bool} {out : List UInt8}
    (h : s.Busy) (hrun : ptyWrite s answers = some (b, t, out, left)) :
    out ++ t.pending = s.pending ∧ t.Busy := by
  obtain ⟨hpend, hbusy⟩ := State.ensureNext_spec h
  rw [← hpend]
  unfold ptyWrite State.takeCurrent at hrun
  cases hw : s.ensureNext.writing with
  | none =>
      simp only [hw, Option.some.injEq, Prod.mk.injEq] at hrun
      obtain ⟨_, rfl, rfl, _⟩ := hrun
      exact ⟨by simp [State.pending, hw], hbusy.queued, fun w h => by simp at h⟩
  | some current =>
      simp only [hw] at hrun
      have := writeLoop_spec (s := { s.ensureNext with writing := none })
        (hbusy.current current hw) hbusy.queued hrun
      simpa [State.pending, hw] using this

/-! ### Runs -/

/-- The invariant of every run: messages are drained in the order sent, and the
drained bytes are the accepted ones followed by the pending ones. -/
structure WriteInv (w : WriteWorld) : Prop where
  order : w.sent = w.drained ++ w.receiver.queued
  bytes : inputBytes w.drained = w.accepted ++ w.state.pending
  busy : w.state.Busy
  nonempty : ∀ bytes, Msg.input bytes ∈ w.sent → bytes ≠ []

theorem WriteInv.start : WriteInv .start where
  order := rfl
  bytes := rfl
  busy := ⟨fun b hb => by simp [WriteWorld.start] at hb, fun w hw => by simp [WriteWorld.start] at hw⟩
  nonempty := fun b hb => by simp [WriteWorld.start] at hb

theorem WriteInv.drain {w : WriteWorld} (h : WriteInv w) {w' : WriteWorld}
    (hw : writeStep w .drain = some w') : WriteInv w' := by
  obtain ⟨taken, hqueued, hwriting, hlist⟩ := drainLoop_spec (w.receiver.size + 1) w.receiver w.state
  have htaken : w.receiver.queued.take (w.receiver.size - (drainRecvChannel w.receiver w.state).2.1.size)
      = taken := by
    rw [PeekableReceiver.size_eq, PeekableReceiver.size_eq, drainRecvChannel, hqueued,
      List.length_append, Nat.add_sub_cancel, List.take_left']
    rfl
  simp only [writeStep, Option.some.injEq] at hw
  subst hw
  rw [PeekableReceiver.queued] at htaken
  have hsent : ∀ b, Msg.input b ∈ taken → b ≠ [] := by
    intro b hb
    refine h.nonempty b ?_
    rw [h.order, hqueued]
    simp [hb]
  refine ⟨?_, ?_, ⟨?_, ?_⟩, h.nonempty⟩
  · rw [htaken, List.append_assoc]
    exact h.order.trans (congrArg _ hqueued)
  · rw [htaken, inputBytes_append, h.bytes, List.append_assoc]
    congr 1
    simp only [State.pending, drainRecvChannel, hwriting, hlist, List.flatten_append,
      flatten_filterMap_input, List.append_assoc]
  · intro b hb
    simp only [drainRecvChannel, hlist, List.mem_append, List.mem_filterMap] at hb
    rcases hb with hb | ⟨m, hm, hmb⟩
    · exact h.busy.queued b hb
    · cases m with
      | input bytes =>
          obtain rfl := Option.some.inj hmb
          exact hsent bytes hm
      | shutdown | resize => cases hmb
  · intro cur hcur
    exact h.busy.current cur (by simpa only [drainRecvChannel, hwriting] using hcur)

theorem WriteInv.step {w w' : WriteWorld} {op : WriteOp} (h : WriteInv w) (hok : SendsNonempty w op)
    (hw : writeStep w op = some w') : WriteInv w' := by
  cases op with
  | send msg =>
      cases hw
      refine ⟨?_, h.bytes, h.busy, ?_⟩
      · simp [h.order, PeekableReceiver.queued]
      · intro bytes hb
        rcases List.mem_append.mp hb with hb | hb
        · exact h.nonempty bytes hb
        · obtain rfl := List.mem_singleton.mp hb
          exact hok
  | peek =>
      cases hw
      exact ⟨by simpa using h.order, h.bytes, h.busy, h.nonempty⟩
  | drain => exact h.drain hw
  | write answers =>
      simp only [writeStep, Option.map_eq_some_iff] at hw
      obtain ⟨⟨b, t, out, left⟩, hrun, rfl⟩ := hw
      obtain ⟨hpend, hbusy⟩ := ptyWrite_spec h.busy hrun
      refine ⟨h.order, ?_, hbusy, h.nonempty⟩
      show _ = w.accepted ++ out ++ t.pending
      rw [h.bytes, ← hpend, List.append_assoc]

/-- In every run the accepted bytes followed by the pending ones are the drained
inputs in send order, and `needs_write` says whether anything is pending. -/
theorem writes_exact {w : WriteWorld} (h : Reaches writeStep SendsNonempty .start w) :
    w.drained <+: w.sent ∧ inputBytes w.drained = w.accepted ++ w.state.pending ∧
      (w.state.needsWrite = true ↔ w.state.pending ≠ []) := by
  have hinv := h.invariant WriteInv.start fun _ _ _ => WriteInv.step
  exact ⟨⟨_, hinv.order.symm⟩, hinv.bytes, hinv.busy.needsWrite_iff⟩

/-- A short write under back-pressure: one byte of two is accepted. -/
theorem writes_exact_short :
    let w : WriteWorld :=
      ⟨⟨[], none⟩, ⟨[], some ⟨[1, 2], 1⟩⟩, [.input [1, 2]], [.input [1, 2]], [1]⟩
    w.drained <+: w.sent ∧ inputBytes w.drained = w.accepted ++ w.state.pending ∧
      (w.state.needsWrite = true ↔ w.state.pending ≠ []) :=
  writes_exact
    (.step (a := .write [.ok 1, .wouldBlock])
      (.step (a := .drain)
        (.step (a := .peek)
          (.step (a := .send (.input [1, 2])) .refl (List.cons_ne_nil 1 [2]) rfl) trivial rfl) trivial rfl)
      trivial rfl)

end Velacritty.EventLoop
