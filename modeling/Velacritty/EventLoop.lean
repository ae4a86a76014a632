import Velacritty.Fallible

/-! The I/O part of the PTY event loop: reading into the parser, draining the
message channel and writing to the PTY. Reader, writer and lock outcomes are
explicit inputs, one answer for each time the loop asks. -/
namespace Velacritty.EventLoop

/-- Max bytes to read from the PTY before forced terminal synchronization. -/
def readBufferSize : Nat := 0x100000

/-- Max bytes to read from the PTY while the terminal is locked. -/
def maxLockedRead : Nat := 65535

/-- What the loop uses of the escape sequence parser; the parser's state stands
together with the terminal it drives. -/
structure Processor (P : Type) where
  advance : P → List UInt8 → P
  syncBytesCount : P → Nat

/-- One answer of `Read::read`; `error` is every kind the loop does not retry. -/
inductive ReadResult where
  | ok (bytes : List UInt8)
  | interrupted
  | wouldBlock
  | error
  deriving DecidableEq, Repr

/-- One iteration's answers: the reader's, and that of `try_lock_unfair` if the
iteration asks for it. -/
structure ReadStep where
  read : ReadResult
  tryLock : Bool
  deriving DecidableEq, Repr

/-- What outlives a call of `pty_read`. `advanced` lists every byte handed to
`parser.advance`, `recording` is the ref-test copy. -/
structure ReadState (P : Type) where
  parser : P
  advanced : List UInt8
  recording : Option (List UInt8)
  wakeups : Nat
  deriving DecidableEq, Repr

/-- The locals of `pty_read`: the filled part of `buf`, the bytes parsed in this
call, and whether the terminal guard is held. -/
structure ReadLocals where
  unprocessed : List UInt8
  processed : Nat
  locked : Bool
  deriving DecidableEq, Repr

def ReadLocals.start : ReadLocals := ⟨[], 0, false⟩

/-- How an iteration of the read loop ends. -/
inductive ReadFlow (P : Type) where
  | next (l : ReadLocals) (s : ReadState P)
  | leave (l : ReadLocals) (s : ReadState P)
  | fail (s : ReadState P)

/-- The part of an iteration below the read: take the lock, then parse. The lock
is forced once the buffer is full. -/
def syncTerminal {P : Type} (vte : Processor P) (tryLock : Bool) (l : ReadLocals)
    (s : ReadState P) : ReadFlow P :=
  if l.locked || tryLock || decide (readBufferSize ≤ l.unprocessed.length) then
    let s' := { s with
      parser := vte.advance s.parser l.unprocessed
      advanced := s.advanced ++ l.unprocessed
      recording := s.recording.map (· ++ l.unprocessed) }
    let l' := ⟨[], l.processed + l.unprocessed.length, true⟩
    if maxLockedRead ≤ l'.processed then .leave l' s' else .next l' s'
  else .next l s

/-- One iteration of the loop. `Read::read` never fills more than the slice it
was given, so a longer answer has no behaviour. -/
def readIteration {P : Type} (vte : Processor P) (e : ReadStep) (l : ReadLocals)
    (s : ReadState P) : Option (ReadFlow P) :=
  match e.read with
  | .ok bytes =>
      if readBufferSize - l.unprocessed.length < bytes.length then none
      else if bytes = [] ∧ l.unprocessed = [] then some (.leave l s)
      else some (syncTerminal vte e.tryLock { l with unprocessed := l.unprocessed ++ bytes } s)
  | .interrupted | .wouldBlock =>
      if l.unprocessed = [] then some (.leave l s) else some (syncTerminal vte e.tryLock l s)
  | .error => some (.fail s)

/-- Queue terminal redraw unless all processed bytes were synchronized. -/
def wakeup {P : Type} (vte : Processor P) (l : ReadLocals) (s : ReadState P) : ReadState P :=
  if vte.syncBytesCount s.parser < l.processed ∧ 0 < l.processed then
    { s with wakeups := s.wakeups + 1 }
  else s

/-- The read loop on a trace of answers. `none` when the trace ends before the
call returns; otherwise whether it succeeded and the answers left over. -/
def readLoop {P : Type} (vte : Processor P) :
    List ReadStep → ReadLocals → ReadState P → Option (Bool × ReadState P × List ReadStep)
  | [], _, _ => none
  | e :: rest, l, s =>
      match readIteration vte e l s with
      | none => none
      | some (.next l' s') => readLoop vte rest l' s'
      | some (.leave l' s') => some (true, wakeup vte l' s', rest)
      | some (.fail s') => some (false, s', rest)

def ptyRead {P : Type} (vte : Processor P) (s : ReadState P) (trace : List ReadStep) :
    Option (Bool × ReadState P × List ReadStep) := readLoop vte trace .start s

/-- Calls of `pty_read` one after the other, each given exactly the answers it
consumes. A failed call does not stop the later ones. -/
def ptyReads {P : Type} (vte : Processor P) : ReadState P → List (List ReadStep) → Option (ReadState P)
  | s, [] => some s
  | s, trace :: traces =>
      match ptyRead vte s trace with
      | some (_, s', []) => ptyReads vte s' traces
      | _ => none

def delivered (trace : List ReadStep) : List UInt8 :=
  trace.flatMap fun e => match e.read with | .ok bytes => bytes | _ => []

/-! ### Channel and writer -/

structure WindowSize where
  numLines : UInt16
  numCols : UInt16
  cellWidth : UInt16
  cellHeight : UInt16
  deriving DecidableEq, Repr

/-- Messages that may be sent to the event loop. -/
inductive Msg where
  | input (bytes : List UInt8)
  | shutdown
  | resize (size : WindowSize)
  deriving DecidableEq, Repr

/-- The receiver: queued messages and the one taken out by `peek`. -/
structure PeekableReceiver where
  rx : List Msg
  peeked : Option Msg
  deriving DecidableEq, Repr

/-- The event loop keeps a sender itself, so `try_recv` is never disconnected. -/
def PeekableReceiver.tryRecv (r : PeekableReceiver) : Option Msg × PeekableReceiver :=
  (r.rx.head?, { r with rx := r.rx.tail })

def PeekableReceiver.peek (r : PeekableReceiver) : PeekableReceiver :=
  if r.peeked.isNone then { r.tryRecv.2 with peeked := r.tryRecv.1 } else r

def PeekableReceiver.recv (r : PeekableReceiver) : Option Msg × PeekableReceiver :=
  if r.peeked.isSome then (r.peeked, { r with peeked := none }) else r.tryRecv

/-- Tracks how much of a buffer has been written. -/
structure Writing where
  source : List UInt8
  written : Nat
  deriving DecidableEq, Repr

def Writing.new (c : List UInt8) : Writing := ⟨c, 0⟩
def Writing.advance (w : Writing) (n : Nat) : Writing := { w with written := w.written + n }
def Writing.remainingBytes (w : Writing) : List UInt8 := w.source.drop w.written
def Writing.finished (w : Writing) : Bool := decide (w.source.length ≤ w.written)

structure State where
  writeList : List (List UInt8)
  writing : Option Writing
  deriving DecidableEq, Repr

def State.gotoNext (s : State) : State :=
  { writing := s.writeList.head?.map Writing.new, writeList := s.writeList.tail }

def State.ensureNext (s : State) : State := if s.writing.isNone then s.gotoNext else s

def State.takeCurrent (s : State) : Option Writing × State := (s.writing, { s with writing := none })

def State.needsWrite (s : State) : Bool := s.writing.isSome || !s.writeList.isEmpty

def State.setCurrent (s : State) (new : Option Writing) : State := { s with writing := new }

/-- Drain the channel; `false` when a shutdown message was received. The last
component lists the sizes passed to `on_resize`. The fuel is the number of
messages that can still be received. -/
def drainLoop : Nat → PeekableReceiver → State → Bool × PeekableReceiver × State × List WindowSize
  | 0, r, s => (true, r, s, [])
  | n + 1, r, s =>
      match r.recv with
      | (none, r') => (true, r', s, [])
      | (some (.input bytes), r') => drainLoop n r' { s with writeList := s.writeList ++ [bytes] }
      | (some (.resize size), r') =>
          let (b, r'', s', sizes) := drainLoop n r' s
          (b, r'', s', size :: sizes)
      | (some .shutdown, r') => (false, r', s, [])

def PeekableReceiver.size (r : PeekableReceiver) : Nat := r.rx.length + r.peeked.toList.length

def drainRecvChannel (r : PeekableReceiver) (s : State) :
    Bool × PeekableReceiver × State × List WindowSize := drainLoop (r.size + 1) r s

/-- One answer of `Write::write`. -/
inductive WriteResult where
  | ok (n : Nat)
  | interrupted
  | wouldBlock
  | error
  deriving DecidableEq, Repr

/-- The two nested write loops with the item in hand. Returns whether the call
succeeded, the state, the bytes the writer accepted and the answers left over;
`none` when the answers run out first or report more bytes than were offered. -/
def writeLoop : List WriteResult → Writing → State →
    Option (Bool × State × List UInt8 × List WriteResult)
  | [], _, _ => none
  | .ok n :: rest, current, s =>
      if n = 0 then some (true, s.setCurrent (some current), [], rest)
      else if current.remainingBytes.length < n then none
      else
        let accepted := current.remainingBytes.take n
        let current' := current.advance n
        if current'.finished then
          match s.gotoNext.takeCurrent with
          | (none, s') => some (true, s', accepted, rest)
          | (some next, s') =>
              (writeLoop rest next s').map fun (b, t, out, left) => (b, t, accepted ++ out, left)
        else (writeLoop rest current' s).map fun (b, t, out, left) => (b, t, accepted ++ out, left)
  | .interrupted :: rest, current, s | .wouldBlock :: rest, current, s =>
      some (true, s.setCurrent (some current), [], rest)
  | .error :: rest, current, s => some (false, s.setCurrent (some current), [], rest)

def ptyWrite (s : State) (answers : List WriteResult) :
    Option (Bool × State × List UInt8 × List WriteResult) :=
  match s.ensureNext.takeCurrent with
  | (none, s') => some (true, s', [], answers)
  | (some current, s') => writeLoop answers current s'

end Velacritty.EventLoop
