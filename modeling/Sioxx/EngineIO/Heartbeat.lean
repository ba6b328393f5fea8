/-
Sioxx.EngineIO.Heartbeat — the end of a session by heartbeat timeout.

Four threads can end an Engine.IO session: the heartbeat worker, the
thread that reads from the transport, the writing thread of the polling
transport, and an application thread in `engineio_client::close()`.
`Session` has where each of them is and what they share. The steps are
those of `engineio_client.cpp` and of the two transports at the points
where the threads can interleave:

  * a read or a packet is first checked against the transport's
    `closing_` and then handled;
  * whoever handles an OPEN or a CLOSE packet or the closure of the
    transport stops the heartbeat worker on the way, which means waiting
    for it if it is past its own wait;
  * the worker decides that the session timed out, and then calls
    `transport_->close()`.

What `close()` does differs. The WebSocket transport only sets `closing_`:
the completion of the cancelled read sees it and returns. The polling
transport calls its close handler itself if nobody has set `closing_`
before. With a caller-owned `io_context` it first posts itself to the
strand, where it runs between the handlers.

The fields from `timedOut` on are history. They start anew when the worker
decides: `closes` counts the calls of `on_close_`, `wasClosing` is how the
worker found `closing_`, `inHand` whether the reading thread had the end of
the session in hand at the worker's `transport_->close()`, `lateCloses`
counts the CLOSE packets handled, and `reopened` says that an OPEN packet
was handled with the close handler of the transport behind it and that the
application has not closed the client since.
-/
import Sioxx.Lib.Run

namespace Sioxx

inductive TransportKind where
  | websocket
  | polling
  | pollingExternal
  deriving DecidableEq, Repr

/-- What the reading thread can get. -/
inductive IoEvent where
  | openPacket
  | closePacket
  | otherMessage
  /-- A failed read or request. -/
  | failure
  deriving DecidableEq, Repr

inductive IoPc where
  | reading
  /-- `closing_` was clear; the handler is next. -/
  | received (event : IoEvent)
  /-- In `stop_heartbeat_timer`. -/
  | joining (event : IoEvent)
  | ended
  deriving DecidableEq, Repr

inductive WorkerPc where
  | waiting
  /-- The session timed out; `transport_->close()` is next. -/
  | decided
  /-- In `close()` of the polling transport, before its close handler. -/
  | notifying
  | done
  deriving DecidableEq, Repr

/-- The application thread in `engineio_client::close()`. -/
inductive CloserPc where
  | idle
  | closing
  | notifying
  | done
  deriving DecidableEq, Repr

/-- The writing thread of the polling transport. -/
inductive WriterPc where
  | writing
  /-- In `fail` with `closing_` set by it, before `on_close_`. -/
  | notifying
  | done
  deriving DecidableEq, Repr

structure Session where
  kind : TransportKind
  isOpen : Bool := false
  engineClosing : Bool := false
  transportClosing : Bool := false
  io : IoPc := .reading
  worker : WorkerPc := .done
  closer : CloserPc := .idle
  writer : WriterPc := .writing
  /-- Calls of `close()` waiting on the strand. -/
  posted : Nat := 0
  timedOut : Bool := false
  closes : Nat := 0
  wasClosing : Bool := false
  inHand : Bool := false
  lateCloses : Nat := 0
  reopened : Bool := false
  deriving DecidableEq, Repr

namespace Session

inductive Step where
  | receive (event : IoEvent)
  | handle
  | joined
  | decide
  | workerClose
  | workerNotify
  | applicationClose
  | applicationTransportClose
  | applicationNotify
  | writerFail
  | writerNotify
  | strandClose
  deriving DecidableEq, Repr

/-- Before the first OPEN packet. -/
def start (kind : TransportKind) : Session := { kind }

/-- The worker has returned, or waits and will see the request to stop. -/
def workerStops (s : Session) : Bool := s.worker == .waiting || s.worker == .done

/-- A worker that waits returns at the request to stop. -/
def stopWorker (s : Session) : WorkerPc := if s.worker = .waiting then .done else s.worker

def ioJoining (s : Session) : Bool :=
  match s.io with
  | .joining _ => true
  | _ => false

/-- The reading thread is past its check of `closing_` with a CLOSE packet
or a failed read. -/
def endInHand (s : Session) : Bool :=
  match s.io with
  | .received .closePacket => true
  | .joining .closePacket => true
  | .joining .failure => true
  | _ => false

/-- Another thread is between setting `closing_` and its call of `on_close_`. -/
def otherNotifying (s : Session) : Bool := s.closer == .notifying || s.writer == .notifying

/-- The handler of what was received, up to `stop_heartbeat_timer`. -/
def handleStep (s : Session) : Option Session :=
  match s.io with
  | .received .otherMessage => some { s with io := .reading }
  | .received .openPacket => some { s with io := .joining .openPacket }
  | .received .closePacket =>
    some { s with isOpen := false, io := .joining .closePacket,
                  lateCloses := s.lateCloses + 1 }
  | .received .failure =>
    if s.transportClosing then some { s with io := .ended }
    else
      -- `fail` of the polling transport sets `closing_`
      some { s with isOpen := false, transportClosing := s.kind != .websocket,
                    io := .joining .failure }
  | _ => none

/-- The rest of the handler. It does not wait for the worker if another
thread has taken the thread object to join it. -/
def joinedStep (s : Session) : Option Session :=
  if s.workerStops || s.otherNotifying then
    match s.io with
    | .joining .openPacket =>
      some { s with
        isOpen := true, io := .reading,
        worker := if s.engineClosing then s.stopWorker else .waiting,
        reopened := s.reopened || (s.transportClosing && !s.otherNotifying) }
    | .joining .closePacket =>
      some { s with io := .reading, worker := s.stopWorker, closes := s.closes + 1 }
    | .joining .failure =>
      some { s with io := .ended, worker := s.stopWorker, closes := s.closes + 1 }
    | _ => none
  else none

def step (s : Session) : Step → Option Session
  | .receive event =>
    if s.io = .reading then
      some { s with io := if s.transportClosing then .ended else .received event }
    else none
  | .handle => s.handleStep
  | .joined => s.joinedStep
  | .decide =>
    -- a thread that joins has asked the worker to stop
    if s.worker = .waiting && !s.engineClosing && !s.ioJoining && s.writer != .notifying then
      some { s with worker := .decided, timedOut := true, closes := 0,
                    wasClosing := s.transportClosing, inHand := false, lateCloses := 0,
                    reopened := false }
    else none
  | .workerClose =>
    if s.worker = .decided then
      match s.kind with
      | .websocket =>
        some { s with transportClosing := true, worker := .done, inHand := s.endInHand }
      | .polling =>
        some { s with transportClosing := true, inHand := s.endInHand,
                      worker := if s.transportClosing then .done else .notifying }
      | .pollingExternal =>
        some { s with posted := s.posted + 1, worker := .done, inHand := s.endInHand }
    else none
  | .workerNotify =>
    if s.worker = .notifying then
      some { s with isOpen := false, closes := s.closes + 1, worker := .done }
    else none
  | .applicationClose =>
    if s.closer = .idle then
      some { s with engineClosing := true, isOpen := false, closer := .closing,
                    reopened := false }
    else none
  | .applicationTransportClose =>
    if s.closer = .closing then
      match s.kind with
      | .websocket => some { s with transportClosing := true, closer := .done }
      | .polling =>
        some { s with transportClosing := true,
                      closer := if s.transportClosing then .done else .notifying }
      | .pollingExternal => some { s with posted := s.posted + 1, closer := .done }
    else none
  | .applicationNotify =>
    if s.closer = .notifying && (s.workerStops || s.ioJoining) then
      some { s with isOpen := false, closes := s.closes + 1, worker := s.stopWorker,
                    closer := .done }
    else none
  | .writerFail =>
    if s.kind = .polling && s.writer = .writing && !s.transportClosing then
      some { s with transportClosing := true, writer := .notifying }
    else none
  | .writerNotify =>
    if s.writer = .notifying && (s.workerStops || s.ioJoining) then
      some { s with isOpen := false, closes := s.closes + 1, worker := s.stopWorker,
                    writer := .done }
    else none
  | .strandClose =>
    if 0 < s.posted && (s.io = .reading || s.io = .ended) && s.workerStops then
      if s.transportClosing then some { s with posted := s.posted - 1 }
      else
        some { s with posted := s.posted - 1, transportClosing := true, isOpen := false,
                      closes := s.closes + 1, worker := s.stopWorker }
    else none

/-- The worker has found the session timed out, and everything that its
`transport_->close()` set in motion is over: the completions of cancelled
reads, the calls of `close()` posted to the strand, and the close handlers. -/
def Finished (s : Session) : Prop :=
  s.timedOut = true ∧ s.workerStops = true ∧ s.io = .ended ∧ s.posted = 0 ∧
    (s.closer = .idle ∨ s.closer = .done) ∧ s.otherNotifying = false

/-- The session has ended and said so once. -/
def ClosedOnce (s : Session) : Prop := s.isOpen = false ∧ s.closes = 1

/-- The timeout found the session in a state from which the transport
reports its end: on the WebSocket transport the reading thread has a CLOSE
packet or a failed read in hand at that moment; on the polling transport
`closing_` is clear and no CLOSE packet, nor an OPEN packet behind the close
handler, is handled any more. -/
def Reported (s : Session) : Prop :=
  if s.kind = .websocket then s.inHand = true
  else s.wasClosing = false ∧ s.lateCloses = 0 ∧ s.reopened = false

instance (s : Session) : Decidable s.Finished :=
  inferInstanceAs (Decidable (s.timedOut = true ∧ s.workerStops = true ∧ s.io = .ended ∧
    s.posted = 0 ∧ (s.closer = .idle ∨ s.closer = .done) ∧ s.otherNotifying = false))

instance (s : Session) : Decidable s.ClosedOnce :=
  inferInstanceAs (Decidable (s.isOpen = false ∧ s.closes = 1))

instance (s : Session) : Decidable s.Reported :=
  inferInstanceAs (Decidable (if s.kind = .websocket then s.inHand = true
    else s.wasClosing = false ∧ s.lateCloses = 0 ∧ s.reopened = false))

end Session

end Sioxx
