/-
Sioxx.EngineIO.WebSocketWrites — the write queue of `websocket_transport`
(`queue_write`, `pump_write_queue_plain`, `pump_write_queue_tls`).

Everything that touches the queue runs on the strand, one handler at a
time, but `closing_` may be set by another thread between two statements
of a handler. A handler is therefore cut where it reads `closing_` again,
and `strand` says where the running one is. The handlers are the posted
sends, the completions of `async_write` and of the resolver, and the
posted shutdown.

`async_write` is started with a buffer the payload was moved to, so the
entry stays at the front of the queue without its payload until the
completion takes it out: the payload of a queued write is `none` once it
has been moved from. The number of the send an entry comes from is not in
the code.

The two pumps are one definition over the stream they use. What a user
callback does on the strand is close the transport or nothing; what it
posts comes with the other threads. `connect` may be called again.

The fields from `processed` on are history.
-/
import Sioxx.EngineIO.PollingWrites

namespace Sioxx

open Lib

/-- An entry of `write_queue_`. -/
structure QueuedWrite where
  payload : Option Bytes
  isBinary : Bool
  send : Nat
  deriving DecidableEq, Repr

/-- Where the handler that runs on the strand is. -/
inductive StrandPc where
  | idle
  /-- Before the pump for the TLS or the plain stream. -/
  | pumping (tls : Bool)
  /-- In `fail`, after a write that failed. -/
  | failing
  deriving DecidableEq, Repr

/-- A send that was processed on the strand, and whether the transport had
a stream then. -/
structure ProcessedSend where
  write : Write
  hadStream : Bool
  deriving DecidableEq, Repr

structure WebSocketWrites where
  /-- `url_.tls` -/
  tls : Bool := false
  wsPlain : Bool := false
  wsTls : Bool := false
  closing : Bool := false
  shutdownOnce : Bool := false
  shutdownPosted : Bool := false
  writeQueue : List QueuedWrite := []
  writeInProgress : Bool := false
  /-- The writes that have not completed, by the stream they use. -/
  outstanding : List Bool := []
  strand : StrandPc := .idle
  posted : List Write := []
  /-- The resolutions under way, by the stream they lead to. -/
  resolving : List Bool := []
  processed : List ProcessedSend := []
  accepted : List QueuedWrite := []
  /-- What `async_write` was called with. -/
  written : List QueuedWrite := []
  deriving DecidableEq, Repr

namespace WebSocketWrites

inductive Action where
  | send (payload : Bytes) (isBinary : Bool)
  | connect (tls : Bool)
  /-- The completion of a resolution. -/
  | resolved (i : Nat) (success : Bool)
  /-- The next posted `send` runs, up to the pump. -/
  | strandSend
  | pump
  /-- The completion of a write, up to the pump or to `fail`. -/
  | complete (i : Nat) (success : Bool)
  /-- `fail` ends, perhaps by an exception of the error handler. -/
  | failed (throws : Bool)
  | close
  /-- `close` in a callback on the strand. -/
  | closeOnStrand
  | shutdown
  /-- `join_io_thread` destroys the streams. -/
  | resetStreams
  deriving DecidableEq, Repr

def hasStream (s : WebSocketWrites) (tls : Bool) : Bool := if tls then s.wsTls else s.wsPlain

def setStream (s : WebSocketWrites) (tls : Bool) : WebSocketWrites :=
  if tls then { s with wsTls := true } else { s with wsPlain := true }

/-- The pump for one of the streams. -/
def pumpWriteQueue (s : WebSocketWrites) (tls : Bool) : WebSocketWrites :=
  if s.closing then s
  else if !s.hasStream tls then { s with writeInProgress := false }
  else
    match s.writeQueue with
    | [] => { s with writeInProgress := false }
    | front :: rest =>
      { s with
        writeQueue := { front with payload := none } :: rest
        outstanding := s.outstanding ++ [tls]
        written := s.written ++ [front] }

def pumpWriteQueuePlain (s : WebSocketWrites) : WebSocketWrites := s.pumpWriteQueue false

def pumpWriteQueueTls (s : WebSocketWrites) : WebSocketWrites := s.pumpWriteQueue true

/-- The handler `queue_write` posts, up to the pump. -/
def queueWrite (s : WebSocketWrites) (write : Write) : WebSocketWrites :=
  let hadStream := s.wsPlain || s.wsTls
  let s' := { s with processed := s.processed ++ [⟨write, hadStream⟩] }
  if s.closing then s'
  else
    let entry : QueuedWrite := ⟨some write.1, write.2, s.processed.length⟩
    { s' with
      writeQueue := s.writeQueue ++ [entry]
      accepted := s.accepted ++ [entry]
      writeInProgress := true
      strand := if s.writeInProgress then .idle else .pumping s.tls }

/-- The completion of a write, up to the pump or to `fail`. -/
def completeWrite (s : WebSocketWrites) (tls success : Bool) : WebSocketWrites :=
  if s.closing then s
  else
    { s with
      writeQueue := s.writeQueue.tail
      strand := if success then .pumping tls else .failing }

def shutdownOnIoThread (s : WebSocketWrites) : WebSocketWrites :=
  { s with writeQueue := [], writeInProgress := false }

/-- `close`, on the strand or not. -/
def closeStep (s : WebSocketWrites) (onStrand : Bool) : WebSocketWrites :=
  if s.shutdownOnce then s
  else
    let s' := { s with closing := true, shutdownOnce := true }
    if onStrand then s'.shutdownOnIoThread else { s' with shutdownPosted := true }

def step (s : WebSocketWrites) : Action → Option WebSocketWrites
  | .send payload isBinary => some { s with posted := s.posted ++ [(payload, isBinary)] }
  | .connect tls =>
    if s.closing then some s else some { s with tls, resolving := s.resolving ++ [tls] }
  | .resolved i success =>
    match s.strand, s.resolving[i]? with
    | .idle, some tls =>
      let s' := { s with resolving := s.resolving.eraseIdx i }
      some (if s.closing || !success then s' else s'.setStream tls)
    | _, _ => none
  | .strandSend =>
    match s.strand, s.posted with
    | .idle, write :: posted => some ({ s with posted }.queueWrite write)
    | _, _ => none
  | .pump =>
    match s.strand with
    | .pumping tls =>
      let s' := { s with strand := .idle }
      some (if tls then s'.pumpWriteQueueTls else s'.pumpWriteQueuePlain)
    | _ => none
  | .complete i success =>
    match s.strand, s.outstanding[i]? with
    | .idle, some tls =>
      some ({ s with outstanding := s.outstanding.eraseIdx i }.completeWrite tls success)
    | _, _ => none
  | .failed throws =>
    match s.strand with
    | .failing =>
      some { s with strand := .idle, writeInProgress := throws && s.writeInProgress }
    | _ => none
  | .close => some (s.closeStep false)
  | .closeOnStrand =>
    match s.strand with
    | .pumping _ => none
    | _ => some (s.closeStep true)
  | .shutdown =>
    match s.strand with
    | .idle =>
      if s.shutdownPosted then some { s.shutdownOnIoThread with shutdownPosted := false } else none
    | _ => none
  | .resetStreams =>
    if s.closing && s.strand == .idle && s.outstanding.isEmpty then
      some { s with wsPlain := false, wsTls := false }
    else none

/-- The writes that have their payload. -/
def fresh (l : List QueuedWrite) : List QueuedWrite := l.filter (·.payload.isSome)

def writePump (s : WebSocketWrites) : Pump QueuedWrite QueuedWrite where
  queue := fresh s.writeQueue
  held := none
  inFlight := s.outstanding.length
  stopped := s.closing
  accepted := s.accepted
  started := s.written

end WebSocketWrites

end Sioxx
