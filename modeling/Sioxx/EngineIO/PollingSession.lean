/-
Sioxx.EngineIO.PollingSession — the life of an `http_polling_transport`
around its writes: sends before it is open, and the packet that ends the
session.

The writes themselves are those of `PollingWrites.lean`, which take it
that the transport is open. Here `send` tests `state_` first, when it is
called or, on a caller-owned `io_context`, when its handler runs.

`close` sets `closing_` and, if there is a session id, makes a POST
request with the packet `1`:

  * with threads of its own the transport reads the session id a little
    later and leaves the request to a thread of its own, while the thread
    in `run_writes` goes on with what is queued;
  * on the strand the queue is cleared and the requests are cancelled, and
    then the request is started.

A cancelled request ends with an error, whether it was being resolved or
had a connection. Only a resolution that has completed, and whose handler
is still to run, is not stopped by it: that request goes on to connect.
`stage` is that of the one asynchronous request for a write there can be.

The fields from `processed` on are history. `sources` gives for each
accepted write the number of its send; `leftAtClose` counts the other POST
requests that were in flight or to come when the close packet was posted,
and `afterClose` those that went out afterwards.
-/
import Sioxx.EngineIO.PollingWrites

namespace Sioxx

open Lib

inductive TransportState where
  | closed
  | connecting
  | open
  | closing
  deriving DecidableEq, Repr

/-- How far an asynchronous request is. -/
inductive RequestStage where
  | resolving
  /-- The handler of the resolution is still to run. -/
  | resolved
  | exchanging
  | cancelled
  deriving DecidableEq, Repr

def RequestStage.cancel : RequestStage → RequestStage
  | .resolved => .resolved
  | _ => .cancelled

/-- How far `close` is with the packet that ends the session. -/
inductive ClosePacket where
  | notCalled
  /-- Before `sid_` is read. -/
  | reading
  /-- The thread is there, before its request. -/
  | spawned
  | posted
  /-- There was no session. -/
  | noSession
  deriving DecidableEq, Repr

/-- A `send` that was processed, and whether the transport was open. -/
structure PolledSend where
  write : Write
  wasOpen : Bool
  deriving DecidableEq, Repr

structure PollingSession where
  writes : PollingWrites
  state : TransportState := .closed
  /-- Is `sid_` not empty? -/
  hasSid : Bool := false
  /-- The handshakes that have not been answered. -/
  handshakes : Nat := 0
  /-- A thread in `deliver` is about to set `sid_`. -/
  delivering : Bool := false
  /-- Calls of `send` posted to the strand. -/
  posted : List Write := []
  stage : RequestStage := .resolving
  shutdownOnce : Bool := false
  closePacket : ClosePacket := .notCalled
  processed : List PolledSend := []
  sources : List Nat := []
  leftAtClose : Nat := 0
  afterClose : Nat := 0
  deriving DecidableEq, Repr

namespace PollingSession

inductive Action where
  | connect
  /-- The handshake is answered with a status 2xx. -/
  | opened
  /-- `deliver` comes to an OPEN packet. -/
  | openPacket
  | setSid (nonempty : Bool)
  | send (payload : Bytes) (isBinary : Bool)
  /-- The next posted `send` runs on the strand. -/
  | strandSend
  | takeWrite
  | startRequest
  | clearQueue
  | requestResolved
  /-- The handler of the resolution runs. -/
  | requestConnects
  | respond (success : Bool)
  /-- `fail` of the polling side. -/
  | fail
  /-- `close`, on the strand if there is one. -/
  | close
  | closeRead
  /-- The thread for the close packet makes its request. -/
  | closePost
  deriving DecidableEq, Repr

def start (mode : PollingMode) : PollingSession where
  writes := PollingWrites.start mode

def mode (s : PollingSession) : PollingMode := s.writes.mode

/-- The writes have made a step. A new request begins with its resolution,
and `fail` also sets `state_`. -/
def withWrites (s : PollingSession) (writes : PollingWrites) : PollingSession :=
  { s with
    writes
    stage := if s.writes.bodies.length < writes.bodies.length then .resolving else s.stage
    state := if writes.closing && !s.writes.closing then .closed else s.state }

def writeStep (s : PollingSession) (a : PollingWrites.Action) : Option PollingSession :=
  (s.writes.step a).map s.withWrites

/-- What `send` does with a write on an open transport. -/
def queueWrite (s : PollingSession) (write : Write) : Option PollingWrites :=
  match s.mode with
  | .managed => s.writes.step (.send write.1 write.2)
  | .callerOwned => run PollingWrites.step s.writes [.send write.1 write.2, .strandSend]

/-- `send`, when it tests the state. -/
def sendStep (s : PollingSession) (write : Write) : Option PollingSession :=
  let wasOpen := s.state == .open
  let s' := { s with processed := s.processed ++ [⟨write, wasOpen⟩] }
  if s.writes.closing || !wasOpen then some s'
  else
    (s.queueWrite write).map fun writes =>
      { s'.withWrites writes with sources := s.sources ++ [s.processed.length] }

/-- The POST requests for writes that are in flight or still to come. -/
def pendingPosts (s : PollingSession) : Nat :=
  s.writes.writeQueue.length + s.writes.writer.held.toList.length + s.writes.writer.inFlight +
    if s.stage = .cancelled then 0 else s.writes.externalRequests

/-- The request with the close packet starts. -/
def postClose (s : PollingSession) : PollingSession :=
  { s with closePacket := .posted, leftAtClose := s.leftAtClose + s.pendingPosts }

/-- The shutdown in `close`. -/
def closeStep (s : PollingSession) : Option PollingSession :=
  if s.shutdownOnce then some s
  else
    (s.writes.step .close).map fun writes =>
      let s' := { s with writes, state := .closed, shutdownOnce := true }
      match s.mode with
      | .managed => { s' with closePacket := .reading }
      | .callerOwned =>
        let s' := { s' with stage := s.stage.cancel }
        if s.hasSid then s'.postClose else { s' with closePacket := .noSession }

/-- A write goes out; `afterClose` counts it if the close packet was
first. -/
def countAfterClose (s : PollingSession) : PollingSession :=
  if s.closePacket = .posted then { s with afterClose := s.afterClose + 1 } else s

def step (s : PollingSession) : Action → Option PollingSession
  | .connect =>
    if s.writes.closing then some s
    else some { s with state := .connecting, handshakes := s.handshakes + 1 }
  | .opened =>
    if s.handshakes = 0 then none
    else
      let s' := { s with handshakes := s.handshakes - 1 }
      match s.mode with
      | .managed => some { s' with state := .open }
      | .callerOwned => some (if s.writes.closing then s' else { s' with state := .open })
  | .openPacket => some (if s.writes.closing then s else { s with delivering := true })
  | .setSid nonempty =>
    if s.delivering then some { s with delivering := false, hasSid := nonempty } else none
  | .send payload isBinary =>
    match s.mode with
    | .managed => s.sendStep (payload, isBinary)
    | .callerOwned => some { s with posted := s.posted ++ [(payload, isBinary)] }
  | .strandSend =>
    match s.posted with
    | [] => none
    | write :: posted => { s with posted }.sendStep write
  | .takeWrite => s.writeStep .takeWrite
  | .startRequest => (s.writeStep .startRequest).map countAfterClose
  | .clearQueue => s.writeStep .clearQueue
  | .requestResolved =>
    if s.writes.externalRequests ≠ 0 ∧ s.stage = .resolving then
      some { s with stage := .resolved }
    else none
  | .requestConnects =>
    if s.writes.externalRequests ≠ 0 ∧ s.stage = .resolved then
      some ({ s with stage := .exchanging } : PollingSession).countAfterClose
    else none
  | .respond success =>
    match s.mode with
    | .managed => s.writeStep (.respond success)
    | .callerOwned =>
      if success && s.stage != .exchanging then none else s.writeStep (.respond success)
  | .fail =>
    let cancelled :=
      if s.mode = .callerOwned ∧ s.writes.closing = false then { s with stage := s.stage.cancel }
      else s
    cancelled.writeStep .fail
  | .close => s.closeStep
  | .closeRead =>
    if s.closePacket = .reading then
      some { s with closePacket := if s.hasSid then .spawned else .noSession }
    else none
  | .closePost => if s.closePacket = .spawned then some s.postClose else none

end PollingSession

end Sioxx
