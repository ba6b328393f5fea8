/-
Sioxx.EngineIO.PollingWrites — the writes of `http_polling_transport`.

Each write is a POST request of its own, and a packet with attachments is
several writes, so they must go out in order and one after the other. The
transport has two ways to do this:

  * with threads of its own, `send` puts the write into `write_queue_` and
    the thread in `run_writes` takes one at a time and waits for the
    response;
  * on a caller-owned `io_context`, `send` posts to the strand, where the
    write is queued and `start_next_external_write` starts a request
    unless one is in progress; the completion starts the next one.

`PollingWrites` is an open transport with its writes. An action is one
critical section of `mutex_`, one handler on the strand, the start of a
request, or its completion. `fail` in the first mode is two actions, as
`closing_` is set before the queue is cleared.

The request itself, `state_` before it is open, and the request `close`
makes to end the session are left out. The fields from `sends` on are
history.
-/
import Sioxx.EngineIO.Polling
import Sioxx.Lib.Pump
import Sioxx.Lib.Run

namespace Sioxx

open Lib

/-- Who runs the transport. -/
inductive PollingMode where
  | managed
  | callerOwned
  deriving DecidableEq, Repr

/-- A payload and whether it is binary. -/
abbrev Write := Bytes × Bool

/-- The body of the POST request for a write. -/
def Write.body (write : Write) : Bytes :=
  if write.2 then pollingEncodeBinary write.1 else write.1

/-- The thread in `run_writes`. -/
inductive WritesPc where
  | waiting
  /-- In `post`, before the request. -/
  | holding (write : Write)
  | requesting
  | ended
  deriving DecidableEq, Repr

namespace WritesPc

def held : WritesPc → Option Write
  | .holding write => some write
  | _ => none

def inFlight : WritesPc → Nat
  | .requesting => 1
  | _ => 0

end WritesPc

structure PollingWrites where
  mode : PollingMode
  closing : Bool := false
  writeQueue : List Write := []
  writer : WritesPc := .waiting
  externalWriteInProgress : Bool := false
  /-- Asynchronous requests for writes that have not completed. -/
  externalRequests : Nat := 0
  /-- Calls of `send` posted to the strand. -/
  strand : List Write := []
  /-- A thread in `fail` is about to clear the queue. -/
  clearing : Bool := false
  sends : List Write := []
  accepted : List Write := []
  bodies : List Bytes := []
  deriving DecidableEq, Repr

namespace PollingWrites

inductive Action where
  | send (payload : Bytes) (isBinary : Bool)
  /-- The next posted `send` runs on the strand. -/
  | strandSend
  /-- The section of `run_writes`. -/
  | takeWrite
  | startRequest
  /-- The response to a POST, and whether it has a status 2xx. -/
  | respond (success : Bool)
  /-- `fail` of the polling side. -/
  | fail
  | clearQueue
  | close
  deriving DecidableEq, Repr

/-- An open transport without writes. -/
def start (mode : PollingMode) : PollingWrites where
  mode := mode
  writer := if mode = .managed then .waiting else .ended

/-- The section in which a write is queued. -/
def enqueue (s : PollingWrites) (write : Write) : PollingWrites :=
  if s.closing then s
  else { s with writeQueue := s.writeQueue ++ [write], accepted := s.accepted ++ [write] }

def startNextExternalWrite (s : PollingWrites) : PollingWrites :=
  if s.externalWriteInProgress || s.closing then s
  else
    match s.writeQueue with
    | [] => s
    | write :: rest =>
      { s with externalWriteInProgress := true, writeQueue := rest,
               bodies := s.bodies ++ [write.body], externalRequests := s.externalRequests + 1 }

/-- `fail` up to the section that clears the queue; on the strand it is
one handler. -/
def failStep (s : PollingWrites) : PollingWrites :=
  if s.closing then s
  else
    match s.mode with
    | .managed => { s with closing := true, clearing := true }
    | .callerOwned => { s with closing := true, writeQueue := [] }

def respondStep (s : PollingWrites) (success : Bool) : Option PollingWrites :=
  match s.mode with
  | .managed =>
    if s.writer = .requesting then
      let s := { s with writer := .waiting }
      some (if success then s else s.failStep)
    else none
  | .callerOwned =>
    if s.externalRequests = 0 then none
    else
      let s := { s with
        externalRequests := s.externalRequests - 1, externalWriteInProgress := false }
      some (if s.closing then s else if success then s.startNextExternalWrite else s.failStep)

def step (s : PollingWrites) : Action → Option PollingWrites
  | .send payload isBinary =>
    let s := { s with sends := s.sends ++ [(payload, isBinary)] }
    match s.mode with
    | .managed => some (s.enqueue (payload, isBinary))
    | .callerOwned => some { s with strand := s.strand ++ [(payload, isBinary)] }
  | .strandSend =>
    match s.strand with
    | [] => none
    | write :: strand =>
      let s := { s with strand }
      some (if s.closing then s else (s.enqueue write).startNextExternalWrite)
  | .takeWrite =>
    if s.writer = .waiting then
      match s.writeQueue with
      | [] => if s.closing then some { s with writer := .ended } else none
      | write :: rest => some { s with writer := .holding write, writeQueue := rest }
    else none
  | .startRequest =>
    match s.writer with
    | .holding write =>
      some { s with writer := .requesting, bodies := s.bodies ++ [write.body] }
    | _ => none
  | .respond success => s.respondStep success
  | .fail => some s.failStep
  | .clearQueue =>
    if s.clearing then some { s with writeQueue := [], clearing := false } else none
  | .close =>
    -- with threads of its own the transport still sends what is queued
    match s.mode with
    | .managed => some { s with closing := true }
    | .callerOwned => some { s with closing := true, writeQueue := [] }

/-- The POST requests for writes that are under way. -/
def inFlight (s : PollingWrites) : Nat := s.externalRequests + s.writer.inFlight

def pump (s : PollingWrites) : Pump Write Bytes where
  queue := s.writeQueue
  held := s.writer.held
  inFlight := s.inFlight
  stopped := s.closing
  accepted := s.accepted
  started := s.bodies

end PollingWrites

end Sioxx
