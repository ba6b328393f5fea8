/-
Sioxx.EngineIO.PollLoop — the loop of `http_polling_transport` that reads.

The transport makes one GET request after the other and delivers the
packets of each answer. There are two loops:

  * with threads of its own, `run` makes blocking requests; an exception,
    from a request or from a handler, ends the session with `fail`;
  * on a caller-owned `io_context`, `poll_external` starts a request, whose
    completion handler delivers the body and starts the next one. An
    exception in there leaves through `io_context::run`.

`LoopPc` is the place in either. Each read of `closing_` and each call of a
handler is a step of its own, and `close` or `fail` of the writing side may
come between any two of them; on the strand they come only between two
handlers, or `close` from inside a handler of the application.

The handlers are all set, and `connect` is called once. How a request is
made and answered is left out. `fail` and `close` are here with what the
loop sees of them: who wins `closing_` runs the handlers later (`pending`),
or at once on the strand.

A handler may throw. From the open or message handler the exception goes to
`run`, or through `io_context::run`. An error handler that throws takes the
call of the close handler with it, in the `fail` of the loop and in the one
of the writing side (`interrupted`); out of the catch block of `run` or
`post` it ends the process, and the run is over. The close handler comes
last, and its exceptions are left out.

`bodies`, `log` and `late` are history: the bodies that were given to
`deliver`, the requests and the calls of handlers in their order, and how
many calls of the open or message handler were made with `closing_` set.
-/
import Sioxx.EngineIO.PollingSession

namespace Sioxx

open Lib

inductive PollReply where
  | response (status : Nat) (body : Bytes)
  /-- The request failed, with this text. -/
  | error (what : Bytes)
  deriving DecidableEq, Repr

inductive PollEvent where
  /-- A GET request. -/
  | get (target : Bytes)
  | opened
  | message (payload : Bytes) (isBinary : Bool)
  | failed (message : Bytes)
  | closed (reason : Bytes)
  deriving DecidableEq, Repr

/-- Where the loop is. The flag of a request says whether it is the
handshake. -/
inductive LoopPc where
  | idle
  /-- The thread in `run` has started, or `start_external` is posted. -/
  | started
  | requesting (handshake : Bool)
  | answered (handshake : Bool) (reply : PollReply)
  /-- Before the open handler. -/
  | opening (body : Bytes)
  /-- In the open handler. -/
  | opened (body : Bytes)
  /-- In `deliver`, before `closing_` is read. -/
  | reading (rest : List Bytes)
  /-- Before the message handler. -/
  | passing (payload : Bytes) (isBinary : Bool) (rest : List Bytes)
  /-- In the message handler. -/
  | handling (rest : List Bytes)
  /-- In `fail`, before the exchange. -/
  | failing (message : Bytes)
  /-- Before the error handler. -/
  | reporting (message : Bytes)
  /-- In the error handler, before the close handler. -/
  | reported (message : Bytes)
  | ended
  deriving DecidableEq, Repr

namespace LoopPc

/-- Can `close` come here on the strand? -/
def admitsClose : LoopPc → Bool
  | .opening _ => false
  | .reading _ => false
  | .passing _ _ _ => false
  | .failing _ => false
  | .reporting _ => false
  | _ => true

/-- Is no handler of the loop running on the strand? -/
def offStrand : LoopPc → Bool
  | .idle => true
  | .started => true
  | .requesting _ => true
  | .answered _ _ => true
  | .ended => true
  | _ => false

end LoopPc

/-- `poll_target` -/
def pollTarget (target sid : Bytes) : Bytes :=
  target ++ (if byteOf '?' ∈ target then ascii "&sid=" else ascii "?sid=") ++ sid

/-- The call of the message handler that a packet of a body causes. -/
def packetCall (packet : Bytes) : Option Write :=
  if packet.head? = some (byteOf 'b') then (pollingDecodeBinary packet).map (·, true)
  else some (packet, false)

structure PollLoop where
  mode : PollingMode
  target : Bytes
  transport : PollingTransport := {}
  state : TransportState := .closed
  closing : Bool := false
  shutdownOnce : Bool := false
  pc : LoopPc := .idle
  /-- The handlers that the winner of `closing_` will run. -/
  pending : List PollEvent := []
  /-- Has an exception left through `io_context::run`? -/
  escaped : Bool := false
  /-- Has the error handler thrown? -/
  interrupted : Bool := false
  bodies : List Bytes := []
  log : List PollEvent := []
  late : Nat := 0
  deriving DecidableEq, Repr

namespace PollLoop

inductive Action where
  | connect
  /-- `run` or `start_external` begins. -/
  | start
  | answer (reply : PollReply)
  /-- The next step of the loop. -/
  | turn
  /-- The handler that is running throws. -/
  | throw (what : Bytes)
  /-- `close`, on the strand if there is one. -/
  | close
  /-- `fail` of the writing side. -/
  | fail (message : Bytes)
  /-- The same on the strand, where the error handler throws. -/
  | failThrowing (message : Bytes)
  /-- The winner of `closing_` runs its next handler. -/
  | notify
  /-- It runs the error handler, which throws. -/
  | notifyThrowing
  deriving DecidableEq, Repr

def goto (s : PollLoop) (pc : LoopPc) : PollLoop := { s with pc }

def request (s : PollLoop) (handshake : Bool) (target : Bytes) : PollLoop :=
  { s with pc := .requesting handshake, log := s.log ++ [.get target] }

/-- A call of the open or the message handler. -/
def call (s : PollLoop) (event : PollEvent) (pc : LoopPc) : PollLoop :=
  { s with pc, log := s.log ++ [event], late := if s.closing then s.late + 1 else s.late }

/-- The loop leaves, or goes on if `closing_` is not set. -/
def unlessClosing (s : PollLoop) (next : PollLoop) : PollLoop :=
  if s.closing then s.goto .ended else next

/-- An exception. -/
def raise (s : PollLoop) (what : Bytes) : PollLoop :=
  match s.mode with
  | .managed => s.unlessClosing (s.goto (.failing (ascii "polling transport: " ++ what)))
  | .callerOwned => { s with pc := .ended, escaped := true }

/-- The error handler has thrown. `fail` has set `closing_`, so `run` only
returns; on the strand the exception leaves. -/
def abandon (s : PollLoop) : PollLoop :=
  { s with pc := .ended, interrupted := true, escaped := s.escaped || s.mode = .callerOwned }

/-- The packets of a body. -/
def deliver (s : PollLoop) (body : Bytes) : PollLoop :=
  { s with pc := .reading (pollingSplitPayload body), bodies := s.bodies ++ [body] }

def returnedHttp (handshake : Bool) (status : Nat) : Bytes :=
  (if handshake then ascii "polling handshake" else ascii "polling request") ++
    (ascii " returned HTTP " ++ decimal status)

/-- A response, when `closing_` has been read as far as it is. -/
def respond (s : PollLoop) (handshake : Bool) (status : Nat) (body : Bytes) : PollLoop :=
  if status / 100 ≠ 2 then s.goto (.failing (returnedHttp handshake status))
  else if handshake then { s with state := .open, pc := .opening body }
  else s.deliver body

def answeredStep (s : PollLoop) (handshake : Bool) (reply : PollReply) : PollLoop :=
  match reply, s.mode with
  | .error what, .managed => s.raise what
  | .error what, .callerOwned =>
    s.unlessClosing (s.goto (.failing (ascii "polling transport: " ++ what)))
  | .response status body, .managed =>
    -- `run` does not read `closing_` before the handshake is through
    if handshake then s.respond true status body
    else s.unlessClosing (s.respond false status body)
  | .response status body, .callerOwned => s.unlessClosing (s.respond handshake status body)

/-- One packet of `deliver`, when `closing_` was clear. -/
def readPacket (T : JsonText) (what : JsonError → Bytes) (s : PollLoop) (packet : Bytes)
    (rest : List Bytes) : PollLoop :=
  match s.transport.noteHandshake T packet with
  | .error e => s.raise (what e)
  | .ok transport =>
    let s := { s with transport }
    match packetCall packet with
    | none => s.goto (.reading rest)
    | some (payload, isBinary) => s.goto (.passing payload isBinary rest)

/-- The first `closing_.exchange(true)`; the handlers `events` are now to be
run. On the strand they run at once. -/
def claim (s : PollLoop) (events : List PollEvent) : PollLoop :=
  let s := { s with closing := true, state := .closed }
  match s.mode with
  | .managed => { s with pending := s.pending ++ events }
  | .callerOwned => { s with log := s.log ++ events }

def turnStep (T : JsonText) (what : JsonError → Bytes) (s : PollLoop) : Option PollLoop :=
  match s.pc with
  | .answered handshake reply => some (s.answeredStep handshake reply)
  | .opening body => some (s.call .opened (.opened body))
  | .opened body => some (s.unlessClosing (s.deliver body))
  | .reading [] => some (s.unlessClosing (s.request false (pollTarget s.target s.transport.sid)))
  | .reading (packet :: rest) => some (s.unlessClosing (s.readPacket T what packet rest))
  | .passing payload isBinary rest => some (s.call (.message payload isBinary) (.handling rest))
  | .handling rest => some (s.goto (.reading rest))
  | .failing message =>
    some (s.unlessClosing { s with closing := true, state := .closed, pc := .reporting message })
  | .reporting message =>
    some { s with pc := .reported message, log := s.log ++ [.failed message] }
  | .reported message => some { s with pc := .ended, log := s.log ++ [.closed message] }
  | _ => none

def step (T : JsonText) (what : JsonError → Bytes) (s : PollLoop) : Action → Option PollLoop
  | .connect =>
    if s.closing then some s
    else if s.pc = .idle then some { s with state := .connecting, pc := .started }
    else none
  | .start => if s.pc = .started then some (s.request true s.target) else none
  | .answer reply =>
    match s.pc with
    | .requesting handshake => some (s.goto (.answered handshake reply))
    | _ => none
  | .turn => s.turnStep T what
  | .throw text =>
    match s.pc with
    | .opened _ => some (s.raise text)
    | .handling _ => some (s.raise text)
    | .reported _ => some s.abandon
    | _ => none
  | .close =>
    if s.mode = .callerOwned ∧ ¬ s.pc.admitsClose then none
    else if s.shutdownOnce then some s
    else
      let s := { s with shutdownOnce := true }
      some (if s.closing then { s with state := .closed } else s.claim [.closed (ascii "closed")])
  | .fail message =>
    if s.mode = .callerOwned ∧ ¬ s.pc.offStrand then none
    else if s.closing then some s
    else some (s.claim [.failed message, .closed message])
  | .failThrowing message =>
    if s.mode = .managed ∨ ¬ s.pc.offStrand ∨ s.closing then none
    else some { s.claim [.failed message] with interrupted := true, escaped := true }
  | .notify =>
    match s.pending with
    | [] => none
    | event :: pending => some { s with pending, log := s.log ++ [event] }
  | .notifyThrowing =>
    match s.pending with
    | .failed message :: _ =>
      some { s with pending := [], interrupted := true, log := s.log ++ [.failed message] }
    | _ => none

def init (mode : PollingMode) (target : Bytes) : PollLoop := { mode, target }

end PollLoop

end Sioxx
