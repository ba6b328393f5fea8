/-
Sioxx.EngineIO.WebSocketLoop — the chain of operations of a
`websocket_transport`, from the resolver to the read loop.

`connect` starts the chain on a thread of its own or on the caller's
strand; from there on both are the same. Each operation has a completion
handler on the strand, which reads `closing_`, looks at the result and
starts the next operation: `start_plain`, `start_tls`,
`establish_proxy_tunnel`, the two handshakes and `do_read_plain`,
`do_read_tls`. Plain and TLS chains differ in the TLS handshake and in when
the deadline is lifted.

Each read of `closing_`, each store to `state_` and each call of a handler
is a step of its own, since `close` on another thread may come in between.
On the strand one handler runs at a time: `failure` is the place in `fail`,
which the chain or a failed write may be in, and while it is set the chain
waits.

The handlers are all set, `connect` is called once with a URL that can be
parsed, and the writes are here with the error of a failed one only. An
exception of a handler leaves through `io_context::run`.

`completions`, `ops`, `log`, `writeErrors` and `late` are history: the
results that came in, the operations that were started, the calls of
handlers, the errors of writes, and how many calls were made with
`closing_` set.
-/
import Sioxx.EngineIO.PollingSession

namespace Sioxx

open Lib

inductive WsOp where
  | resolve
  | connect
  | proxyWrite
  | proxyRead
  | sslHandshake
  | handshake
  | read
  deriving DecidableEq, Repr

/-- How an operation completes. -/
inductive WsCompletion where
  | resolved
  /-- Resolved, but the server name cannot be set. -/
  | noServerName (text : Bytes)
  | connected
  | proxyWritten
  | proxyAnswered (status : Nat)
  | secured
  | upgraded
  | message (payload : Bytes) (isBinary : Bool)
  | error (op : WsOp) (text : Bytes)
  deriving DecidableEq, Repr

inductive WsEvent where
  | opened
  | message (payload : Bytes) (isBinary : Bool)
  | closed (reason : Bytes)
  | failed (what : Bytes)
  deriving DecidableEq, Repr

/-- Where the chain is. -/
inductive WsPc where
  | idle
  /-- The thread has started, or `start_plain` or `start_tls` is posted. -/
  | posted
  | pending (op : WsOp)
  /-- Before the completion handler reads `closing_`. -/
  | completed (c : WsCompletion)
  /-- Before `state_` is set to open. -/
  | greeting
  /-- Before the open handler. -/
  | opening
  /-- In the open handler. -/
  | opened
  /-- Before the message handler. -/
  | passing (payload : Bytes) (isBinary : Bool)
  /-- In the message handler. -/
  | handling
  /-- The read has failed: before `state_` is set to closed. -/
  | losing (reason : Bytes)
  /-- Before `closing_` is read once more. -/
  | lost (reason : Bytes)
  /-- Before the close handler. -/
  | parting (reason : Bytes)
  /-- In the close handler. -/
  | parted
  | ended
  deriving DecidableEq, Repr

/-- Where `fail` is. -/
inductive FailPc where
  /-- Before it reads `closing_`. -/
  | failing (what : Bytes)
  /-- Before `state_` is set to closed. -/
  | marking (what : Bytes)
  /-- Before the error handler. -/
  | reporting (what : Bytes)
  /-- In the error handler. -/
  | reported
  deriving DecidableEq, Repr

/-- How far `close` is. -/
inductive WsShutdown where
  | none
  /-- `closing_` is set and `state_` is not. -/
  | marked
  /-- `shutdown_on_io_thread` is posted. -/
  | posted
  | done
  deriving DecidableEq, Repr

namespace WsOp

def name : WsOp → Bytes
  | .resolve => ascii "resolve"
  | .connect => ascii "connect"
  | .proxyWrite => ascii "proxy write"
  | .proxyRead => ascii "proxy read"
  | .sslHandshake => ascii "ssl_handshake"
  | .handshake => ascii "handshake"
  | .read => ascii "read"

end WsOp

namespace WsCompletion

/-- The operation that completes so. -/
def op : WsCompletion → WsOp
  | .resolved => .resolve
  | .noServerName _ => .resolve
  | .connected => .connect
  | .proxyWritten => .proxyWrite
  | .proxyAnswered _ => .proxyRead
  | .secured => .sslHandshake
  | .upgraded => .handshake
  | .message _ _ => .read
  | .error op _ => op

/-- Only a TLS stream is told the server name. -/
def possible (tls : Bool) : WsCompletion → Bool
  | .noServerName _ => tls
  | _ => true

end WsCompletion

namespace WsPc

/-- Is no handler of the chain running on the strand? -/
def free : WsPc → Bool
  | .idle => true
  | .posted => true
  | .pending _ => true
  | .completed _ => true
  | .ended => true
  | _ => false

/-- Is a handler of the application running? -/
def inHandler : WsPc → Bool
  | .opened => true
  | .handling => true
  | .parted => true
  | _ => false

end WsPc

structure WebSocketLoop where
  /-- `url_.tls` -/
  tls : Bool
  /-- Is there a `proxy_`? -/
  proxied : Bool
  state : TransportState := .closed
  closing : Bool := false
  shutdown : WsShutdown := .none
  pc : WsPc := .idle
  failure : Option FailPc := none
  /-- Is there a `ws_plain_` or `ws_tls_`? -/
  stream : Bool := false
  /-- Do the 15 seconds of `expires_after` run? -/
  deadline : Bool := false
  /-- Has an exception left through `io_context::run`? -/
  escaped : Bool := false
  completions : List WsCompletion := []
  ops : List WsOp := []
  log : List WsEvent := []
  writeErrors : List Bytes := []
  late : Nat := 0
  deriving DecidableEq, Repr

namespace WebSocketLoop

inductive Action where
  | connect
  /-- `start_plain` or `start_tls` begins. -/
  | start
  | complete (c : WsCompletion)
  /-- The next step of the handler on the strand. -/
  | turn
  /-- The handler of the application that is running throws. -/
  | throw
  /-- A write completes with an error. -/
  | writeFails (text : Bytes)
  /-- `close` of another thread sets `closing_`. -/
  | close
  /-- It stores to `state_` and posts the shutdown. -/
  | postShutdown
  /-- `close` in a handler of the application. -/
  | closeInHandler
  | shutdown
  deriving DecidableEq, Repr

def goto (s : WebSocketLoop) (pc : WsPc) : WebSocketLoop := { s with pc }

/-- The next operation is started. -/
def begin (s : WebSocketLoop) (op : WsOp) : WebSocketLoop :=
  { s with pc := .pending op, ops := s.ops ++ [op] }

/-- The chain returns through `fail`. -/
def fails (s : WebSocketLoop) (what : Bytes) : WebSocketLoop :=
  { s with pc := .ended, failure := some (.failing what) }

/-- A call of a handler. -/
def call (s : WebSocketLoop) (event : WsEvent) : WebSocketLoop :=
  { s with log := s.log ++ [event], late := if s.closing then s.late + 1 else s.late }

/-- The handler on the strand returns, or goes on if `closing_` is not
set. -/
def unlessClosing (s : WebSocketLoop) (next : WebSocketLoop) : WebSocketLoop :=
  if s.closing then s.goto .ended else next

/-- `start_plain_handshake` or `start_tls_handshake`. -/
def startHandshake (s : WebSocketLoop) : WebSocketLoop :=
  s.begin (if s.tls then .sslHandshake else .handshake)

/-- A completion handler, past its read of `closing_`. -/
def proceed (s : WebSocketLoop) : WsCompletion → WebSocketLoop
  | .resolved => { s with stream := true, deadline := true }.begin .connect
  | .noServerName text => { s with stream := true }.fails (ascii "sni: " ++ text)
  | .connected =>
    -- `start_plain` lifts the deadline here, `start_tls` does not
    let s := { s with deadline := s.tls && s.deadline }
    if s.proxied then s.begin .proxyWrite else s.startHandshake
  | .proxyWritten => s.begin .proxyRead
  | .proxyAnswered status =>
    if status / 100 ≠ 2 then s.fails (ascii "proxy CONNECT returned HTTP " ++ decimal status)
    else s.startHandshake
  | .secured => { s with deadline := false }.begin .handshake
  | .upgraded => s.goto .greeting
  | .message payload isBinary => s.goto (.passing payload isBinary)
  | .error .read reason => s.goto (.losing reason)
  | .error op text => s.fails (op.name ++ ascii ": " ++ text)

/-- The next step of the chain. -/
def chainTurn (s : WebSocketLoop) : Option WebSocketLoop :=
  match s.pc with
  | .completed c => some (s.unlessClosing (s.proceed c))
  | .greeting => some { s with state := .open, pc := .opening }
  | .opening => some ((s.call .opened).goto .opened)
  | .opened => some (s.unlessClosing (s.begin .read))
  | .passing payload isBinary => some ((s.call (.message payload isBinary)).goto .handling)
  | .handling => some (s.unlessClosing (s.begin .read))
  | .losing reason => some { s with state := .closed, pc := .lost reason }
  | .lost reason => some (s.unlessClosing (s.goto (.parting reason)))
  | .parting reason => some ((s.call (.closed reason)).goto .parted)
  | .parted => some (s.goto .ended)
  | _ => none

/-- The next step of `fail`. -/
def failTurn (s : WebSocketLoop) : FailPc → WebSocketLoop
  | .failing what =>
    if s.closing then { s with failure := none } else { s with failure := some (.marking what) }
  | .marking what => { s with state := .closed, failure := some (.reporting what) }
  | .reporting what => { s.call (.failed what) with failure := some .reported }
  | .reported => { s with failure := none }

/-- `shutdown_on_io_thread`. -/
def shutdownOnIoThread (s : WebSocketLoop) : WebSocketLoop :=
  { s with state := .closed, shutdown := .done }

def step (s : WebSocketLoop) : Action → Option WebSocketLoop
  | .connect =>
    if s.closing then some s
    else if s.pc = .idle then some { s with state := .connecting, pc := .posted }
    else none
  | .start => if s.pc = .posted ∧ s.failure = none then some (s.begin .resolve) else none
  | .complete c =>
    if s.pc = .pending c.op ∧ c.possible s.tls then
      some { s with pc := .completed c, completions := s.completions ++ [c] }
    else none
  | .turn =>
    match s.failure with
    | some pc => some (s.failTurn pc)
    | none => s.chainTurn
  | .throw =>
    if s.failure = some .reported then some { s with failure := none, escaped := true }
    else if s.failure = none ∧ s.pc.inHandler then some { s with pc := .ended, escaped := true }
    else none
  | .writeFails text =>
    if s.stream ∧ s.failure = none ∧ s.pc.free then
      some (if s.closing then s
        else
          { s with
            failure := some (.failing (ascii "write: " ++ text))
            writeErrors := s.writeErrors ++ [ascii "write: " ++ text] })
    else none
  | .close =>
    if s.shutdown = .none then some { s with closing := true, shutdown := .marked } else some s
  | .postShutdown =>
    if s.shutdown = .marked then some { s with state := .closing, shutdown := .posted } else none
  | .closeInHandler =>
    if s.failure = some .reported ∨ s.failure = none ∧ s.pc.inHandler then
      match s.shutdown with
      | .none => some { s with closing := true }.shutdownOnIoThread
      | .marked => none
      | _ => some s
    else none
  | .shutdown =>
    if s.shutdown = .posted ∧ s.failure = none ∧ s.pc.free then some s.shutdownOnIoThread
    else none

def init (tls proxied : Bool) : WebSocketLoop := { tls, proxied }

end WebSocketLoop

end Sioxx
