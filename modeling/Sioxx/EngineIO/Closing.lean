/-
Sioxx.EngineIO.Closing — `engineio_client::close` against the threads that
are inside the client when it is called.

`close` claims `closing_`, clears `open_` and closes the transport. Three
kinds of thread can be past their tests by then:

  * the transport's own, with a message that got past the test of the
    transport's `closing_` before `close` set it. An OPEN packet then
    stores `open_ = true`, starts the heartbeat timer and calls `on_open_`;
    of these three only the timer looks at `closing_`.
  * a thread in `send`, between the test of `open_` and the call of the
    transport.
  * a second `close`, which returns at once when `closing_` is set, even if
    the first has not come to `open_` yet.

Every statement that reads or writes one of the flags is an action. The
transport either sets its own `closing_` inside `close()` or, if it is a
polling transport on a caller-owned `io_context`, posts that to its strand.
It may call the close handler at any time. What a handshake does to the
session before `open_` is set is `readHandshake`.

`returned`, `cleared`, `openedAfter` and `handedAfter` are history: whether
a `close` has returned, whether one has cleared `open_`, and the calls of
`on_open_` and the payloads `send` handed over after a return.
-/
import Sioxx.Lib.Run
import Sioxx.EngineIO.Client

namespace Sioxx

open Lib

namespace EngineIOClient

/-- Case `'0'` up to the session id: the client after it, and the session
id or the exception. -/
def readHandshake (c : EngineIOClient) (now : Nat) (handshake : Option Json) :
    EngineIOClient × Except JsonError Bytes :=
  let c := c.stopHeartbeatTimer
  match handshake with
  | none => ({ c with lastPong := now }, .ok [])
  | some v =>
    match v.value Json.getInt (ascii "pingInterval") 25000 with
    | .error e => (c, .error e)
    | .ok pingInterval =>
      let c := { c with pingIntervalMs := pingInterval }
      match v.value Json.getInt (ascii "pingTimeout") 20000 with
      | .error e => (c, .error e)
      | .ok pingTimeout =>
        let c := { c with pingTimeoutMs := pingTimeout, lastPong := now }
        (c, v.value Json.getString (ascii "sid") [])

theorem handleOpen_eq (c : EngineIOClient) (now : Nat) (handshake : Option Json) :
    c.handleOpen now handshake =
      match c.readHandshake now handshake with
      | (c', .ok sid) => c'.finishOpen sid
      | (c', .error e) => ⟨c', [], some e⟩ := by
  cases handshake with
  | none => rfl
  | some v =>
    simp only [handleOpen, readHandshake]
    cases v.value Json.getInt (ascii "pingInterval") 25000 with
    | error e => rfl
    | ok pingInterval =>
      cases v.value Json.getInt (ascii "pingTimeout") 20000 with
      | error e => rfl
      | ok pingTimeout => cases v.value Json.getString (ascii "sid") [] <;> rfl

/-- Reading a handshake leaves `open_` alone. -/
theorem readHandshake_isOpen (c : EngineIOClient) (now : Nat) (handshake : Option Json) :
    (c.readHandshake now handshake).1.isOpen = c.isOpen := by
  cases handshake with
  | none => rfl
  | some v =>
    simp only [readHandshake]
    cases v.value Json.getInt (ascii "pingInterval") 25000 with
    | error e => rfl
    | ok pingInterval =>
      cases v.value Json.getInt (ascii "pingTimeout") 20000 with
      | error e => rfl
      | ok pingTimeout => rfl

end EngineIOClient

/-- The handshake text of an OPEN packet. -/
def openText (payload : Bytes) (isBinary : Bool) : Option Bytes :=
  if isBinary then none
  else
    match payload with
    | [] => none
    | typeChar :: rest => if typeChar = byteOf '0' then some rest else none

inductive ClosingPc where
  | closeExchange
  | closeStop
  /-- Before `open_ = false`. -/
  | closeClear
  | closeTransport
  | closeReturn
  | openTest
  | openClear
  | sendTest (payload : Bytes) (isBinary : Bool)
  /-- Past the test of `open_`. -/
  | sendHand (payload : Bytes) (isBinary : Bool)
  /-- A message past the test of the transport's `closing_`. -/
  | handle (now : Nat) (payload : Bytes) (isBinary : Bool)
  /-- An OPEN packet, before `open_ = true`. -/
  | openStore (sid : Bytes)
  | openTimer
  | openNotify

/-- Has the thread set `open_` and not called `on_open_` yet? -/
def ClosingPc.announcing : ClosingPc → Bool
  | .openTimer => true
  | .openNotify => true
  | _ => false

/-- Is the thread about to hand a payload to the transport? -/
def ClosingPc.handing : ClosingPc → Bool
  | .sendHand _ _ => true
  | _ => false

structure Closing where
  /-- `close()` of the transport only posts. -/
  posts : Bool := false
  client : EngineIOClient := {}
  /-- The transport's `closing_`. -/
  transportClosing : Bool := false
  closePosted : Bool := false
  threads : List ClosingPc := []
  cleared : Bool := false
  returned : Bool := false
  openedAfter : Nat := 0
  handedAfter : List Effect := []

namespace Closing

inductive Action where
  | close
  | openUrl
  | send (payload : Bytes) (isBinary : Bool)
  /-- The transport tests its `closing_` and goes on with the message. -/
  | receive (now : Nat) (payload : Bytes) (isBinary : Bool)
  /-- The next statement of a thread. -/
  | go (i : Nat)
  /-- The close handler of the transport. -/
  | transportClose (reason : Bytes)
  /-- The strand runs the posted `close()`. -/
  | strandClose
  /-- The transport closes for a reason of its own. -/
  | transportStops

def begin (s : Closing) (pc : ClosingPc) : Closing := { s with threads := s.threads ++ [pc] }

def setThread (s : Closing) (i : Nat) (pc : ClosingPc) : Closing :=
  { s with threads := s.threads.set i pc }

def endThread (s : Closing) (i : Nat) : Closing := { s with threads := s.threads.eraseIdx i }

/-- `close` returns to its caller. -/
def returnClose (s : Closing) (i : Nat) : Closing := { s.endThread i with returned := true }

/-- A message in the handler. An OPEN packet is read, any other is handled
to its end. -/
def handleMessage (T : JsonText) (s : Closing) (i : Nat) (now : Nat) (payload : Bytes)
    (isBinary : Bool) : Closing :=
  match openText payload isBinary with
  | none =>
    { s.endThread i with client := (s.client.handleTransportMessage T now payload isBinary).client }
  | some text =>
    match s.client.readHandshake now (T.parse text) with
    | (client, .error _) => { s.endThread i with client }
    | (client, .ok sid) => { s.setThread i (.openStore sid) with client }

def goStep (T : JsonText) (s : Closing) (i : Nat) : Option Closing :=
  match s.threads[i]? with
  | none => none
  | some .closeExchange =>
    if s.client.closing then some (s.returnClose i)
    else some { s.setThread i .closeStop with client := { s.client with closing := true } }
  | some .closeStop =>
    some { s.setThread i .closeClear with
      client := { s.client with heartbeatStopRequested := true, heartbeat := false } }
  | some .closeClear =>
    some { s.setThread i .closeTransport with
      client := { s.client with isOpen := false }
      cleared := true }
  | some .closeTransport =>
    if s.client.transport then
      if s.posts then some { s.setThread i .closeReturn with closePosted := true }
      else some { s.setThread i .closeReturn with transportClosing := true }
    else some (s.setThread i .closeReturn)
  | some .closeReturn => some (s.returnClose i)
  | some .openTest =>
    if s.client.closing then some (s.endThread i) else some (s.setThread i .openClear)
  | some .openClear =>
    some { s.endThread i with client := { s.client with isOpen := false, sessionId := [] } }
  | some (.sendTest payload isBinary) =>
    if !s.client.transport || !s.client.isOpen then some (s.endThread i)
    else some (s.setThread i (.sendHand payload isBinary))
  | some (.sendHand payload isBinary) =>
    let effect : Effect :=
      if isBinary then .transportSend payload true
      else .transportSend (byteOf '4' :: payload) false
    some { s.endThread i with
      handedAfter := if s.returned then s.handedAfter ++ [effect] else s.handedAfter }
  | some (.handle now payload isBinary) => some (handleMessage T s i now payload isBinary)
  | some (.openStore sid) =>
    some { s.setThread i .openTimer with
      client := { s.client with sessionId := sid, isOpen := true } }
  | some .openTimer =>
    some { s.setThread i .openNotify with client := s.client.startHeartbeatTimer }
  | some .openNotify =>
    some { s.endThread i with
      openedAfter :=
        if s.client.onOpen && s.returned then s.openedAfter + 1 else s.openedAfter }

def step (T : JsonText) (s : Closing) : Action → Option Closing
  | .close => some (s.begin .closeExchange)
  | .openUrl => some (s.begin .openTest)
  | .send payload isBinary => some (s.begin (.sendTest payload isBinary))
  | .receive now payload isBinary =>
    if s.transportClosing then none else some (s.begin (.handle now payload isBinary))
  | .go i => goStep T s i
  | .transportClose reason =>
    some { s with client := (s.client.handleTransportClose reason).client }
  | .strandClose => if s.closePosted then some { s with transportClosing := true } else none
  | .transportStops => some { s with transportClosing := true }

/-- Once a `close` has returned, the client is not open, `on_open_` was not
called again and `send` handed nothing over. -/
def StaysClosed (s : Closing) : Prop :=
  s.returned = true → s.client.isOpen = false ∧ s.openedAfter = 0 ∧ s.handedAfter = []

/-- The statement that lets `close` return, at once or in the end. -/
def returns (s : Closing) : ClosingPc → Bool
  | .closeExchange => s.client.closing
  | .closeReturn => true
  | _ => false

/-- No OPEN packet sets `open_` after a `close` has cleared it. When a
`close` returns, `open_` has been cleared, also if another call does it; no
OPEN packet is between its store and `on_open_`, and no `send` between its
test and the transport. -/
def Settled (s : Closing) : Action → Prop
  | .go i => ∀ pc, s.threads[i]? = some pc →
      ((∃ sid, pc = .openStore sid) → s.cleared = false) ∧
      (s.returns pc = true → s.cleared = true ∧
        ∀ other ∈ s.threads, other.announcing = false ∧ other.handing = false)
  | _ => True

end Closing

end Sioxx
