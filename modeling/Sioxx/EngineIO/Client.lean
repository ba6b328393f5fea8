/-
Sioxx.EngineIO.Client — `engineio_client` and the events its transport
delivers to it (`engineio_client.cpp`).

`handleTransportMessage` and `handleTransportClose` are the two entry
points of a session. Each returns the client afterwards, what it did to
the outside, in order, and the exception that left it, if one did: a
throw in the middle keeps the changes made before it.

The fields `onFrame`, `onOpen`, `onClose` and `transport` say whether the
handler or the transport is set. The reading of the clock is an argument.
-/
import Sioxx.Json.Value

namespace Sioxx

open Lib

/-- A call that leaves the client. -/
inductive Effect where
  | frame (payload : Bytes) (isBinary : Bool)
  | opened
  | closed (reason : Bytes)
  | transportSend (payload : Bytes) (isBinary : Bool)
  deriving DecidableEq, Repr

structure EngineIOClient where
  onFrame : Bool := true
  onOpen : Bool := true
  onClose : Bool := true
  transport : Bool := true
  isOpen : Bool := false
  closing : Bool := false
  heartbeatStopRequested : Bool := true
  sessionId : Bytes := []
  pingIntervalMs : Int := 25000
  pingTimeoutMs : Int := 20000
  /-- Is there a heartbeat thread that was not told to stop? -/
  heartbeat : Bool := false
  lastPong : Nat := 0
  deriving DecidableEq, Repr

/-- How a call ended. -/
structure Handled where
  client : EngineIOClient
  effects : List Effect
  thrown : Option JsonError

namespace EngineIOClient

def startHeartbeatTimer (c : EngineIOClient) : EngineIOClient :=
  if !c.isOpen || c.closing then c
  else { c with heartbeatStopRequested := false, heartbeat := true }

def stopHeartbeatTimer (c : EngineIOClient) : EngineIOClient :=
  { c with heartbeatStopRequested := true, heartbeat := false }

def notifyClose (c : EngineIOClient) (reason : Bytes) : List Effect :=
  if c.onClose then [.closed reason] else []

/-- `handle_transport_close`. -/
def handleTransportClose (c : EngineIOClient) (reason : Bytes) : Handled :=
  let c := { c with isOpen := false }.stopHeartbeatTimer
  ⟨c, c.notifyClose reason, none⟩

/-! ## Calls of the owner -/

/-- `engineio_client::open`, up to the connect of the transport. -/
def openUrl (c : EngineIOClient) : EngineIOClient :=
  if c.closing then c else { c with isOpen := false, sessionId := [] }

/-- `engineio_client::close`, up to the close of the transport. -/
def close (c : EngineIOClient) : EngineIOClient :=
  if c.closing then c
  else
    { c with
      closing := true
      heartbeatStopRequested := true
      heartbeat := false
      isOpen := false }

/-- `engineio_client::send`. A text payload is a MESSAGE packet, a binary
one goes as it is. -/
def send (c : EngineIOClient) (payload : Bytes) (isBinary : Bool) : List Effect :=
  if !c.transport || !c.isOpen then []
  else if isBinary then [.transportSend payload true]
  else [.transportSend (byteOf '4' :: payload) false]

/-! ## The OPEN packet -/

/-- The part of case `'0'` after the handshake has been read. -/
def finishOpen (c : EngineIOClient) (sid : Bytes) : Handled :=
  let c := { c with sessionId := sid, isOpen := true }.startHeartbeatTimer
  ⟨c, if c.onOpen then [.opened] else [], none⟩

/-- Case `'0'`. A discarded handshake keeps the ping settings and clears
the session id; the members of any other are read in this order. -/
def handleOpen (c : EngineIOClient) (now : Nat) (handshake : Option Json) : Handled :=
  let c := c.stopHeartbeatTimer
  match handshake with
  | none => { c with lastPong := now }.finishOpen []
  | some v =>
    match v.value Json.getInt (ascii "pingInterval") 25000 with
    | .error e => ⟨c, [], some e⟩
    | .ok pingInterval =>
      let c := { c with pingIntervalMs := pingInterval }
      match v.value Json.getInt (ascii "pingTimeout") 20000 with
      | .error e => ⟨c, [], some e⟩
      | .ok pingTimeout =>
        let c := { c with pingTimeoutMs := pingTimeout, lastPong := now }
        match v.value Json.getString (ascii "sid") [] with
        | .error e => ⟨c, [], some e⟩
        | .ok sid => c.finishOpen sid

/-! ## Messages -/

/-- `handle_transport_message`. -/
def handleTransportMessage (T : JsonText) (c : EngineIOClient) (now : Nat) (payload : Bytes)
    (isBinary : Bool) : Handled :=
  if isBinary then ⟨c, if c.onFrame then [.frame payload true] else [], none⟩
  else
    match payload with
    | [] => ⟨c, [], none⟩
    | typeChar :: rest =>
      if typeChar = byteOf '0' then c.handleOpen now (T.parse rest)
      else if typeChar = byteOf '1' then
        let c := { c with isOpen := false }.stopHeartbeatTimer
        ⟨c, c.notifyClose (ascii "server closed connection"), none⟩
      else if typeChar = byteOf '2' then
        ⟨{ c with lastPong := now },
          if c.transport then [.transportSend (ascii "3") false] else [], none⟩
      else if typeChar = byteOf '3' then ⟨{ c with lastPong := now }, [], none⟩
      else if typeChar = byteOf '4' then
        ⟨c, if c.onFrame then [.frame rest false] else [], none⟩
      else ⟨c, [], none⟩

/-- What a transport can deliver. -/
inductive TransportEvent where
  | message (payload : Bytes) (isBinary : Bool)
  | close (reason : Bytes)
  deriving DecidableEq, Repr

def handleEvent (T : JsonText) (c : EngineIOClient) (now : Nat) : TransportEvent → Handled
  | .message payload isBinary => handleTransportMessage T c now payload isBinary
  | .close reason => c.handleTransportClose reason

/-- A sequence of events, each at its own reading of the clock; an
exception ends it. -/
def handleEvents (T : JsonText) : EngineIOClient → List (Nat × TransportEvent) → Handled
  | c, [] => ⟨c, [], none⟩
  | c, (now, event) :: rest =>
    let first := c.handleEvent T now event
    match first.thrown with
    | some e => ⟨first.client, first.effects, some e⟩
    | none =>
      let others := handleEvents T first.client rest
      { others with effects := first.effects ++ others.effects }

end EngineIOClient

/-! ## Handlers

The transports call a `message_handler` and a `close_handler`. In general
such a handler has a state and may throw; the client's own keep what it
does. -/

/-- The `n`-th call, with the payload and whether it is binary. -/
abbrev MessageHandler (σ : Type) := Nat → Bytes → Bool → σ → σ × Option JsonError

namespace EngineIOClient

def messageHandler (T : JsonText) (now : Nat → Nat) :
    MessageHandler (EngineIOClient × List Effect) :=
  fun n payload isBinary (c, effects) =>
    let handled := c.handleTransportMessage T (now n) payload isBinary
    ((handled.client, effects ++ handled.effects), handled.thrown)

def closeHandler (reason : Bytes) : EngineIOClient × List Effect → EngineIOClient × List Effect
  | (c, effects) =>
    let handled := c.handleTransportClose reason
    (handled.client, effects ++ handled.effects)

end EngineIOClient

end Sioxx
