/-
Sioxx.Client.Connections — one client over a sequence of Engine.IO
connections.

`engineio_` is replaced in `ensure_engineio`, from `connect`, from the
reconnect worker and from the polling fallback. The sockets and the parser
stay. What still belongs to a connection that has been replaced is kept
apart only by `is_current_engineio`, which is asked once, before a
callback does its work.

Connections are numbered in the order in which they are installed. An
action is one of the steps between which another thread can come:

* a frame is let in (`is_current_engineio`), decoded, dispatched; a close
  notification is let in, marks the sockets, schedules a worker; an error
  is let in and falls back to polling. What has been let in and is not
  finished is a `Delivery`. A connection reads one frame at a time. What
  is not let in changes nothing and is no action.
* `connect`, the worker and the fallback each have a step after which an
  installation is due, and the installation;
* `emit`, or the flush of its buffer, finds the socket connected and hands
  the packet over; `send_packet` takes `send_mutex_` and reads `engineio_`,
  and then writes the frames one by one to the connection it has read. What
  has been handed over and is not yet at `send_packet` is in `handedOver`.
  A frame that `engineio_client::send` drops, the connection being no longer
  open, is no action.

Where `connect` joins the worker, the model lets it go on: that only adds
runs. Whether a close notification schedules a worker also depends on the
attempts left (`Sioxx.Client.Reconnect`), and whether an error falls back
to polling on `is_open`; both are left open. `on_engineio_open` sends and
changes nothing here. The parser is a parameter, `decode`, in which an
exception is a frame without a packet. Which packets wait in a send buffer,
and what `connect`, `disconnect` and acknowledgements send, is left out.

`ackedOver`, `emissions`, `pendingFrom` and `dispatched` are history: the
connection of the acknowledgement that made a socket connected, the frames
written with the connection each went into, the connections of the frames
decoded since the last text frame or complete packet, and the packets
dispatched with the connections of their frames.
-/
import Sioxx.Client.Dispatch
import Sioxx.Lib.Run

namespace Sioxx

open Lib

structure NamespaceSocket where
  nsp : Bytes
  connected : Bool := false
  ackedOver : Option Nat := none

/-- `connected_ = false` -/
def NamespaceSocket.down (s : NamespaceSocket) : NamespaceSocket := { s with connected := false }

/-- `connected_ = true` for an acknowledgement received over `conn`; nothing
if it is set already. -/
def NamespaceSocket.up (s : NamespaceSocket) (conn : Nat) : NamespaceSocket :=
  if s.connected then s else { s with connected := true, ackedOver := some conn }

/-- A frame that `send_packet` wrote for a socket. -/
structure WrittenFrame where
  nsp : Bytes
  /-- The connection it went into. -/
  into : Nat
  /-- The connection on which the namespace was connected at that moment. -/
  connectedOn : Option Nat

/-- Something let in by `is_current_engineio` and not yet finished. -/
inductive Delivery where
  | frame (conn : Nat) (frame : Frame)
  /-- A decoded packet, with the connections of its frames. -/
  | packet (conn : Nat) (sources : List Nat) (packet : RawPacket)
  | closing (conn : Nat)
  /-- A close notification after its sockets are marked. -/
  | closed (conn : Nat)
  /-- An error, about to call `activate_polling_fallback`. -/
  | failing (conn : Nat)

/-- The connection a delivery is reading a frame of. -/
def Delivery.reads : Delivery → Option Nat
  | .frame conn _ => some conn
  | .packet conn _ _ => some conn
  | _ => none

structure Connections (P : Type) where
  parser : P
  forceHttpPolling : Bool := false
  intentionalClose : Bool := false
  usingPolling : Bool := false
  /-- How many connections have been installed. -/
  installed : Nat := 0
  current : Option Nat := none
  /-- Calls of `connect`, workers and fallbacks whose installation is due. -/
  connecting : Nat := 0
  workers : Nat := 0
  fallbacks : Nat := 0
  sockets : List NamespaceSocket := []
  inFlight : List Delivery := []
  handedOver : List Bytes := []
  /-- Who holds `send_mutex_`: the namespace of the packet being sent, and the
  connection read for it. -/
  sending : Option (Bytes × Nat) := none
  emissions : List WrittenFrame := []
  pendingFrom : List Nat := []
  dispatched : List (List Nat × RawPacket) := []

namespace Connections

inductive Action where
  | connect
  | connectInstall
  /-- `close()` sets its flag; it goes on with `disconnect`. -/
  | close
  | socket (nsp : Bytes)
  | disconnect (nsp : Bytes)
  | closeArrive (conn : Nat)
  | closeMark (i : Nat)
  | closeSchedule (i : Nat) (schedules : Bool)
  | workerInstall
  | errorArrive (conn : Nat)
  | errorFallBack (i : Nat)
  | fallbackInstall
  | frameArrive (conn : Nat) (frame : Frame)
  | frameDecode (i : Nat)
  | frameDispatch (i : Nat)
  /-- `send_or_buffer` or `flush_send_buffer` finds `connected_` set. -/
  | emit (nsp : Bytes)
  /-- `send_packet` on what was handed over. -/
  | sendPacket (i : Nat)
  /-- `engineio_client::send` finds the connection open. -/
  | writeFrame
  /-- `send_packet` releases `send_mutex_`. -/
  | sendReturn

variable {P : Type}

/-- The section of `ensure_engineio`. -/
def install (m : Connections P) : Connections P :=
  if m.intentionalClose then m
  else { m with current := some m.installed, installed := m.installed + 1 }

/-- `mark_connected` on the socket of a namespace, for a packet received
over `conn`. -/
def mark (sockets : List NamespaceSocket) (nsp : Bytes) (connected : Bool) (conn : Nat) :
    List NamespaceSocket :=
  sockets.map fun s =>
    if s.nsp = nsp then if connected then s.up conn else s.down else s

/-- A socket of the namespace reports connected. -/
def Reports (m : Connections P) (nsp : Bytes) : Prop :=
  ∃ s ∈ m.sockets, s.nsp = nsp ∧ s.connected = true

instance (m : Connections P) (nsp : Bytes) : Decidable (m.Reports nsp) :=
  inferInstanceAs (Decidable (∃ s ∈ m.sockets, s.nsp = nsp ∧ s.connected = true))

/-- The connection on which the namespace is connected. -/
def connectedOver (m : Connections P) (nsp : Bytes) : Option Nat :=
  (m.sockets.find? fun s => decide (s.nsp = nsp) && s.connected).bind (·.ackedOver)

/-- `send_packet` up to the call of `encode`; it returns at once without a
connection. -/
def sendPacket (m : Connections P) (i : Nat) (nsp : Bytes) : Connections P :=
  { m with handedOver := m.handedOver.eraseIdx i, sending := m.current.map (nsp, ·) }

/-- `engineio->send(payload, is_binary)` -/
def writeFrame (m : Connections P) (nsp : Bytes) (conn : Nat) : Connections P :=
  { m with emissions := m.emissions ++ [⟨nsp, conn, m.connectedOver nsp⟩] }

/-- The call `on_engineio_frame` makes for a packet. -/
def called (m : Connections P) (packet : RawPacket) : Option Dispatch :=
  if packet.nsp ∈ m.sockets.map (·.nsp) then dispatchPacket packet else none

/-- `on_engineio_frame` after the packet is decoded. -/
def dispatch (m : Connections P) (conn : Nat) (sources : List Nat) (packet : RawPacket) :
    Connections P :=
  match m.called packet with
  | none => m
  | some (.markConnected nsp connected) =>
    { m with sockets := mark m.sockets nsp connected conn,
             dispatched := m.dispatched ++ [(sources, packet)] }
  | some _ => { m with dispatched := m.dispatched ++ [(sources, packet)] }

variable (decode : P → Frame → Option RawPacket × P)

/-- `parser_->decode` on a frame received over `conn`. A text frame never
continues a packet. -/
def decodeFrame (m : Connections P) (i conn : Nat) (frame : Frame) : Connections P :=
  let sources := if frame.isBinary then m.pendingFrom ++ [conn] else [conn]
  match decode m.parser frame with
  | (none, parser) =>
    { m with parser, pendingFrom := sources, inFlight := m.inFlight.eraseIdx i }
  | (some packet, parser) =>
    { m with parser, pendingFrom := [], inFlight := m.inFlight.set i (.packet conn sources packet) }

def step (m : Connections P) : Action → Option (Connections P)
  | .connect =>
    some { m with intentionalClose := false, usingPolling := m.forceHttpPolling,
                  connecting := m.connecting + 1 }
  | .connectInstall =>
    if m.connecting = 0 then none else some { m.install with connecting := m.connecting - 1 }
  | .close => some { m with intentionalClose := true }
  | .socket nsp =>
    if nsp ∈ m.sockets.map (·.nsp) then some m
    else some { m with sockets := m.sockets ++ [{ nsp }] }
  | .disconnect nsp =>
    some { m with sockets := m.sockets.map fun s => if s.nsp = nsp then s.down else s }
  | .closeArrive conn =>
    if m.current = some conn then some { m with inFlight := m.inFlight ++ [.closing conn] }
    else none
  | .closeMark i =>
    match m.inFlight[i]? with
    | some (.closing conn) =>
      some { m with sockets := m.sockets.map NamespaceSocket.down,
                    inFlight := m.inFlight.set i (.closed conn) }
    | _ => none
  | .closeSchedule i schedules =>
    match m.inFlight[i]? with
    | some (.closed _) =>
      some { m with
        workers := if schedules && !m.intentionalClose then m.workers + 1 else m.workers
        inFlight := m.inFlight.eraseIdx i }
    | _ => none
  | .workerInstall =>
    if m.workers = 0 then none else some { m.install with workers := m.workers - 1 }
  | .errorArrive conn =>
    if m.current = some conn then some { m with inFlight := m.inFlight ++ [.failing conn] }
    else none
  | .errorFallBack i =>
    match m.inFlight[i]? with
    | some (.failing _) =>
      if m.intentionalClose || m.usingPolling then
        some { m with inFlight := m.inFlight.eraseIdx i }
      else
        some { m with usingPolling := true, fallbacks := m.fallbacks + 1,
                      inFlight := m.inFlight.eraseIdx i }
    | _ => none
  | .fallbackInstall =>
    if m.fallbacks = 0 then none else some { m.install with fallbacks := m.fallbacks - 1 }
  | .frameArrive conn frame =>
    if m.current = some conn && !(m.inFlight.filterMap Delivery.reads).contains conn then
      some { m with inFlight := m.inFlight ++ [.frame conn frame] }
    else none
  | .frameDecode i =>
    match m.inFlight[i]? with
    | some (.frame conn frame) => some (m.decodeFrame decode i conn frame)
    | _ => none
  | .frameDispatch i =>
    match m.inFlight[i]? with
    | some (.packet conn sources packet) =>
      some { m.dispatch conn sources packet with inFlight := m.inFlight.eraseIdx i }
    | _ => none
  | .emit nsp =>
    if m.Reports nsp then some { m with handedOver := m.handedOver ++ [nsp] } else none
  | .sendPacket i =>
    match m.sending, m.handedOver[i]? with
    | none, some nsp => some (m.sendPacket i nsp)
    | _, _ => none
  | .writeFrame =>
    match m.sending with
    | some (nsp, conn) => some (m.writeFrame nsp conn)
    | none => none
  | .sendReturn => if m.sending.isSome then some { m with sending := none } else none

end Connections

end Sioxx
