/-
Sioxx.Socket.Socket — one namespace socket and the critical sections of
its mutex (`socket.hpp`, `socket.cpp`).

Every method of `socket` takes its decisions under `mutex_` and acts on
them after releasing it. This module has the part under the lock: each
function below is the body of one `lock_guard` scope, as a function of
the socket's fields, together with what the scope hands to the code after
it. `Machine.lean` lets threads interleave these sections, and
`Sioxx.Client.LockTrace` runs them in program order.

A callback is named by a number. The acknowledgement callback of an
emission gets the number of that emission, so that two emissions never
share one. A packet in the send path is an `Outgoing`: the packet of the
source with three annotations the code does not have, the number of the
emission, the thread that made it, and whether it is a timed one.

`next_ack_id_` is an unbounded integer: incrementing the C++ `int` past
its maximum is undefined.
-/
import Sioxx.Parser.JsonParser
import Sioxx.Socket.AckScheduler

namespace Sioxx

open Lib

/-- A packet on its way to `client_impl::send_packet`. -/
structure Outgoing where
  packet : Packet
  emission : Nat
  thread : Nat
  timed : Bool

inductive AckStatus where
  | acknowledged
  | timeout
  deriving DecidableEq, Repr

structure Socket where
  nsp : Bytes := ascii "/"
  connected : Bool := false
  listeners : AList (fun _ : Bytes => Nat) := ∅
  ackListeners : AList (fun _ : Bytes => Nat) := ∅
  anyListener : Option Nat := none
  anyAckListener : Option Nat := none
  pendingAcks : AList (fun _ : Int => Nat) := ∅
  timedAcks : AList (fun _ : Int => Nat) := ∅
  activeTimedAcks : Nat := 0
  timedAcksClosed : Bool := false
  sendBuffer : List Outgoing := []
  nextAckId : Int := 0
  flushingSendBuffer : Bool := false
  onConnect : Option Nat := none
  onDisconnect : Option Nat := none
  ackScheduler : AckScheduler := {}

namespace Socket

/-! ## Sections of the registration functions -/

/-- `on` with an `event_listener`. -/
def on (s : Socket) (event : Bytes) (listener : Nat) : Socket :=
  { s with listeners := s.listeners.insert event listener,
           ackListeners := s.ackListeners.erase event }

/-- `on` with an `ack_event_listener`. -/
def onAck (s : Socket) (event : Bytes) (listener : Nat) : Socket :=
  { s with ackListeners := s.ackListeners.insert event listener,
           listeners := s.listeners.erase event }

/-- `on_any` with an `event_listener`; an empty one is `none`. -/
def onAny (s : Socket) (listener : Option Nat) : Socket :=
  { s with anyListener := listener, anyAckListener := none }

/-- `on_any` with an `ack_event_listener`. -/
def onAnyAck (s : Socket) (listener : Option Nat) : Socket :=
  { s with anyAckListener := listener, anyListener := none }

def off (s : Socket) (event : Bytes) : Socket :=
  { s with listeners := s.listeners.erase event, ackListeners := s.ackListeners.erase event }

def offAll (s : Socket) : Socket :=
  { s with listeners := ∅, ackListeners := ∅, anyListener := none, anyAckListener := none }

/-! ## Building the packet of an emission -/

/-- The array `[event, args…]` all three overloads of `emit` build. -/
def eventData (event : Bytes) (data : Json) : Json :=
  match data with
  | .arr items => .arr (.str event :: items)
  | .null => .arr [.str event]
  | data => .arr [.str event, data]

def eventPacket (nsp event : Bytes) (data : Json) (id : Int) : Packet where
  type := .event
  nsp := nsp
  id := id
  data := eventData event data

/-- The array of the first two overloads, one `push_back` at a time. -/
def pushArguments (event : Bytes) (data : Json) : Json :=
  let arr := [] ++ [.str event]
  match data with
  | .arr items => .arr (items.foldl (fun arr v => arr ++ [v]) arr)
  | .null => .arr arr
  | data => .arr (arr ++ [data])

/-- The array of the timed overload: `json::array({event})`, and the
arguments inserted at its end. -/
def insertArguments (event : Bytes) (data : Json) : Json :=
  let arr := [.str event]
  match data with
  | .arr items => .arr (arr.take arr.length ++ items ++ arr.drop arr.length)
  | .null => .arr arr
  | data => .arr (arr ++ [data])

/-- The packet of `emit(event, data)`. -/
def emitPacket (nsp event : Bytes) (data : Json) : Packet where
  type := .event
  nsp := nsp
  data := pushArguments event data

/-- The packet of `emit(event, data, callback)`. -/
def emitAckPacket (nsp event : Bytes) (data : Json) (id : Int) : Packet where
  type := .event
  nsp := nsp
  id := id
  data := pushArguments event data

/-- The packet of `emit(event, data, timeout, callback)`. -/
def emitTimedPacket (nsp event : Bytes) (data : Json) (id : Int) : Packet where
  type := .event
  nsp := nsp
  id := id
  data := insertArguments event data

/-- `steady_clock::time_point::max()` for a 64-bit nanosecond clock. -/
def clockMax : Time := 2 ^ 63 - 1

/-- The deadline of a timed emission made at `now`; the timeout is in
milliseconds and saturates at the end of the clock's range. -/
def ackDeadline (now timeout : Nat) : Time :=
  if timeout ≥ (clockMax - now) / 1000000 then clockMax else now + timeout * 1000000

/-! ## Sections of `emit` -/

/-- The first section of `emit` with an acknowledgement. -/
def registerAck (s : Socket) (callback : Nat) : Int × Socket :=
  (s.nextAckId,
    { s with nextAckId := s.nextAckId + 1,
             pendingAcks := s.pendingAcks.insert s.nextAckId callback })

/-- `register_timed_ack`; `none` is the `std::logic_error` after shutdown. -/
def registerTimedAck (s : Socket) (deadline : Time) (callback : Nat) : Option (Int × Socket) :=
  if s.timedAcksClosed then none
  else
    some (s.nextAckId,
      { s with nextAckId := s.nextAckId + 1,
               timedAcks := emplace s.timedAcks s.nextAckId callback,
               ackScheduler := s.ackScheduler.add s.nextAckId deadline })

/-- The test both `send_or_buffer` and the timed `emit` make. -/
def mustBuffer (s : Socket) : Bool := !s.connected || s.flushingSendBuffer

def buffer (s : Socket) (out : Outgoing) : Socket :=
  { s with sendBuffer := s.sendBuffer ++ [out] }

/-! ## Sections of the acknowledgement paths -/

/-- `send_buffer_.erase(remove_if(.. buffered.id == id ..))` -/
def dropBuffered (s : Socket) (id : Int) : Socket :=
  { s with sendBuffer := s.sendBuffer.filter (fun b => b.packet.id ≠ id) }

/-- The section of `expire_ack`: the callback it claims. -/
def expireAck (s : Socket) (id : Int) : Option Nat × Socket :=
  match s.timedAcks.lookup id with
  | none => (none, s)
  | some callback =>
    (some callback,
      { s with timedAcks := s.timedAcks.erase id,
               activeTimedAcks := s.activeTimedAcks + 1 }.dropBuffered id)

/-- What `dispatch_ack` found under the lock. -/
inductive AckFound where
  | timed (callback : Nat) (expired : Bool)
  | plain (callback : Nat)
  | unknown

/-- The section of `dispatch_ack`. -/
def dispatchAck (s : Socket) (id : Int) (now : Time) : AckFound × Socket :=
  match s.timedAcks.lookup id with
  | some callback =>
    let (expired, ackScheduler) := s.ackScheduler.remove id now
    (.timed callback expired,
      { s with ackScheduler, activeTimedAcks := s.activeTimedAcks + 1,
               timedAcks := s.timedAcks.erase id }.dropBuffered id)
  | none =>
    match s.pendingAcks.lookup id with
    | some callback => (.plain callback, { s with pendingAcks := s.pendingAcks.erase id })
    | none => (.unknown, s)

def cancelTimedAcks (s : Socket) : Socket :=
  { s with timedAcksClosed := true, ackScheduler := s.ackScheduler.clear,
           sendBuffer := s.sendBuffer.filter (fun b => b.packet.id ∉ s.timedAcks),
           timedAcks := ∅ }

def resumeTimedAcks (s : Socket) : Socket := { s with timedAcksClosed := false }

def finishTimedAck (s : Socket) : Socket := { s with activeTimedAcks := s.activeTimedAcks - 1 }

/-! ## Sections of connecting and flushing -/

/-- The section of `mark_connected`. The first result is `should_flush`. -/
def markConnected (s : Socket) (connected : Bool) : Bool × Socket :=
  if connected && !s.connected && !s.flushingSendBuffer then
    (true, { s with connected, flushingSendBuffer := true })
  else (false, { s with connected })

/-- The section of `disconnect`, after its packet was sent. -/
def markDisconnected (s : Socket) : Socket := { s with connected := false }

/-- What one turn of `flush_send_buffer` decided under the lock. -/
inductive FlushTurn where
  | done
  | send (out : Outgoing)
  | expire (out : Outgoing)

/-- The section of one turn of `flush_send_buffer`. -/
def flushTurn (s : Socket) (now : Time) : FlushTurn × Socket :=
  match s.connected, s.sendBuffer with
  | true, out :: rest =>
    let expired :=
      decide (out.packet.id ∈ s.timedAcks) && s.ackScheduler.expired out.packet.id now
    (if expired then .expire out else .send out, { s with sendBuffer := rest })
  | _, _ => (.done, { s with flushingSendBuffer := false })

end Socket

end Sioxx
