/-
Sioxx.Socket.Emit — one call of `socket::emit` with everything in it that
can throw.

The sections are those of `Socket.lean`; `Machine.lean` lets the threads
interleave them and takes it that a call does not fail. Here a call runs
by itself, from a socket as the other threads have left it, and ends by
returning or by an exception:

  * the timed overload refuses its arguments, or the client was shut down;
  * a container, a packet or the thread of the scheduler cannot be made
    (`EmitFaults`);
  * `client_impl::send_packet` throws: `parser_->encode` does, or the
    transport does on one of the frames.

A failed call also has a socket afterwards. The deadline worker may pop
the new deadline before the timed overload asks for it, but only once it
has passed, and then the answer is the same.
-/
import Sioxx.Client.SendPacket
import Sioxx.Socket.Socket

namespace Sioxx

open Lib

inductive EmitError where
  /-- `std::invalid_argument` -/
  | invalidArgument
  /-- `std::logic_error` -/
  | shutDown
  /-- `std::bad_alloc`, or no thread for the scheduler. -/
  | resources
  | encode (error : EncodeError)
  | transport
  deriving DecidableEq, Repr

/-- What cannot be made during a call. -/
structure EmitFaults where
  packet : Bool := false
  /-- The entry of `pending_acks_` or `timed_acks_`. -/
  ackEntry : Bool := false
  scheduler : Bool := false
  /-- The entry of the scheduler's `deadlines`. -/
  deadline : Bool := false
  /-- The entry of the scheduler's `ordered`. -/
  ordered : Bool := false
  /-- The entry of `send_buffer_`. -/
  buffer : Bool := false
  deriving DecidableEq, Repr

/-- The client as `emit` meets it. -/
structure ClientSide where
  /-- Does `client_.lock()` find the client? -/
  alive : Bool := true
  /-- `current_engineio()` -/
  engineio : Option EngineIOClient := none
  encode : Packet → Except EncodeError (List Frame)
  /-- Does `transport_->send` throw on the frame? -/
  transportThrows : Frame → Bool

namespace ClientSide

variable (c : ClientSide)

/-- The calls of the `frame_writer`. -/
def writeFrames (engineio : EngineIOClient) : List Frame → Except EmitError Unit
  | [] => .ok ()
  | frame :: rest =>
    if c.transportThrows frame && !(engineio.send frame.payload frame.isBinary).isEmpty then
      .error .transport
    else writeFrames engineio rest

def sendPacket (packet : Packet) : Except EmitError Unit :=
  match c.engineio with
  | none => .ok ()
  | some engineio =>
    match c.encode packet with
    | .error error => .error (.encode error)
    | .ok frames => c.writeFrames engineio frames

/-- `if (auto c = client_.lock()) c->send_packet(packet);` -/
def handOver (packet : Packet) : Except EmitError Unit :=
  if c.alive then c.sendPacket packet else .ok ()

end ClientSide

/-- What is emitted, the number of the emission and the emitting thread. -/
structure Emission where
  event : Bytes
  data : Json
  number : Nat
  thread : Nat

def Emission.outgoing (e : Emission) (packet : Packet) (timed : Bool) : Outgoing where
  packet := packet
  emission := e.number
  thread := e.thread
  timed := timed

namespace AckScheduler

/-- `add` when it throws: nothing is entered, or the entry of `deadlines`
is taken back. -/
def addThrows (s : AckScheduler) (f : EmitFaults) (id : Int) (deadline : Time) : AckScheduler :=
  if f.deadline then s
  else { s with deadlines := (emplace s.deadlines id deadline).erase id }

end AckScheduler

namespace Socket

variable (c : ClientSide) (f : EmitFaults)

/-- What a call leaves: how it ended, and the socket. -/
abbrev Ended (α : Type) := Except EmitError α × Socket

/-- `send_or_buffer`. The timed overload does the same in its own section. -/
def sendOrBuffer (s : Socket) (out : Outgoing) : Ended Unit :=
  if s.mustBuffer then
    if f.buffer then (.error .resources, s) else (.ok (), s.buffer out)
  else (c.handOver out.packet, s)

/-- `emit(event, data)` -/
def emit (s : Socket) (e : Emission) : Ended Unit :=
  if f.packet then (.error .resources, s)
  else s.sendOrBuffer c f (e.outgoing (emitPacket s.nsp e.event e.data) false)

/-- `emit(event, data, callback)`. The id is taken before the entry is
made, and the packet is built after both. -/
def emitAck (s : Socket) (e : Emission) : Ended Unit :=
  if f.ackEntry then (.error .resources, { s with nextAckId := s.nextAckId + 1 })
  else
    let (id, s') := s.registerAck e.number
    if f.packet then (.error .resources, s')
    else s'.sendOrBuffer c f (e.outgoing (emitAckPacket s.nsp e.event e.data id) false)

/-- `register_timed_ack`, with its `catch`. -/
def registerTimed (s : Socket) (deadline : Time) (callback : Nat) : Ended Int :=
  match s.registerTimedAck deadline callback with
  | none => (.error .shutDown, s)
  | some (id, s') =>
    if f.scheduler then (.error .resources, s)
    else if f.ackEntry then (.error .resources, { s with nextAckId := s.nextAckId + 1 })
    else if f.deadline || f.ordered then
      (.error .resources,
        { s with nextAckId := s.nextAckId + 1,
                 timedAcks := (emplace s.timedAcks id callback).erase id,
                 ackScheduler := s.ackScheduler.addThrows f id deadline })
    else (.ok id, s')

/-- `emit(event, data, timeout, callback)`, called at `now`; the scheduler
is asked at `checked`. -/
def emitTimed (s : Socket) (e : Emission) (timeout : Int) (callback : Bool) (now checked : Time) :
    Ended Unit :=
  if timeout ≤ 0 || !callback then (.error .invalidArgument, s)
  else if f.packet then (.error .resources, s)
  else
    match s.registerTimed f (ackDeadline now timeout.toNat) e.number with
    | (.error error, s') => (.error error, s')
    | (.ok id, s') =>
      if s'.ackScheduler.expired id checked then (.ok (), s')
      else s'.sendOrBuffer c f (e.outgoing (emitTimedPacket s.nsp e.event e.data id) true)

/-- The overloads of `emit` with the arguments they add. -/
inductive Overload where
  | plain
  | ack
  | timed (timeout : Int) (callback : Bool) (now checked : Time)
  deriving DecidableEq, Repr

def emitWith (s : Socket) (e : Emission) : Overload → Ended Unit
  | .plain => s.emit c f e
  | .ack => s.emitAck c f e
  | .timed timeout callback now checked => s.emitTimed c f e timeout callback now checked

end Socket

end Sioxx
