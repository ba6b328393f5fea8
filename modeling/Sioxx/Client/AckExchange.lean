/-
Sioxx.Client.AckExchange — an event and its acknowledgement, there and back.

The two halves of the acknowledgement protocol run against each other: a
`Machine` is the socket that emits, and an `Events` the socket of the same
namespace at the peer, whose listeners answer. An action is one of either
socket, an event that arrives at the peer, or an ACK packet that comes
back. The two sockets act in any interleaving.

What is between them takes a packet at its position in the list of those
handed to `send_packet` and gives the other side what its parser makes of
an intact one, `delivered`. Each is taken at most once, in any order, or
never; that a connection keeps the order is not used.

The ids are those of `Machine`, which do not wrap, and a plain callback is
not empty. `arrived` and `returned` are the positions taken; `called` is
history.
-/
import Sioxx.Client.DispatchTheorems
import Sioxx.Socket.Events
import Sioxx.Socket.Machine

namespace Sioxx

open Lib

/-- A call of a plain `ack_callback` by `dispatch_ack`. -/
structure PlainCall where
  id : Int
  callback : Nat
  data : Json

/-- The callback `dispatch_ack` calls, if it finds one that is not timed. -/
def Socket.plainCall (s : Socket) (id : Int) (data : Json) (now : Time) : Option PlainCall :=
  match (s.dispatchAck id now).1 with
  | .plain callback => some ⟨id, callback, data⟩
  | _ => none

/-- The packet the parser at the other side makes of the frames of `p`. -/
def delivered (text : Bool) (p : Packet) : RawPacket :=
  .ofPacket (if text then JsonParser.received p else { p with attachments := 0 })

structure AckExchange where
  requester : Machine
  responder : Events
  /-- The positions in `requester.handed` that have arrived. -/
  arrived : List Nat := []
  /-- The positions in `responder.acks` that have come back. -/
  returned : List Nat := []
  called : List PlainCall := []

/-- Does it come from the connection? -/
def Action.isIncoming : Action → Bool
  | .dispatchAck _ _ => true
  | _ => false

def Events.Action.isIncoming : Events.Action → Bool
  | .dispatch _ _ _ => true
  | _ => false

namespace AckExchange

inductive Action where
  | request (a : Sioxx.Action)
  | respond (a : Events.Action)
  /-- The event at a position of `requester.handed` arrives. -/
  | arriveEvent (k : Nat)
  /-- The ACK packet at a position of `responder.acks` arrives. -/
  | arriveAck (k : Nat)

/-- Two new sockets of a namespace. -/
def init (nsp : Bytes) : AckExchange where
  requester := Machine.init nsp
  responder := Events.init nsp

variable (callable : Nat → Bool) (text : Bool)

def arriveEventStep (s : AckExchange) (k : Nat) (out : Outgoing) : Option AckExchange :=
  match dispatchPacket (delivered text out.packet) with
  | some (.event nsp event data ackId) =>
    if nsp = s.responder.sock.nsp then
      (s.responder.step callable (.dispatch event data ackId)).map fun responder =>
        { s with responder, arrived := s.arrived ++ [k] }
    else none
  | _ => none

def arriveAckStep (s : AckExchange) (k : Nat) (ack : Events.SentAck) : Option AckExchange :=
  match dispatchPacket (delivered text ack.packet) with
  | some (.ack nsp id data) =>
    if nsp = s.requester.sock.nsp then
      (s.requester.step (.dispatchAck id data)).map fun requester =>
        { s with
          requester, returned := s.returned ++ [k]
          called := s.called ++ (s.requester.sock.plainCall id data s.requester.now).toList }
    else none
  | _ => none

def step (s : AckExchange) : Action → Option AckExchange
  | .request a =>
    if a.isIncoming then none
    else (s.requester.step a).map fun requester => { s with requester }
  | .respond a =>
    if a.isIncoming then none
    else (s.responder.step callable a).map fun responder => { s with responder }
  | .arriveEvent k =>
    match s.requester.handed[k]? with
    | none => none
    | some out => if k ∈ s.arrived then none else s.arriveEventStep callable text k out
  | .arriveAck k =>
    match s.responder.acks[k]? with
    | none => none
    | some ack => if k ∈ s.returned then none else s.arriveAckStep text k ack

end AckExchange

end Sioxx
