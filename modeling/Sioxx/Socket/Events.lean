/-
Sioxx.Socket.Events — incoming events, their listeners and their
acknowledgements (`on`, `on_any`, `off`, `off_all`, `dispatch_event` and
`send_ack` of `socket.cpp`).

An action is one critical section of `mutex_`, one call of a listener, one
call of the reply function up to its `exchange`, or one `send_ack`. Any
number of dispatches and of threads with a copy of a reply function may be
under way, and any enabled action may come next.

A `std::function` is named by a number, and `callable` says which of them
are not empty: `on` stores an empty one like any other, and
`dispatch_event` does not call it. The reply function is the state that
its copies share, the flag `sent` of its dispatch, and may be called once
a listener has been given it, also after the listener has returned. An
empty reply function throws when it is called, which is not an action.

A dispatch stays in the list for good, so that its position names it. The
fields from `changes` on, and those of a dispatch, are history.
-/
import Sioxx.Socket.Socket
import Sioxx.Lib.Run

namespace Sioxx

open Lib

namespace Events

/-- A listener of one of the two kinds. -/
inductive Listener where
  | plain (listener : Nat)
  | ack (listener : Nat)
  deriving DecidableEq, Repr

def Listener.number : Listener → Nat
  | .plain listener => listener
  | .ack listener => listener

/-- A call of one of the registration functions. -/
inductive Change where
  | on (event : Bytes) (listener : Listener)
  | onAny (listener : Listener)
  | off (event : Bytes)
  | offAll
  deriving DecidableEq, Repr

/-- A place for one listener: an event name's, or the catch-all's. -/
inductive Slot where
  | named (event : Bytes)
  | any
  deriving DecidableEq, Repr

/-- One call of a listener by `dispatch_event`. -/
structure Call where
  slot : Slot
  listener : Listener
  event : Bytes
  data : Json
  /-- Was it given a reply function that is not empty? -/
  acknowledge : Bool

end Events

namespace Socket

variable (callable : Nat → Bool)

/-- The four registration functions; each overload is one case. -/
def change (s : Socket) : Events.Change → Socket
  | .on event (.plain listener) => s.on event listener
  | .on event (.ack listener) => s.onAck event listener
  | .onAny (.plain listener) => s.onAny (if callable listener then some listener else none)
  | .onAny (.ack listener) => s.onAnyAck (if callable listener then some listener else none)
  | .off event => s.off event
  | .offAll => s.offAll

/-- The listeners `dispatch_event` copies under `mutex_`. An empty
function is like none from then on. -/
structure Picked where
  listener : Option Nat
  ackListener : Option Nat
  anyListener : Option Nat
  anyAckListener : Option Nat

def pick (s : Socket) (event : Bytes) : Picked where
  listener := (s.listeners.lookup event).filter callable
  ackListener := (s.ackListeners.lookup event).filter callable
  anyListener := s.anyListener.filter callable
  anyAckListener := s.anyAckListener.filter callable

/-- The packet `send_ack` builds. -/
def ackPacket (nsp : Bytes) (id : Int) (data : Json) : Packet where
  type := .ack
  nsp := nsp
  id := id
  data := if data.isArray then data else if data.isNull then .arr [] else .arr ([] ++ [data])

end Socket

namespace Events

/-- Where a call of `dispatch_event` is. -/
inductive DispatchPc where
  /-- Before the listener of the event. -/
  | named
  /-- Before the catch-all listener. -/
  | any
  | returned
  /-- The listener of the event threw. -/
  | thrown
  deriving DecidableEq, Repr

structure Dispatch where
  event : Bytes
  data : Json
  ackId : Int
  picked : Socket.Picked
  pc : DispatchPc := .named
  /-- The flag the copies of the reply function share. -/
  sent : Bool := false
  /-- The registrations made before the section of this dispatch. -/
  changes : List Change
  calls : List Call := []
  /-- The arguments of the calls of the reply function. -/
  replies : List Json := []

namespace Dispatch

/-- Is `acknowledge` set to a function that is not empty? -/
def acknowledge (d : Dispatch) : Bool :=
  (d.picked.ackListener.isSome || d.picked.anyAckListener.isSome) && decide (d.ackId ≥ 0)

/-- The call of the plain listener of a slot, or else of the one that can
acknowledge. -/
def callEither (d : Dispatch) (slot : Slot) (plain ack : Option Nat) : Option Call :=
  match plain, ack with
  | some listener, _ => some ⟨slot, .plain listener, d.event, d.data, false⟩
  | none, some listener => some ⟨slot, .ack listener, d.event, d.data, d.acknowledge⟩
  | none, none => none

/-- The call of the listener of the event. -/
def namedCall (d : Dispatch) : Option Call :=
  d.callEither (.named d.event) d.picked.listener d.picked.ackListener

/-- The call of the catch-all listener. -/
def anyCall (d : Dispatch) : Option Call :=
  d.callEither .any d.picked.anyListener d.picked.anyAckListener

/-- Has a listener been given a reply function that can be called? -/
def handedOut (d : Dispatch) : Bool := d.calls.any (·.acknowledge)

def isOver (d : Dispatch) : Bool := d.pc == .returned || d.pc == .thrown

end Dispatch

/-- A thread in the reply function that has won the exchange and locked
the socket. `call` counts the calls of the function before this one. -/
structure Reply where
  dispatch : Nat
  call : Nat
  id : Int
  data : Json

/-- An ACK packet handed to `client_impl::send_packet`. -/
structure SentAck where
  dispatch : Nat
  call : Nat
  packet : Packet

end Events

structure Events where
  sock : Socket
  /-- Does `weak_self.lock()` still find the socket? -/
  socketAlive : Bool := true
  /-- Does `client_.lock()` still find the client? -/
  clientAlive : Bool := true
  dispatches : List Events.Dispatch := []
  replying : List Events.Reply := []
  changes : List Events.Change := []
  acks : List Events.SentAck := []

namespace Events

inductive Action where
  | change (change : Change)
  /-- The section of `dispatch_event`. -/
  | dispatch (event : Bytes) (data : Json) (ackId : Int)
  | callNamed (i : Nat) (throws : Bool)
  | callAny (i : Nat)
  /-- Some holder of the reply function of dispatch `i` calls it. -/
  | acknowledge (i : Nat) (data : Json)
  | sendAck (j : Nat)
  | releaseSocket
  | releaseClient

/-- A new socket of a client. -/
def init (nsp : Bytes) : Events where
  sock := { nsp := nsp }

def setDispatch (s : Events) (i : Nat) (d : Dispatch) : Events :=
  { s with dispatches := s.dispatches.set i d }

/-- The reply function, up to `send_ack`. -/
def acknowledgeStep (s : Events) (i : Nat) (d : Dispatch) (data : Json) : Events :=
  let s' := s.setDispatch i { d with sent := true, replies := d.replies ++ [data] }
  if d.sent then s'
  else if s.socketAlive then
    { s' with replying := s.replying ++ [⟨i, d.replies.length, d.ackId, data⟩] }
  else s'

def Reply.ack (nsp : Bytes) (r : Reply) : SentAck where
  dispatch := r.dispatch
  call := r.call
  packet := Socket.ackPacket nsp r.id r.data

def step (callable : Nat → Bool) (s : Events) : Action → Option Events
  | .change change =>
    if s.socketAlive then
      some { s with sock := s.sock.change callable change, changes := s.changes ++ [change] }
    else none
  | .dispatch event data ackId =>
    if s.socketAlive then
      some { s with
        dispatches := s.dispatches ++
          [{ event, data, ackId, picked := s.sock.pick callable event, changes := s.changes }] }
    else none
  | .callNamed i throws =>
    match s.dispatches[i]? with
    | none => none
    | some d =>
      if d.pc = .named then
        match d.namedCall with
        | none => some (s.setDispatch i { d with pc := .any })
        | some call =>
          some (s.setDispatch i
            { d with pc := if throws then .thrown else .any, calls := d.calls ++ [call] })
      else none
  | .callAny i =>
    match s.dispatches[i]? with
    | none => none
    | some d =>
      if d.pc = .any then
        some (s.setDispatch i { d with pc := .returned, calls := d.calls ++ d.anyCall.toList })
      else none
  | .acknowledge i data =>
    match s.dispatches[i]? with
    | none => none
    | some d => if d.handedOut then some (s.acknowledgeStep i d data) else none
  | .sendAck j =>
    match s.replying[j]? with
    | none => none
    | some r =>
      let s' := { s with replying := s.replying.eraseIdx j }
      some (if s.clientAlive then { s' with acks := s.acks ++ [r.ack s.sock.nsp] } else s')
  | .releaseSocket =>
    -- a dispatch runs on a socket its caller owns, and a reply has locked it
    if s.replying.isEmpty && s.dispatches.all (·.isOver) then
      some { s with socketAlive := false }
    else none
  | .releaseClient => some { s with clientAlive := false }

end Events

end Sioxx
