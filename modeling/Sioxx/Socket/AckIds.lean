/-
Sioxx.Socket.AckIds — acknowledgement ids with a counter of 32 bits.

`next_ack_id_` is an `int` that both overloads of `emit` with an
acknowledgement increment and nothing resets. `Machine` lets it grow; here
the same machine runs with the counter wrapped after every step, as it is
on a machine with 32-bit `int`.

`assigned` is history: the ids handed out, in order, each with the number
of its emission, the ids that were outstanding in `pending_acks_` and
`timed_acks_` at that moment, and the number of ACKs received before it.
-/
import Sioxx.Lib.Run
import Sioxx.Parser.MsgpackParser
import Sioxx.Socket.TimedAckTheorems

namespace Sioxx

open Lib

/-- An id `next_ack_id_++` returned. -/
structure Assignment where
  id : Int
  emission : Nat
  timed : Bool
  outstanding : List Int
  /-- How many ACKs had been received. -/
  acksBefore : Nat

structure IntMachine where
  machine : Machine
  assigned : List Assignment := []

/-- Does the action hand out an id, and if so, to a timed emission? -/
def Machine.assigning (m : Machine) : Action → Option Bool
  | .register t =>
    match m.emitters t with
    | .registering _ _ => some false
    | .preparing _ _ _ => if m.sock.timedAcksClosed then none else some true
    | _ => none
  | _ => none

/-- The machine with its counter in the range of `int`. -/
def Machine.wrapped (m : Machine) : Machine :=
  { m with sock := { m.sock with nextAckId := Json.wrapInt m.sock.nextAckId } }

/-- The callback an ACK finds. -/
def Socket.AckFound.callback : Socket.AckFound → Option Nat
  | .timed callback _ => some callback
  | .plain callback => some callback
  | .unknown => none

namespace IntMachine

def init (nsp : Bytes) : IntMachine := { machine := Machine.init nsp }

/-- What the next registration gets. -/
def assignment (s : IntMachine) (timed : Bool) : Assignment where
  id := s.machine.sock.nextAckId
  emission := s.machine.emitted.length
  timed := timed
  outstanding := s.machine.sock.pendingAcks.keys ++ s.machine.sock.timedAcks.keys
  acksBefore := s.machine.acks.length

def step (s : IntMachine) (a : Action) : Option IntMachine :=
  match s.machine.step a with
  | none => none
  | some m =>
    some
      { machine := m.wrapped
        assigned :=
          match s.machine.assigning a with
          | none => s.assigned
          | some timed => s.assigned ++ [s.assignment timed] }

/-- The id is on the wire, whichever parser writes the packet. -/
def CarriesId (packet : Packet) : Prop :=
  (∀ type attachments, JsonParser.header type attachments packet.nsp packet.id
    = JsonParser.header type attachments packet.nsp (-1) ++ decimal packet.id.toNat) ∧
  ∃ members, MsgpackParser.object packet = .obj members ∧
    Json.lookup (ascii "id") members = some (.int packet.id)

/-- The ids handed out so far can be used. -/
structure UsableIds (s : IntMachine) : Prop where
  nonneg : ∀ r ∈ s.assigned, 0 ≤ r.id
  fresh : ∀ r ∈ s.assigned, r.id ∉ r.outstanding
  carried : ∀ r ∈ s.assigned, ∃ out, s.machine.emitted[r.emission]? = some out ∧
    out.packet.id = r.id ∧ CarriesId out.packet
  /-- An ACK finds the emission it answers, unless one came before it or
  the emission has expired or was cancelled. -/
  completes : ∀ r ∈ s.assigned, ∀ now,
    (s.machine.sock.dispatchAck r.id now).1.callback = some r.emission ∨
      (∃ ack ∈ s.machine.acks.drop r.acksBefore, ack.id = r.id) ∨
      (r.timed = true ∧ r.emission ∈ s.machine.timedAcks.spent)
  /-- What an ACK finds is the one emission with its id. -/
  answers : ∀ id now callback,
    (s.machine.sock.dispatchAck id now).1.callback = some callback →
      ∃ r ∈ s.assigned, r.id = id ∧ r.emission = callback ∧
        ∀ r' ∈ s.assigned, r'.id = id → r' = r

end IntMachine

end Sioxx
