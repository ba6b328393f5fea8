/-
Sioxx.Socket.Machine — one socket used by any number of threads.

An action is one critical section of `mutex_` (or of the scheduler's own
mutex), or one of the things a thread does between them: handing a packet
to `send_packet`, running a callback. Any enabled action may come next, so
a list of actions is an interleaving.

An emitting thread is named by a number and has a program counter,
`EmitPc`. Everything the library itself runs is a `Task`: a thread inside
`flush_send_buffer`, the deadline worker between its pop and its callback,
and a thread inside `dispatch_ack`. There can be several of each but for
the worker.

The timed `emit` asks the scheduler twice under one hold of `mutex_`. The
scheduler's worker can run in between, so these are two actions and
`mutex` records who is inside. The client outlives its sockets here, so
`client_.lock()` succeeds.

The fields from `emitted` on are history: the code has no such lists, and
no transition reads them except that the number of emissions so far names
the next one.
-/
import Sioxx.Socket.Socket
import Mathlib.Logic.Function.Basic

namespace Sioxx

open Lib

/-- Why an event was taken out of the send path. -/
inductive Removal where
  | expiry
  | acknowledgement
  | cancellation
  deriving DecidableEq, Repr

/-- A call of `client_impl::send_packet`. -/
inductive Sent where
  | event (out : Outgoing)
  | connect
  | disconnect

def Sent.outgoing : Sent → Option Outgoing
  | .event out => some out
  | _ => none

/-- A timed acknowledgement as `register_timed_ack` entered it. -/
structure Registration where
  id : Int
  callback : Nat
  deadline : Time

/-- One call of `dispatch_ack`. -/
structure ReceivedAck where
  id : Int
  data : Json
  time : Time

/-- A callback taken out of `timed_acks_`, and what it will be told. -/
structure Claim where
  id : Int
  callback : Nat
  status : AckStatus
  data : Json

/-- Who runs `invoke_timed_ack`. -/
inductive Caller where
  | flusher
  | worker
  | dispatcher
  deriving DecidableEq, Repr

/-- One call of a timed callback. -/
structure Invocation where
  caller : Caller
  claim : Claim
  time : Time

inductive Task where
  /-- At the top of the loop of `flush_send_buffer`. -/
  | flushing
  | flushSending (out : Outgoing)
  | flushExpiring (out : Outgoing)
  /-- The deadline worker, between its pop and `expire_ack`. -/
  | workerExpiring (id : Int)
  /-- In `invoke_timed_ack`, before the callback. -/
  | claimed (caller : Caller) (claim : Claim)
  /-- In `invoke_timed_ack`, inside the callback. -/
  | running (caller : Caller) (claim : Claim)

namespace Task

/-- Is this thread inside `flush_send_buffer`? -/
def isFlusher : Task → Bool
  | .flushing => true
  | .flushSending _ => true
  | .flushExpiring _ => true
  | .workerExpiring _ => false
  | .claimed caller _ => caller == .flusher
  | .running caller _ => caller == .flusher

def isWorker : Task → Bool
  | .workerExpiring _ => true
  | .claimed caller _ => caller == .worker
  | .running caller _ => caller == .worker
  | _ => false

end Task

/-- Where an emitting thread is. -/
inductive EmitPc where
  | idle
  /-- In `emit` with an acknowledgement, before its first section. -/
  | registering (event : Bytes) (data : Json)
  /-- In the timed `emit`, with the deadline computed, before its section. -/
  | preparing (event : Bytes) (data : Json) (deadline : Time)
  /-- Before the section of `send_or_buffer`. -/
  | deciding (out : Outgoing)
  /-- In the section of the timed `emit`, registered. -/
  | holding (out : Outgoing)
  /-- About to call `send_packet`. -/
  | sending (out : Outgoing)

structure Machine where
  sock : Socket := {}
  mutex : Option Nat := none
  now : Time := 0
  emitters : Nat → EmitPc := fun _ => .idle
  tasks : List Task := []
  /-- Threads in `disconnect`, between its packet and its section. -/
  disconnecting : Nat := 0
  emitted : List Outgoing := []
  sent : List Sent := []
  removed : List (Outgoing × Removal) := []
  registered : List Registration := []
  acks : List ReceivedAck := []
  invoked : List Invocation := []
  cancelled : List Nat := []
  aborts : Nat := 0

inductive Action where
  | emit (t : Nat) (event : Bytes) (data : Json)
  | emitAck (t : Nat) (event : Bytes) (data : Json)
  | emitTimed (t : Nat) (event : Bytes) (data : Json) (timeout : Int) (callback : Bool)
  /-- The section in which an emission with acknowledgement gets its id. -/
  | register (t : Nat)
  /-- The section in which an emission is buffered or not. -/
  | decide (t : Nat)
  | send (t : Nat)
  | markConnected (connected : Bool)
  /-- `connect`, which only sends. -/
  | connect
  /-- `disconnect` sends its packet, and then takes its section. -/
  | disconnectSend
  | disconnect
  /-- The next step of a library thread, which may end by an exception. -/
  | task (i : Nat) (throws : Bool)
  | dispatchAck (id : Int) (data : Json)
  | workerPop
  | cancelTimedAcks
  | resumeTimedAcks
  | tick (elapsed : Nat)

namespace Machine

def init (nsp : Bytes) : Machine := { sock := { nsp } }

/-- The events handed over so far. -/
def handed (m : Machine) : List Outgoing := m.sent.filterMap Sent.outgoing

/-- A section of `mutex_` can run while no thread is inside one. -/
def locked (m : Machine) (m' : Machine) : Option Machine :=
  if m.mutex = none then some m' else none

def setPc (m : Machine) (t : Nat) (pc : EmitPc) : Machine :=
  { m with emitters := Function.update m.emitters t pc }

def setTask (m : Machine) (i : Nat) (task : Task) : Machine :=
  { m with tasks := m.tasks.set i task }

def endTask (m : Machine) (i : Nat) : Machine := { m with tasks := m.tasks.eraseIdx i }

/-- The buffered events a section drops, with the reason. -/
def removing (m : Machine) (sock : Socket) (drops : Outgoing → Bool) (cause : Removal) : Machine :=
  { m with sock, removed := m.removed ++ (m.sock.sendBuffer.filter drops).map (·, cause) }

/-! ## Emitting threads -/

/-- The next emission of thread `t`, numbered by the emissions before it. -/
def outgoing (m : Machine) (t : Nat) (event : Bytes) (data : Json) (id : Int) (timed : Bool) :
    Outgoing where
  packet := Socket.eventPacket m.sock.nsp event data id
  emission := m.emitted.length
  thread := t
  timed := timed

def registerStep (m : Machine) (t : Nat) : Option Machine :=
  match m.emitters t with
  | .registering event data =>
    let (id, sock) := m.sock.registerAck m.emitted.length
    let out := m.outgoing t event data id false
    m.locked { m.setPc t (.deciding out) with sock, emitted := m.emitted ++ [out] }
  | .preparing event data deadline =>
    match m.sock.registerTimedAck deadline m.emitted.length with
    | none => m.locked (m.setPc t .idle)
    | some (id, sock) =>
      let out := m.outgoing t event data id true
      m.locked { m.setPc t (.holding out) with
        sock, mutex := some t, emitted := m.emitted ++ [out],
        registered := m.registered ++ [⟨id, m.emitted.length, deadline⟩] }
  | _ => none

/-- Buffer the packet or keep it for `send_packet`. -/
def bufferOrSend (m : Machine) (t : Nat) (out : Outgoing) : Machine :=
  if m.sock.mustBuffer then { m.setPc t .idle with sock := m.sock.buffer out }
  else m.setPc t (.sending out)

def decideStep (m : Machine) (t : Nat) : Option Machine :=
  match m.emitters t with
  | .deciding out => m.locked (m.bufferOrSend t out)
  | .holding out =>
    if m.sock.ackScheduler.expired out.packet.id m.now then
      some { m.setPc t .idle with mutex := none, removed := m.removed ++ [(out, .expiry)] }
    else some { m.bufferOrSend t out with mutex := none }
  | _ => none

/-! ## Library threads -/

/-- The section of `expire_ack`, run by task `i`. If somebody else has
claimed the callback, the task goes on as `lost` says. -/
def expireStep (m : Machine) (i : Nat) (caller : Caller) (id : Int) (lost : Machine) :
    Option Machine :=
  match m.sock.expireAck id with
  | (none, _) => m.locked lost
  | (some callback, sock) =>
    m.locked ((m.setTask i (.claimed caller ⟨id, callback, .timeout, .null⟩)).removing sock
      (fun b => b.packet.id = id) .expiry)

/-- The next step of task `i`. An exception ends a flush with the flag
still set; one on the deadline worker ends the process. -/
def taskStep (m : Machine) (i : Nat) (throws : Bool) : Option Machine :=
  match m.tasks[i]? with
  | none => none
  | some .flushing =>
    match m.sock.flushTurn m.now with
    | (.done, sock) => m.locked { m.endTask i with sock }
    | (.send out, sock) => m.locked { m.setTask i (.flushSending out) with sock }
    | (.expire out, sock) =>
      m.locked { m.setTask i (.flushExpiring out) with
        sock, removed := m.removed ++ [(out, .expiry)] }
  | some (.flushSending out) =>
    if throws then
      some { m.endTask i with sent := m.sent ++ [.event out], aborts := m.aborts + 1 }
    else some { m.setTask i .flushing with sent := m.sent ++ [.event out] }
  | some (.flushExpiring out) => m.expireStep i .flusher out.packet.id (m.setTask i .flushing)
  | some (.workerExpiring id) => m.expireStep i .worker id (m.endTask i)
  | some (.claimed caller claim) =>
    some { m.setTask i (.running caller claim) with
      invoked := m.invoked ++ [⟨caller, claim, m.now⟩] }
  | some (.running caller _) =>
    let sock := m.sock.finishTimedAck
    match caller, throws with
    | .flusher, false => m.locked { m.setTask i .flushing with sock }
    | .flusher, true => m.locked { m.endTask i with sock, aborts := m.aborts + 1 }
    | .dispatcher, _ => m.locked { m.endTask i with sock }
    | .worker, false => m.locked { m.endTask i with sock }
    | .worker, true => none

def addTask (m : Machine) (task : Task) : Machine := { m with tasks := m.tasks ++ [task] }

def dispatchAckStep (m : Machine) (id : Int) (data : Json) : Option Machine :=
  match m.sock.dispatchAck id m.now with
  | (.timed callback expired, sock) =>
    let claim : Claim :=
      if expired then ⟨id, callback, .timeout, .null⟩ else ⟨id, callback, .acknowledged, data⟩
    m.locked { (m.addTask (.claimed .dispatcher claim)).removing sock
      (fun b => b.packet.id = id) .acknowledgement with acks := m.acks ++ [⟨id, data, m.now⟩] }
  | (_, sock) => m.locked { m with sock, acks := m.acks ++ [⟨id, data, m.now⟩] }

def workerPopStep (m : Machine) : Option Machine :=
  if m.tasks.any Task.isWorker then none
  else
    match m.sock.ackScheduler.pop m.now with
    | none => none
    | some (id, ackScheduler) =>
      some { m.addTask (.workerExpiring id) with sock := { m.sock with ackScheduler } }

/-! ## The transition function -/

def step (m : Machine) : Action → Option Machine
  | .emit t event data =>
    match m.emitters t with
    | .idle =>
      let out := m.outgoing t event data (-1) false
      some { m.setPc t (.deciding out) with emitted := m.emitted ++ [out] }
    | _ => none
  | .emitAck t event data =>
    match m.emitters t with
    | .idle => some (m.setPc t (.registering event data))
    | _ => none
  | .emitTimed t event data timeout callback =>
    match m.emitters t with
    | .idle =>
      -- `std::invalid_argument`
      if timeout ≤ 0 || !callback then some m
      else some (m.setPc t (.preparing event data (Socket.ackDeadline m.now timeout.toNat)))
    | _ => none
  | .register t => m.registerStep t
  | .decide t => m.decideStep t
  | .send t =>
    match m.emitters t with
    | .sending out => some { m.setPc t .idle with sent := m.sent ++ [.event out] }
    | _ => none
  | .markConnected connected =>
    match m.sock.markConnected connected with
    | (true, sock) => m.locked { m.addTask .flushing with sock }
    | (false, sock) => m.locked { m with sock }
  | .connect => some { m with sent := m.sent ++ [.connect] }
  | .disconnectSend =>
    some { m with sent := m.sent ++ [.disconnect], disconnecting := m.disconnecting + 1 }
  | .disconnect =>
    if m.disconnecting = 0 then none
    else
      m.locked { m with
        sock := m.sock.markDisconnected, disconnecting := m.disconnecting - 1 }
  | .task i throws => m.taskStep i throws
  | .dispatchAck id data => m.dispatchAckStep id data
  | .workerPop => m.workerPopStep
  | .cancelTimedAcks =>
    m.locked { m.removing m.sock.cancelTimedAcks (fun b => b.packet.id ∈ m.sock.timedAcks)
      .cancellation with
      cancelled := m.cancelled ++ m.sock.timedAcks.entries.map (·.2) }
  | .resumeTimedAcks => m.locked { m with sock := m.sock.resumeTimedAcks }
  | .tick elapsed => some { m with now := m.now + elapsed }

end Machine

end Sioxx
