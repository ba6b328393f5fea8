/-
Sioxx.Client.Admission — which timed emissions are admitted while
`connect`, `close` and `socket` run against each other.

A client that was shut down has `intentional_close_` set, and every socket
has its own `timed_acks_closed_`, which is what a timed `emit` looks at.
`connect` clears the flag and resumes the sockets in one section under
`sockets_mutex_`, and `socket` closes a new socket according to the flag
under the same mutex. `close` sets the flag before it takes the mutex, takes
it only to copy the list of sockets, and cancels them afterwards, one at a
time.

Every statement that reads or writes one of these is an action. The thread
that holds `sockets_mutex_` is kept apart from the others, so there is at
most one. A call of `connect` inside `close` is a thread like any other. It
can come from what `cancel_timed_acks` destroys, between two cancels, or
from a handler of the closing transport, after the last (`closeEngine`).
-/
import Sioxx.Lib.Run
import Sioxx.Socket.Socket
import Sioxx.Client.Opening

namespace Sioxx

open Lib

/-- Where a thread is that does not hold `sockets_mutex_`. -/
inductive AdmissionPc where
  /-- `connect`, before it waits for the reconnect worker of a client that
  was shut down. -/
  | connectStart
  | connectLock
  /-- `connect`, after its section. -/
  | connectRest
  | closeStore
  | closeSnapshot
  | closeCancel (rest : List Bytes)
  /-- `close`, with the sockets behind it. -/
  | closeEngine
  | socketLock (nsp : Bytes)
  deriving DecidableEq

/-- Where the thread is that holds it. -/
inductive AdmissionSection where
  | connectStore
  | connectResume (rest : List Bytes)
  | socketLoad (nsp : Bytes)
  /-- The flag as `socket` has read it. -/
  | socketInsert (nsp : Bytes) (closed : Bool)
  /-- The new socket is in the map; its CONNECT may throw. -/
  | socketConnect
  deriving DecidableEq

structure Admission where
  intentionalClose : Bool := false
  /-- In the order of the map. -/
  sockets : List Socket := []
  /-- The section of the thread that holds `sockets_mutex_`. -/
  holder : Option AdmissionSection := none
  threads : List AdmissionPc := []

namespace Admission

inductive Action where
  | connect
  | close
  | socket (nsp : Bytes)
  /-- The next statement of a thread outside the mutex. -/
  | go (i : Nat)
  /-- The next statement of the thread inside. -/
  | hold
  /-- `register_timed_ack` of a socket. -/
  | emit (nsp : Bytes) (deadline : Time) (callback : Nat)

/-- `sockets_[nsp] = sock` for a new key. -/
def insert (sock : Socket) : List Socket → List Socket
  | [] => [sock]
  | other :: rest =>
    if sock.nsp < other.nsp then sock :: other :: rest else other :: insert sock rest

def update (s : Admission) (nsp : Bytes) (f : Socket → Socket) : List Socket :=
  s.sockets.map (fun sock => if sock.nsp = nsp then f sock else sock)

def setThread (s : Admission) (i : Nat) (pc : AdmissionPc) : Admission :=
  { s with threads := s.threads.set i pc }

def endThread (s : Admission) (i : Nat) : Admission :=
  { s with threads := s.threads.eraseIdx i }

/-- The thread takes `sockets_mutex_`. -/
def lock (s : Admission) (i : Nat) (sect : AdmissionSection) : Option Admission :=
  match s.holder with
  | some _ => none
  | none => some { s.endThread i with holder := some sect }

def goStep (s : Admission) (i : Nat) : Option Admission :=
  match s.threads[i]? with
  | none => none
  | some .connectStart => some (s.setThread i .connectLock)
  | some .connectLock => s.lock i .connectStore
  | some .connectRest => some (s.endThread i)
  | some .closeStore => some { s.setThread i .closeSnapshot with intentionalClose := true }
  | some .closeSnapshot =>
    match s.holder with
    | some _ => none
    | none => some (s.setThread i (.closeCancel (s.sockets.map Socket.nsp)))
  | some (.closeCancel (nsp :: rest)) =>
    some { s.setThread i (.closeCancel rest) with sockets := s.update nsp Socket.cancelTimedAcks }
  | some (.closeCancel []) => some (s.setThread i .closeEngine)
  | some .closeEngine => some (s.endThread i)
  | some (.socketLock nsp) => s.lock i (.socketLoad nsp)

def holdStep (s : Admission) : Option Admission :=
  match s.holder with
  | none => none
  | some .connectStore =>
    some { s with
      intentionalClose := false
      holder := some (.connectResume (s.sockets.map Socket.nsp)) }
  | some (.connectResume (nsp :: rest)) =>
    some { s with
      sockets := s.update nsp Socket.resumeTimedAcks
      holder := some (.connectResume rest) }
  | some (.connectResume []) =>
    some { s with holder := none, threads := s.threads ++ [.connectRest] }
  | some (.socketLoad nsp) =>
    if s.sockets.any (fun sock => sock.nsp = nsp) then some { s with holder := none }
    else some { s with holder := some (.socketInsert nsp s.intentionalClose) }
  | some (.socketInsert nsp closed) =>
    let sock : Socket := { nsp }
    some { s with
      sockets := insert (if closed then sock.cancelTimedAcks else sock) s.sockets
      holder := some .socketConnect }
  | some .socketConnect => some { s with holder := none }

def step (s : Admission) : Action → Option Admission
  | .connect => some { s with threads := s.threads ++ [.connectStart] }
  | .close => some { s with threads := s.threads ++ [.closeStore] }
  | .socket nsp => some { s with threads := s.threads ++ [.socketLock (normNsp nsp)] }
  | .go i => s.goStep i
  | .hold => s.holdStep
  | .emit nsp deadline callback =>
    some { s with
      sockets := s.update nsp (fun sock =>
        match sock.registerTimedAck deadline callback with
        | none => sock
        | some (_, sock) => sock) }

/-- None of the three operations is in progress. -/
def Idle (s : Admission) : Prop := s.threads = [] ∧ s.holder = none

/-- Every socket agrees with the client: a timed emission throws exactly
after a shutdown. -/
def Agree (s : Admission) : Prop :=
  ∀ sock ∈ s.sockets, sock.timedAcksClosed = s.intentionalClose ∧
    ∀ deadline callback, sock.registerTimedAck deadline callback = none ↔
      s.intentionalClose = true

end Admission

/-- Is the thread a `close` that has yet to cancel the sockets, or some? -/
def AdmissionPc.cancelling : AdmissionPc → Bool
  | .closeSnapshot => true
  | .closeCancel rest => !rest.isEmpty
  | _ => false

namespace Admission

/-- `connect` does not clear the flag between the store of a `close` and
its last cancel. -/
def Apart (s : Admission) : Action → Prop
  | .hold => s.holder = some .connectStore → ∀ pc ∈ s.threads, pc.cancelling = false
  | _ => True

end Admission

end Sioxx
