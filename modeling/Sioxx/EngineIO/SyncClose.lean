/-
Sioxx.EngineIO.SyncClose — three threads that shut down one managed
polling transport at the same time.

The application is in `engineio_client::sync_close`, the poll worker has a
request that fails, and the heartbeat worker has declared a ping timeout
and calls `transport_->close()`. They wait for each other in three ways:

  * for `connect_mutex_`, in `close()` of the transport and in
    `join_threads`;
  * for the heartbeat thread, in `stop_heartbeat_timer`, by the one that
    moved it out of `heartbeat_thread_`;
  * for the poll thread, in `join_threads`, with `connect_mutex_` held.

`close()` of the transport calls the close handler if it was the first to
set the transport's `closing_`, and so does `fail()`; the handler stops the
heartbeat timer on the thread that calls it. The heartbeat thread detaches
itself instead of joining.

Every statement that takes or frees one of these is an action. Sections of
`heartbeat_thread_mutex_` and `heartbeat_mutex_` contain no wait and are
single actions. The write thread and the closing request of `join_threads`
end by themselves.
-/
import Sioxx.Lib.Run
import Sioxx.Lib.Waiting

namespace Sioxx

open Lib

inductive Party where
  | application
  | poll
  | heartbeat
  deriving DecidableEq

/-- Who calls `stop_heartbeat_timer` on the application's thread. -/
inductive StopCall where
  /-- The close handler, in the first or the last call of the transport's
  `close()`. -/
  | handler (last : Bool)
  /-- `engineio_client::sync_close` itself. -/
  | own
  deriving DecidableEq

/-- The application in `engineio_client::sync_close`. The transport's
`close()` is called in `close()` and, as `last`, in its `sync_close()`. -/
inductive ApplicationPc where
  | exchange
  | requestStop
  | clearOpen
  | lockClose (last : Bool)
  | inClose (last : Bool)
  | unlockClose (last notify : Bool)
  | stopRequest (call : StopCall)
  | takeHeartbeat (call : StopCall)
  | joinHeartbeat (call : StopCall)
  | onClose (last : Bool)
  /-- `join_threads`, before `connect_mutex_`. -/
  | lockJoin
  | joinWorkers
  | joinPoll
  | unlockJoin
  | returned
  deriving DecidableEq

/-- The poll worker, from the request on. -/
inductive PollPc where
  | polling
  | failing
  | onError
  | stopRequest
  | takeHeartbeat
  | joinHeartbeat
  | onClose
  | finished
  deriving DecidableEq

/-- The heartbeat worker, from the ping timeout on. -/
inductive HeartbeatPc where
  | declared
  | lockClose
  | inClose
  | unlockClose (notify : Bool)
  | stopRequest
  | detachSelf
  | onClose
  | finished
  deriving DecidableEq

/-- What has become of `heartbeat_thread_`. -/
inductive HeartbeatHandle where
  | held
  /-- Moved into the local variable of the thread that joins it. -/
  | taken
  | detached
  deriving DecidableEq

structure SyncClose where
  application : ApplicationPc := .exchange
  poll : PollPc := .polling
  heartbeat : HeartbeatPc := .declared
  connectMutex : Option Party := none
  handle : HeartbeatHandle := .held
  /-- `closing_` of the Engine.IO client. -/
  engineClosing : Bool := false
  /-- `closing_` of the transport. -/
  transportClosing : Bool := false
  shutdownOnce : Bool := false
  deriving DecidableEq

namespace SyncClose

/-- The next statement of a thread; a request of the poll worker fails or
ends. -/
inductive Action where
  | application
  | poll (fails : Bool)
  | heartbeat
  deriving DecidableEq

/-- The application after `stop_heartbeat_timer`. -/
def afterStop : StopCall → ApplicationPc
  | .handler last => .onClose last
  | .own => .lockClose true

/-- The application after the transport's `close()`. -/
def afterClose : Bool → ApplicationPc
  | false => .stopRequest .own
  | true => .lockJoin

/-- The `call_once` of the transport's `close()`: does it notify? -/
def shutdown (s : SyncClose) : Bool × SyncClose :=
  if s.shutdownOnce then (false, s)
  else (!s.transportClosing, { s with shutdownOnce := true, transportClosing := true })

def applicationStep (s : SyncClose) : Option SyncClose :=
  match s.application with
  | .exchange =>
    if s.engineClosing then some { s with application := .stopRequest .own }
    else some { s with application := .requestStop, engineClosing := true }
  | .requestStop => some { s with application := .clearOpen }
  | .clearOpen => some { s with application := .lockClose false }
  | .lockClose last =>
    match s.connectMutex with
    | some _ => none
    | none => some { s with application := .inClose last, connectMutex := some .application }
  | .inClose last =>
    let (notify, s) := s.shutdown
    some { s with application := .unlockClose last notify }
  | .unlockClose last notify =>
    some { s with
      connectMutex := none
      application := if notify then .stopRequest (.handler last) else afterClose last }
  | .stopRequest call => some { s with application := .takeHeartbeat call }
  | .takeHeartbeat call =>
    if s.handle = .held then some { s with handle := .taken, application := .joinHeartbeat call }
    else some { s with application := afterStop call }
  | .joinHeartbeat call =>
    if s.heartbeat = .finished then some { s with application := afterStop call } else none
  | .onClose last => some { s with application := afterClose last }
  | .lockJoin =>
    match s.connectMutex with
    | some _ => none
    | none => some { s with application := .joinWorkers, connectMutex := some .application }
  | .joinWorkers => some { s with application := .joinPoll }
  | .joinPoll =>
    if s.poll = .finished then some { s with application := .unlockJoin } else none
  | .unlockJoin => some { s with application := .returned, connectMutex := none }
  | .returned => none

def pollStep (s : SyncClose) (fails : Bool) : Option SyncClose :=
  match s.poll with
  | .polling =>
    if fails then some { s with poll := .failing }
    else if s.transportClosing then some { s with poll := .finished }
    else some s
  | .failing =>
    if s.transportClosing then some { s with poll := .finished }
    else some { s with poll := .onError, transportClosing := true }
  | .onError => some { s with poll := .stopRequest }
  | .stopRequest => some { s with poll := .takeHeartbeat }
  | .takeHeartbeat =>
    if s.handle = .held then some { s with handle := .taken, poll := .joinHeartbeat }
    else some { s with poll := .onClose }
  | .joinHeartbeat =>
    if s.heartbeat = .finished then some { s with poll := .onClose } else none
  | .onClose => some { s with poll := .finished }
  | .finished => none

def heartbeatStep (s : SyncClose) : Option SyncClose :=
  match s.heartbeat with
  | .declared => some { s with heartbeat := .lockClose }
  | .lockClose =>
    match s.connectMutex with
    | some _ => none
    | none => some { s with heartbeat := .inClose, connectMutex := some .heartbeat }
  | .inClose =>
    let (notify, s) := s.shutdown
    some { s with heartbeat := .unlockClose notify }
  | .unlockClose notify =>
    some { s with
      connectMutex := none
      heartbeat := if notify then .stopRequest else .finished }
  | .stopRequest => some { s with heartbeat := .detachSelf }
  | .detachSelf =>
    some { s with
      handle := if s.handle = .held then .detached else s.handle
      heartbeat := .onClose }
  | .onClose => some { s with heartbeat := .finished }
  | .finished => none

def step (s : SyncClose) : Action → Option SyncClose
  | .application => s.applicationStep
  | .poll fails => s.pollStep fails
  | .heartbeat => s.heartbeatStep

/-- The thread a thread waits for, if it waits. -/
def awaits (s : SyncClose) : Party → Option Party
  | .application =>
    match s.application with
    | .lockClose _ => s.connectMutex
    | .lockJoin => s.connectMutex
    | .joinHeartbeat _ => if s.heartbeat = .finished then none else some .heartbeat
    | .joinPoll => if s.poll = .finished then none else some .poll
    | _ => none
  | .poll =>
    match s.poll with
    | .joinHeartbeat => if s.heartbeat = .finished then none else some .heartbeat
    | _ => none
  | .heartbeat =>
    match s.heartbeat with
    | .lockClose => s.connectMutex
    | _ => none

/-- The threads do not wait for each other in a circle. -/
def NoCycle (s : SyncClose) : Prop := WaitsAcyclic s.awaits

end SyncClose

/-- Has the heartbeat worker still to take `connect_mutex_`? -/
def HeartbeatPc.beforeLock : HeartbeatPc → Bool
  | .declared => true
  | .lockClose => true
  | _ => false

namespace SyncClose

/-- `join_threads` does not take `connect_mutex_` while the poll worker
joins a heartbeat thread that has still to take it. -/
def InTurn (s : SyncClose) : Action → Prop
  | .application => s.application = .lockJoin → s.poll = .joinHeartbeat →
      s.heartbeat.beforeLock = false
  | _ => True

/-- The threads before the shutdown. The client or the transport may
already be closing. -/
def start (engineClosing transportClosing shutdownOnce : Bool) : SyncClose where
  engineClosing := engineClosing
  transportClosing := transportClosing
  shutdownOnce := shutdownOnce

end SyncClose

end Sioxx
