/-
Sioxx.EngineIO.PollingClose — who tells that `http_polling_transport` has
closed.

`fail`, `close` and `sync_close` may be called by any number of threads at
the same time. They agree through three things: the atomic `closing_`,
which one of them sets first; `connect_mutex_`, which `close` takes around
its shutdown and `join_threads` around its joins; and `shutdown_once_`. A
call is in the list `calls` with its place in the function, from its
beginning to its return; an action is a new call, or the next step of one.

  * `fail` calls the error handler and then the close handler, if its
    exchange was the first;
  * `close` runs its shutdown once and calls the close handler, if the
    exchange in there was the first; on a caller-owned `io_context` it posts
    itself to the strand first, and `posted` counts these;
  * `sync_close` is `close`, and with threads of its own also
    `join_threads`. The joins themselves are not modelled: it may release
    `connect_mutex_` at any time.

A handler may throw. That ends the call; if it is the error handler, the
close handler is not reached, and `interrupted` counts this.

What happens to the queue of writes is in `PollingWrites.lean`. The fields
from `made` on are history, and so is `winner`: the call that set
`closing_`.
-/
import Sioxx.EngineIO.PollingWrites

namespace Sioxx

open Lib

/-- The call whose exchange found `closing_` clear. -/
inductive Winner where
  | fail (message : Bytes)
  | close
  deriving DecidableEq, Repr

/-- Where a call is. The flag of the `close` ones says whether it is
`sync_close` with threads to join. -/
inductive ClosePc where
  /-- In `fail`, before the exchange. -/
  | failing (message : Bytes)
  /-- In `fail`, before the error handler. -/
  | reporting (message : Bytes)
  /-- In `fail`, before the close handler. -/
  | reported (message : Bytes)
  /-- In `close`, before `connect_mutex_`. -/
  | closing (joins : Bool)
  /-- With `connect_mutex_`, before `call_once`. -/
  | shutdown (joins : Bool)
  /-- With `connect_mutex_`, after `call_once`. -/
  | unlocking (notify joins : Bool)
  /-- In `close`, before the close handler. -/
  | notifying (joins : Bool)
  /-- In `join_threads`, before `connect_mutex_`. -/
  | joining
  | joined
  deriving DecidableEq, Repr

/-- The handlers a call will run. -/
inductive Duty where
  | report (message : Bytes)
  | closeFailed (message : Bytes)
  | close
  deriving DecidableEq, Repr

def ClosePc.duty : ClosePc → Option Duty
  | .reporting message => some (.report message)
  | .reported message => some (.closeFailed message)
  | .unlocking notify _ => if notify then some .close else none
  | .notifying _ => some .close
  | _ => none

/-- A call that has not come to its exchange. -/
def ClosePc.early : ClosePc → Bool
  | .failing _ => true
  | .closing _ => true
  | .shutdown _ => true
  | _ => false

structure PollingClose where
  mode : PollingMode
  closing : Bool := false
  shutdownOnce : Bool := false
  connectMutex : Bool := false
  calls : List ClosePc := []
  posted : Nat := 0
  made : Nat := 0
  winner : Option Winner := none
  errors : List Bytes := []
  closes : List Bytes := []
  interrupted : Nat := 0
  deriving DecidableEq, Repr

namespace PollingClose

inductive Action where
  | fail (message : Bytes)
  /-- `close()` or `sync_close()`, on the strand or not. -/
  | close (joins onStrand : Bool)
  | strandClose
  /-- The next step of a call; a handler it runs may throw. -/
  | call (i : Nat) (throws : Bool)
  deriving DecidableEq, Repr

def start (mode : PollingMode) : PollingClose := { mode }

def setCall (s : PollingClose) (i : Nat) (pc : ClosePc) : PollingClose :=
  { s with calls := s.calls.set i pc }

def endCall (s : PollingClose) (i : Nat) : PollingClose :=
  { s with calls := s.calls.eraseIdx i }

/-- The end of `close`, or of `sync_close`. -/
def afterClose (s : PollingClose) (i : Nat) (joins : Bool) : PollingClose :=
  if joins then s.setCall i .joining else s.endCall i

def callStep (s : PollingClose) (i : Nat) (throws : Bool) : Option PollingClose :=
  match s.calls[i]? with
  | none => none
  | some (.failing message) =>
    if s.closing then some (s.endCall i)
    else
      some { s.setCall i (.reporting message) with
        closing := true, winner := some (.fail message) }
  | some (.reporting message) =>
    let s := { s with errors := s.errors ++ [message] }
    if throws then some { s.endCall i with interrupted := s.interrupted + 1 }
    else some (s.setCall i (.reported message))
  | some (.reported message) => some { s.endCall i with closes := s.closes ++ [message] }
  | some (.closing joins) =>
    if s.connectMutex then none
    else some { s.setCall i (.shutdown joins) with connectMutex := true }
  | some (.shutdown joins) =>
    if s.shutdownOnce then some (s.setCall i (.unlocking false joins))
    else
      some { s.setCall i (.unlocking (!s.closing) joins) with
        shutdownOnce := true, closing := true,
        winner := if s.closing then s.winner else some .close }
  | some (.unlocking notify joins) =>
    let s := { s with connectMutex := false }
    if notify then some (s.setCall i (.notifying joins)) else some (s.afterClose i joins)
  | some (.notifying joins) =>
    let s := { s with closes := s.closes ++ [ascii "closed"] }
    if throws then some (s.endCall i) else some (s.afterClose i joins)
  | some .joining =>
    if s.connectMutex then none else some { s.setCall i .joined with connectMutex := true }
  | some .joined => some { s.endCall i with connectMutex := false }

def addCall (s : PollingClose) (pc : ClosePc) : PollingClose :=
  { s with calls := s.calls ++ [pc] }

def step (s : PollingClose) : Action → Option PollingClose
  | .fail message => some { s.addCall (.failing message) with made := s.made + 1 }
  | .close joins onStrand =>
    match s.mode with
    | .managed => some { s.addCall (.closing joins) with made := s.made + 1 }
    | .callerOwned =>
      if onStrand then some { s.addCall (.closing false) with made := s.made + 1 }
      else some { s with posted := s.posted + 1, made := s.made + 1 }
  | .strandClose =>
    if s.posted = 0 then none
    else some { s.addCall (.closing false) with posted := s.posted - 1 }
  | .call i throws => s.callStep i throws

end PollingClose

end Sioxx
