/-
Sioxx.Client.Shutdown — `close()` against one replacement in progress.

The closing thread stores `intentional_close_`, selects `engineio_` under
`engineio_mutex_`, claims `closing_` of the selected engine and closes its
transport. The replacing thread is a reconnect worker or a polling
fallback: it builds an engine, installs it under the same mutex unless the
client is closed, and opens it, past a check of the engine's `closing_`
and a check of the transport's own. Every statement between which the
other thread can come is an action.

The transports differ in one point. A WebSocket transport, and a polling
transport with threads of its own, set their `closing_` inside `close()`.
A polling transport on a caller-owned `io_context` called from outside its
strand only posts the rest of `close()` to the strand (`strandClose`).

`installsAfter` and `lateConnects` are history: the engines installed
after `close()` returned, and the transport `connect()` calls that started
after it and were not stopped by their check.
-/
import Mathlib.Logic.Function.Basic
import Sioxx.Lib.Run

namespace Sioxx

open Lib

/-- An `engineio_client` and its transport. -/
structure Engine where
  polling : Bool := false
  closing : Bool := false
  transportClosing : Bool := false
  /-- The transport's `close()` waits on the strand. -/
  closePosted : Bool := false

/-- The thread in `client_impl::close`. -/
inductive Closer where
  | idle
  | stored
  /-- `current_engineio()` has returned this engine. -/
  | selected (engine : Nat)
  /-- `closing_.exchange(true)` was the first. -/
  | claimed (engine : Nat)
  | returning
  | returned
  deriving DecidableEq, Repr

/-- The thread that replaces the engine. -/
inductive Replacer where
  /-- The reconnect worker, waiting out its delay. -/
  | waiting
  /-- The worker after its wait. -/
  | woken
  /-- In `activate_polling_fallback`, before its test. -/
  | failing
  /-- In `ensure_engineio`, with the engine built. -/
  | building (worker polling : Bool)
  | installed (worker : Bool) (engine : Nat)
  /-- About to call `open()`. -/
  | opening (engine : Nat)
  /-- Past the check of `open()`. -/
  | opened (engine : Nat)
  /-- In `connect()` of the transport, before its check. -/
  | connecting (engine : Nat) (late : Bool)
  | done
  deriving DecidableEq, Repr

/-- The engine this thread has installed. -/
def Replacer.engine : Replacer → Option Nat
  | .installed _ e => some e
  | .opening e => some e
  | .opened e => some e
  | .connecting e _ => some e
  | _ => none

structure Shutdown where
  /-- The client was given an `io_context`. -/
  external : Bool := false
  usingPolling : Bool := false
  intentionalClose : Bool := false
  engines : Nat → Engine := fun _ => {}
  current : Option Nat := none
  next : Nat := 0
  closer : Closer := .idle
  replacer : Replacer := .waiting
  installsAfter : Nat := 0
  lateConnects : Nat := 0

namespace Shutdown

inductive Action where
  | closeStore
  | closeSelect
  | closeClaim
  | closeTransport
  | closeReturn
  /-- The next statement of the replacing thread. -/
  | replace
  /-- A URL that does not parse ends it by an exception. -/
  | replaceThrows
  /-- The strand runs the posted `close()` of a transport. -/
  | strandClose (engine : Nat)

def setEngine (m : Shutdown) (e : Nat) (engine : Engine) : Shutdown :=
  { m with engines := Function.update m.engines e engine }

/-- Does `close()` of the engine's transport only post? -/
def posts (m : Shutdown) (e : Nat) : Bool := m.external && (m.engines e).polling

/-- The section of `ensure_engineio`. -/
def install (m : Shutdown) (worker polling : Bool) : Shutdown :=
  if m.intentionalClose then { m with replacer := .done }
  else
    { m.setEngine m.next { polling } with
      current := some m.next
      next := m.next + 1
      replacer := .installed worker m.next
      installsAfter := if m.closer = .returned then m.installsAfter + 1 else m.installsAfter }

def replaceStep (m : Shutdown) : Option Shutdown :=
  match m.replacer with
  | .waiting => some { m with replacer := if m.intentionalClose then .done else .woken }
  | .woken =>
    some { m with replacer := if m.intentionalClose then .done else .building true m.usingPolling }
  | .failing =>
    if m.intentionalClose || m.usingPolling then some { m with replacer := .done }
    else some { m with usingPolling := true, replacer := .building false true }
  | .building worker polling => some (m.install worker polling)
  | .installed worker e =>
    some { m with replacer := if worker && m.intentionalClose then .done else .opening e }
  | .opening e =>
    some { m with replacer := if (m.engines e).closing then .done else .opened e }
  | .opened e => some { m with replacer := .connecting e (m.closer = .returned) }
  | .connecting e late =>
    some { m with
      replacer := .done
      lateConnects :=
        if late && !(m.engines e).transportClosing then m.lateConnects + 1 else m.lateConnects }
  | .done => none

def step (m : Shutdown) : Action → Option Shutdown
  | .closeStore =>
    if m.closer = .idle then some { m with intentionalClose := true, closer := .stored } else none
  | .closeSelect =>
    if m.closer = .stored then
      match m.current with
      | none => some { m with closer := .returning }
      | some e => some { m with closer := .selected e }
    else none
  | .closeClaim =>
    match m.closer with
    | .selected e =>
      if (m.engines e).closing then some { m with closer := .returning }
      else some { m.setEngine e { m.engines e with closing := true } with closer := .claimed e }
    | _ => none
  | .closeTransport =>
    match m.closer with
    | .claimed e =>
      if m.posts e then
        some { m.setEngine e { m.engines e with closePosted := true } with closer := .returning }
      else
        some { m.setEngine e { m.engines e with transportClosing := true } with
          closer := .returning }
    | _ => none
  | .closeReturn =>
    if m.closer = .returning then some { m with closer := .returned } else none
  | .replace => m.replaceStep
  | .replaceThrows =>
    match m.replacer with
    | .opening _ | .connecting _ _ => some { m with replacer := .done }
    | _ => none
  | .strandClose e =>
    if (m.engines e).closePosted then
      some (m.setEngine e { m.engines e with transportClosing := true, closePosted := false })
    else none

/-- A client with one engine, or none, and a replacement about to begin:
a waiting worker or an error that may fall back. -/
def start (external usingPolling : Bool) (engine : Option Engine) (fallback : Bool) : Shutdown where
  external := external
  usingPolling := usingPolling
  engines := fun _ => engine.getD {}
  current := engine.map fun _ => 0
  next := 1
  replacer := if fallback then .failing else .waiting

end Shutdown

end Sioxx
