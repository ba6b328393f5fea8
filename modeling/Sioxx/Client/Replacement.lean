/-
Sioxx.Client.Replacement — who replaces the connection, and with what.

Three paths of `client_impl` install an engine and open a URL: `connect`,
the worker of `schedule_reconnect` and `activate_polling_fallback`. They
share `base_uri_`, `using_polling_` and `intentional_close_`, and nothing
but the section of `ensure_engineio` is common to them. The worker keeps
the URI it was scheduled for and looks at `intentional_close_` only; the
fallback is decided from `using_polling_` and the engine's own `open_`.

Every thread inside one of these functions has its program counter in
`pool`, and `go i` is its next access to the shared state: an atomic read
or write, or a section. The environment opens, closes and fails the
engines. What the mutexes and joins forbid beyond the sections is in part
left out, which only adds runs: a thread that joins waits for the worker,
but nobody waits for `reconnect_mutex_`. Whether an attempt is left is a
choice (`Sioxx.Client.Reconnect` counts them), and so is whether `connect`
runs on the worker's own thread, where it joins nobody, and whether a URL
can be built.

History. `target` is the URI of the last `connect` and the engine it
installed, from its return until the next `connect` or `close`;
`openSeen` says that an engine has been opened since the last `connect`
was called. `wrongUris` counts URLs opened from another URI than the
target's, `unearned` replacements of the target's engine before it closed
or failed, `lateFallbacks` switches to polling after an open.
-/
import Mathlib.Logic.Function.Basic
import Sioxx.Lib.Bytes
import Sioxx.Lib.Run

namespace Sioxx

open Lib

/-- An `engineio_client`. -/
structure Link where
  started : Bool := false
  isOpen : Bool := false
  /-- It has closed or failed. -/
  ended : Bool := false

/-- Where a thread is. -/
inductive Thread where
  /-- In `connect(uri)`, the `call`-th call: before it looks at
  `intentional_close_`. -/
  | connectStop (call : Nat) (uri : Bytes)
  /-- In `stop_reconnect_thread`, before its section. -/
  | connectReap (call : Nat) (uri : Bytes)
  | connectJoin (call : Nat) (uri : Bytes) (worker : Nat)
  /-- Before `base_uri_ = uri`. -/
  | connectStore (call : Nat) (uri : Bytes)
  /-- Before `intentional_close_ = false`. -/
  | connectResume (call : Nat) (uri : Bytes)
  /-- Before `using_polling_ = options_.force_http_polling`. -/
  | connectReset (call : Nat) (uri : Bytes)
  /-- In `ensure_engineio`. -/
  | connectInstall (call : Nat) (uri : Bytes)
  | connectOpen (call : Nat) (uri : Bytes) (engine : Nat)
  /-- In `on_engineio_close`, before it looks at `intentional_close_`. -/
  | closing (engine : Nat)
  /-- In `schedule_reconnect`, before `uri = base_uri_`. -/
  | scheduling
  /-- Before the section of `reconnect_mutex_`. -/
  | spawning (uri : Bytes)
  | spawnJoin (uri : Bytes) (worker : Nat)
  /-- The worker, waiting out its delay. -/
  | waiting (uri : Bytes)
  | workerInstall (uri : Bytes)
  | workerInstalled (uri : Bytes) (engine : Nat)
  | workerOpen (uri : Bytes) (engine : Nat)
  /-- In `handle_engineio_error`, before it looks at `using_polling_`. -/
  | erring (engine : Nat)
  /-- Before `engineio->is_open()`. -/
  | erringOpen (engine : Nat)
  /-- In `activate_polling_fallback`, before it looks at
  `intentional_close_`. -/
  | fallingBack (engine : Nat)
  /-- Before `using_polling_.exchange(true)`. -/
  | exchanging (engine : Nat)
  | fallbackInstall
  /-- Before the URL is built from `base_uri_`. -/
  | fallbackBuild (engine : Nat)
  | fallbackOpen (uri : Bytes) (engine : Nat)
  /-- In `sync_close`, before it stops the worker. -/
  | stopping
  | stopJoin (worker : Nat)
  | done
  deriving DecidableEq, Repr

structure Replacement where
  forceHttpPolling : Bool := false
  intentionalClose : Bool := false
  usingPolling : Bool := false
  baseUri : Bytes := []
  links : Nat → Link := fun _ => {}
  installed : Nat := 0
  current : Option Nat := none
  pool : Nat → Thread := fun _ => .done
  threads : Nat := 0
  /-- `reconnect_thread_` -/
  worker : Option Nat := none
  /-- How often `connect` was called. -/
  calls : Nat := 0
  target : Option (Bytes × Option Nat) := none
  openSeen : Bool := false
  wrongUris : Nat := 0
  unearned : Nat := 0
  lateFallbacks : Nat := 0

namespace Replacement

inductive Action where
  | connect (uri : Bytes)
  | close
  /-- `sync_close` goes on to stop the worker. -/
  | stop
  | opened (engine : Nat)
  | closed (engine : Nat)
  | failed (engine : Nat)
  | closeArrive (engine : Nat)
  | errorArrive (engine : Nat)
  | go (i : Nat) (choice : Bool)

def setPool (m : Replacement) (i : Nat) (t : Thread) : Replacement :=
  { m with pool := Function.update m.pool i t }

/-- A new thread. -/
def begin (m : Replacement) (t : Thread) : Replacement :=
  { m.setPool m.threads t with threads := m.threads + 1 }

def setLink (m : Replacement) (e : Nat) (link : Link) : Replacement :=
  { m with links := Function.update m.links e link }

/-- Is the target's engine installed, and has it not ended? -/
def targetStands (m : Replacement) : Bool :=
  match m.target with
  | some (_, some e) => decide (m.current = some e) && !(m.links e).ended
  | _ => false

/-- The section of `ensure_engineio`: thread `i` goes on as `next` says,
or as `refused` says on a closed client. -/
def install (m : Replacement) (i : Nat) (next : Nat → Thread) (refused : Replacement) :
    Replacement :=
  if m.intentionalClose then refused
  else
    { m.setPool i (next m.installed) with
      links := Function.update m.links m.installed {}
      current := some m.installed
      installed := m.installed + 1
      unearned := if m.targetStands then m.unearned + 1 else m.unearned }

/-- `engineio->open(build_engineio_url(uri, ..))` -/
def openUri (m : Replacement) (uri : Bytes) (e : Nat) : Replacement :=
  { m.setLink e { m.links e with started := true } with
    wrongUris :=
      match m.target with
      | some (u, _) => if uri = u then m.wrongUris else m.wrongUris + 1
      | none => m.wrongUris }

/-- `connect(uri)` returns; a later call may have begun. -/
def returned (m : Replacement) (call : Nat) (uri : Bytes) (engine : Option Nat) : Replacement :=
  if call + 1 = m.calls then { m with target := some (uri, engine) } else m

/-- The end of `schedule_reconnect`: a new worker. -/
def spawn (m : Replacement) (i : Nat) (uri : Bytes) : Replacement :=
  { (m.setPool i .done).begin (.waiting uri) with worker := some m.threads }

/-- The next access of thread `i`. -/
def goStep (m : Replacement) (i : Nat) (choice : Bool) : Option Replacement :=
  match m.pool i with
  | .connectStop call uri =>
    some (m.setPool i
      (if m.intentionalClose then .connectReap call uri else .connectStore call uri))
  | .connectReap call uri =>
    match m.worker, choice with
    | some w, true => some { m.setPool i (.connectJoin call uri w) with worker := none }
    | _, _ => some (m.setPool i (.connectStore call uri))
  | .connectJoin call uri w =>
    if m.pool w = .done then some (m.setPool i (.connectStore call uri)) else none
  | .connectStore call uri =>
    some { m.setPool i (.connectResume call uri) with baseUri := uri }
  | .connectResume call uri =>
    some { m.setPool i (.connectReset call uri) with intentionalClose := false }
  | .connectReset call uri =>
    some { m.setPool i (.connectInstall call uri) with usingPolling := m.forceHttpPolling }
  | .connectInstall call uri =>
    some (m.install i (.connectOpen call uri) ((m.setPool i .done).returned call uri none))
  | .connectOpen call uri e =>
    if choice then some (((m.openUri uri e).setPool i .done).returned call uri (some e))
    else some (m.setPool i .done)
  | .closing _ => some (m.setPool i (if m.intentionalClose || !choice then .done else .scheduling))
  | .scheduling => some (m.setPool i (.spawning m.baseUri))
  | .spawning uri =>
    if m.intentionalClose then some (m.setPool i .done)
    else
      match m.worker with
      | none => some (m.spawn i uri)
      | some w => some (m.setPool i (.spawnJoin uri w))
  | .spawnJoin uri w => if m.pool w = .done then some (m.spawn i uri) else none
  | .waiting uri => some (m.setPool i (if m.intentionalClose then .done else .workerInstall uri))
  | .workerInstall uri => some (m.install i (.workerInstalled uri) (m.setPool i .done))
  | .workerInstalled uri e =>
    some (m.setPool i (if m.intentionalClose then .done else .workerOpen uri e))
  | .workerOpen uri e =>
    some (if choice then (m.openUri uri e).setPool i .done else m.setPool i .done)
  | .erring e => some (m.setPool i (if m.usingPolling then .done else .erringOpen e))
  | .erringOpen e => some (m.setPool i (if (m.links e).isOpen then .done else .fallingBack e))
  | .fallingBack e => some (m.setPool i (if m.intentionalClose then .done else .exchanging e))
  | .exchanging _ =>
    if m.usingPolling then some (m.setPool i .done)
    else
      some { m.setPool i .fallbackInstall with
        usingPolling := true
        lateFallbacks := if m.openSeen then m.lateFallbacks + 1 else m.lateFallbacks }
  | .fallbackInstall => some (m.install i .fallbackBuild (m.setPool i .done))
  | .fallbackBuild e =>
    some (m.setPool i (if choice then .fallbackOpen m.baseUri e else .done))
  | .fallbackOpen uri e => some ((m.openUri uri e).setPool i .done)
  | .stopping =>
    match m.worker with
    | some w => some { m.setPool i (.stopJoin w) with worker := none }
    | none => some (m.setPool i .done)
  | .stopJoin w => if m.pool w = .done then some (m.setPool i .done) else none
  | .done => none

def step (m : Replacement) : Action → Option Replacement
  | .connect uri =>
    some { m.begin (.connectStop m.calls uri) with
      calls := m.calls + 1, target := none, openSeen := false }
  | .close => some { m with intentionalClose := true, target := none }
  | .stop => some (m.begin .stopping)
  | .opened e =>
    if (m.links e).started then
      some { m.setLink e { m.links e with isOpen := true } with openSeen := true }
    else none
  | .closed e =>
    if (m.links e).started then
      some (m.setLink e { m.links e with isOpen := false, ended := true })
    else none
  | .failed e =>
    if (m.links e).started then some (m.setLink e { m.links e with ended := true }) else none
  | .closeArrive e =>
    if m.current = some e ∧ (m.links e).ended = true ∧ (m.links e).isOpen = false then
      some (m.begin (.closing e))
    else none
  | .errorArrive e =>
    if m.current = some e ∧ (m.links e).ended = true then some (m.begin (.erring e)) else none
  | .go i choice => m.goStep i choice

/-! ## What is asked -/

/-- Since the last `connect` returned, every URL opened was built from its
URI, and its engine was not replaced before it closed or failed. -/
def Aimed (m : Replacement) : Prop := m.wrongUris = 0 ∧ m.unearned = 0

/-- `using_polling_` was set only before the first open since `connect`. -/
def InitialFallback (m : Replacement) : Prop := m.lateFallbacks = 0

end Replacement

/-! ## Kinds of threads -/

namespace Thread

/-- The call of `connect` the thread is in. -/
def call : Thread → Option Nat
  | .connectStop k _ | .connectReap k _ | .connectJoin k _ _ | .connectStore k _
  | .connectResume k _ | .connectReset k _ | .connectInstall k _ | .connectOpen k _ _ => some k
  | _ => none

/-- In `connect`, after the URI is stored and before the engine is
installed. -/
def installing : Thread → Bool
  | .connectResume _ _ | .connectReset _ _ | .connectInstall _ _ => true
  | _ => false

/-- In `connect`, after the URI is stored. -/
def connecting : Thread → Bool
  | .connectOpen _ _ _ => true
  | t => t.installing

/-- Decided to replace the engine, and not yet done so. -/
def replacing : Thread → Bool
  | .scheduling | .spawning _ | .spawnJoin _ _ | .waiting _ | .workerInstall _
  | .fallbackInstall => true
  | _ => false

/-- The worker or the fallback with its engine installed and a URI to
open. -/
def reopening : Thread → Bool
  | .workerInstalled _ _ | .workerOpen _ _ | .fallbackOpen _ _ => true
  | _ => false

/-- The URI the thread will open. -/
def uri : Thread → Option Bytes
  | .connectResume _ u | .connectReset _ u | .connectInstall _ u | .connectOpen _ u _
  | .spawning u | .spawnJoin u _ | .waiting u | .workerInstall u | .workerInstalled u _
  | .workerOpen u _ | .fallbackOpen u _ => some u
  | _ => none

/-- The engine whose end the thread reports. -/
def subject : Thread → Option Nat
  | .closing e | .erring e | .erringOpen e | .fallingBack e | .exchanging e => some e
  | _ => none

end Thread

end Sioxx
