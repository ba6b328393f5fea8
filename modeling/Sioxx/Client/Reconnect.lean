/-
Sioxx.Client.Reconnect — the reconnect protocol of `client_impl`.

The parties are the worker threads that `schedule_reconnect` starts, the
calls of `on_engineio_close` (notifiers), and the calls of `connect()` and
`sync_close()` (stoppers). Each has its place in a pool that is addressed by
position; `thread` is what `reconnect_thread_` refers to.

A notifier or a stopper runs on some thread. If that thread is a worker,
`host` names it: past its wait a worker runs the listeners `on_reconnecting_`
and `on_error_`, and these may call the client or close its connection. A
worker does not end before the calls it hosts return. Calls that are nested
in one another on one thread may take their steps here in any order.

A critical section of `reconnect_mutex_` is one step, with two exceptions,
which are what the protocol turns on:

  * a notifier that finds `reconnect_thread_` joinable joins it inside the
    section, so `mutex` records that notifier until the join is over;
  * a worker leaves the mutex for the time of its wait and must take it
    again before it can go on.

`calls` logs the calls of the reconnect and fail listeners. `since` and
`recovered` are history: the attempts scheduled since the last Engine.IO
open, or since `connect()` if there was none, and whether since `connect()`
an open has followed an attempt.
-/
import Sioxx.Lib.Run
import Sioxx.Client.Backoff

namespace Sioxx

/-- Where a worker of `schedule_reconnect` is. -/
inductive ReconnectWorker where
  /-- Before it first takes `reconnect_mutex_`. -/
  | starting
  /-- In `wait_for`, without the mutex. -/
  | waiting
  /-- Woken, and before it has the mutex again. -/
  | waking
  /-- Past the wait: installs and opens the replacement, runs listeners. -/
  | running
  | done
  deriving DecidableEq, Repr

/-- The worker is before or in its wait. -/
def ReconnectWorker.hasToRelock : ReconnectWorker → Bool
  | .starting | .waiting | .waking => true
  | .running | .done => false

/-- Where a call of `on_engineio_close` that schedules an attempt is. -/
inductive NotifierPlace where
  /-- Past the listeners; `reconnect_mutex_` is next. -/
  | scheduling
  /-- Joins the previous worker and holds the mutex. -/
  | joining (worker : Nat)
  | done
  deriving DecidableEq, Repr

structure Notifier where
  host : Option Nat
  place : NotifierPlace
  deriving DecidableEq, Repr

/-- Where a call of `connect()` or `sync_close()` is. -/
inductive StopperPlace where
  /-- In `stop_reconnect_thread`, before `reconnect_mutex_`. -/
  | stopping (connecting : Bool)
  /-- Joins the worker it has moved out, without the mutex. -/
  | joining (connecting : Bool) (worker : Nat)
  /-- In `connect()`, before `intentional_close_` is cleared. -/
  | storing
  | done
  deriving DecidableEq, Repr

structure Stopper where
  host : Option Nat
  place : StopperPlace
  deriving DecidableEq, Repr

/-- A call of a listener, with the value of `since` at that moment. -/
inductive ListenerCall where
  | reconnect (index delay : Int) (sample : ℚ) (since : Nat)
  | fail (since : Nat)
  deriving DecidableEq, Repr

structure Reconnector where
  intentionalClose : Bool := false
  reconnectAttemptsUsed : Int := 0
  /-- The notifier that holds `reconnect_mutex_`. -/
  mutex : Option Nat := none
  thread : Option Nat := none
  workers : List ReconnectWorker := []
  notifiers : List Notifier := []
  stoppers : List Stopper := []
  calls : List ListenerCall := []
  since : Nat := 0
  recovered : Bool := false
  deriving DecidableEq, Repr

/-- What the threads do. A call starts on the thread of the worker `host`,
if one is given. -/
inductive ReconnectAction where
  /-- `connect()` starts, and reads `intentional_close_`. -/
  | connect (host : Option Nat)
  /-- `connect()` clears `intentional_close_` and the counter. -/
  | store (stopper : Nat)
  /-- `on_engineio_open` -/
  | opened
  /-- `on_engineio_close`, with what the jitter distribution gives. -/
  | closed (host : Option Nat) (sample : ℚ)
  | scheduleLock (notifier : Nat)
  | scheduleJoined (notifier : Nat)
  | workerLock (worker : Nat)
  | workerWake (worker : Nat)
  /-- The worker has the mutex again; `expired` if its delay is over. -/
  | workerRelock (worker : Nat) (expired : Bool)
  | workerFinish (worker : Nat)
  | close
  /-- `sync_close()` starts with `close()`. -/
  | syncClose (host : Option Nat)
  | stopLock (stopper : Nat)
  | stopJoined (stopper : Nat)
  deriving DecidableEq, Repr

namespace Reconnector

/-- A listener runs on the thread of the worker, if one is given. -/
def CanHost (s : Reconnector) (host : Option Nat) : Prop :=
  ∀ w ∈ host, s.workers[w]? = some .running

instance (s : Reconnector) (host : Option Nat) : Decidable (s.CanHost host) :=
  inferInstanceAs (Decidable (∀ w ∈ host, s.workers[w]? = some .running))

/-- A call on the worker's thread has not returned. -/
def Hosts (s : Reconnector) (w : Nat) : Prop :=
  (∃ n ∈ s.notifiers, n.host = some w ∧ n.place ≠ .done) ∨
    ∃ k ∈ s.stoppers, k.host = some w ∧ k.place ≠ .done

instance (s : Reconnector) (w : Nat) : Decidable (s.Hosts w) :=
  inferInstanceAs (Decidable ((∃ n ∈ s.notifiers, n.host = some w ∧ n.place ≠ .done) ∨
    ∃ k ∈ s.stoppers, k.host = some w ∧ k.place ≠ .done))

def setNotifier (s : Reconnector) (i : Nat) (place : NotifierPlace) : Reconnector :=
  { s with notifiers := s.notifiers.modify i fun n => { n with place := place } }

def setStopper (s : Reconnector) (k : Nat) (place : StopperPlace) : Reconnector :=
  { s with stoppers := s.stoppers.modify k fun st => { st with place := place } }

def addStopper (s : Reconnector) (host : Option Nat) (place : StopperPlace) : Reconnector :=
  { s with stoppers := s.stoppers ++ [⟨host, place⟩] }

/-- The rest of `connect()`, after `stop_reconnect_thread`. -/
def restart (s : Reconnector) : Reconnector :=
  { s with intentionalClose := false, reconnectAttemptsUsed := 0, since := 0, recovered := false }

/-- What the reconnect listener is told: the delay as an `unsigned`. -/
def reportedDelay (opts : ReconnectOptions) (attempt : Int) (sample : ℚ) : Int :=
  min (reconnectDelayForAttempt opts.reconnectDelay opts.reconnectDelayMax
    opts.reconnectRandomizationFactor attempt sample) (2 ^ 32 - 1)

/-- `schedule_reconnect` up to `reconnect_mutex_`. -/
def scheduleReconnect (opts : ReconnectOptions) (s : Reconnector) (host : Option Nat)
    (sample : ℚ) : Reconnector :=
  if s.reconnectAttemptsUsed ≥ opts.reconnectAttempts then
    { s with calls := s.calls ++ [.fail s.since] }
  else
    let attempt := s.reconnectAttemptsUsed
    let used := s.reconnectAttemptsUsed + 1
    { s with
      reconnectAttemptsUsed := used
      calls := s.calls ++ [.reconnect attempt (reportedDelay opts used sample) sample s.since]
      notifiers := s.notifiers ++ [⟨host, .scheduling⟩]
      since := s.since + 1 }

/-- `on_engineio_close`, as far as reconnection goes. -/
def onEngineioClose (opts : ReconnectOptions) (s : Reconnector) (host : Option Nat)
    (sample : ℚ) : Reconnector :=
  if s.intentionalClose = false ∧ opts.reconnectAttempts > 0 then
    s.scheduleReconnect opts host sample
  else s

/-- The notifier starts a new worker and leaves the critical section. -/
def spawn (s : Reconnector) (i : Nat) : Reconnector :=
  { s.setNotifier i .done with
    workers := s.workers ++ [.starting]
    thread := some s.workers.length
    mutex := none }

/-- The notifier stays in the critical section and joins the worker. -/
def join (s : Reconnector) (i w : Nat) : Reconnector :=
  { s.setNotifier i (.joining w) with mutex := some i }

/-- `stop_reconnect_thread` returns to its caller. -/
def stopped (s : Reconnector) (k : Nat) (connecting : Bool) : Reconnector :=
  s.setStopper k (if connecting then .storing else .done)

def setWorker (s : Reconnector) (w : Nat) (worker : ReconnectWorker) : Reconnector :=
  { s with workers := s.workers.set w worker }

def step (opts : ReconnectOptions) (s : Reconnector) : ReconnectAction → Option Reconnector
  | .connect host =>
    if s.CanHost host then
      some (s.addStopper host (if s.intentionalClose then .stopping true else .storing))
    else none
  | .store k =>
    match s.stoppers[k]? with
    | some ⟨_, .storing⟩ => some (s.restart.setStopper k .done)
    | _ => none
  | .opened => some { s with since := 0, recovered := s.recovered || decide (0 < s.since) }
  | .closed host sample =>
    if s.CanHost host then some (s.onEngineioClose opts host sample) else none
  | .scheduleLock i =>
    match s.notifiers[i]? with
    | some ⟨host, .scheduling⟩ =>
      if s.mutex = none then
        if s.intentionalClose then some (s.setNotifier i .done)
        else
          match s.thread with
          | none => some (s.spawn i)
          | some w =>
            -- a thread that joins itself gets `std::system_error`
            if host = some w then some (s.setNotifier i .done) else some (s.join i w)
      else none
    | _ => none
  | .scheduleJoined i =>
    match s.notifiers[i]? with
    | some ⟨_, .joining w⟩ => if s.workers[w]? = some .done then some (s.spawn i) else none
    | _ => none
  | .workerLock w =>
    if s.workers[w]? = some .starting ∧ s.mutex = none then
      some (s.setWorker w (if s.intentionalClose then .done else .waiting))
    else none
  | .workerWake w =>
    if s.workers[w]? = some .waiting then some (s.setWorker w .waking) else none
  | .workerRelock w expired =>
    if s.workers[w]? = some .waking ∧ s.mutex = none then
      some (s.setWorker w
        (if s.intentionalClose then .done else if expired then .running else .waiting))
    else none
  | .workerFinish w =>
    if s.workers[w]? = some .running ∧ ¬ s.Hosts w then some (s.setWorker w .done) else none
  | .close => some { s with intentionalClose := true }
  | .syncClose host =>
    if s.CanHost host then
      some (addStopper { s with intentionalClose := true } host (.stopping false))
    else none
  | .stopLock k =>
    match s.stoppers[k]? with
    | some ⟨host, .stopping connecting⟩ =>
      if s.mutex = none then
        match s.thread with
        | none => some (s.stopped k connecting)
        | some w =>
          if host = some w then some (s.stopped k connecting)
          else some { s.setStopper k (.joining connecting w) with thread := none }
      else none
    | _ => none
  | .stopJoined k =>
    match s.stoppers[k]? with
    | some ⟨_, .joining connecting w⟩ =>
      if s.workers[w]? = some .done then some (s.stopped k connecting) else none
    | _ => none

/-! ## What is asked of the protocol -/

/-- A call of `connect()` or `sync_close()` on the worker's thread is on its
way to `reconnect_mutex_`. -/
def Stopping (s : Reconnector) (w : Nat) : Prop :=
  ∃ k ∈ s.stoppers, k.host = some w ∧ (k.place = .stopping true ∨ k.place = .stopping false)

instance (s : Reconnector) (w : Nat) : Decidable (s.Stopping w) :=
  inferInstanceAs (Decidable (∃ k ∈ s.stoppers,
    k.host = some w ∧ (k.place = .stopping true ∨ k.place = .stopping false)))

/-- A call of `on_engineio_close` on the worker's thread is on its way to
`reconnect_mutex_`, or inside. -/
def Scheduling (s : Reconnector) (w : Nat) : Prop :=
  ∃ n ∈ s.notifiers, n.host = some w ∧ n.place ≠ .done

instance (s : Reconnector) (w : Nat) : Decidable (s.Scheduling w) :=
  inferInstanceAs (Decidable (∃ n ∈ s.notifiers, n.host = some w ∧ n.place ≠ .done))

/-- The worker still has to take `reconnect_mutex_` before it can finish:
after its wait, or in a call that it hosts. -/
def NeedsMutex (s : Reconnector) (w : Nat) : Prop :=
  (∃ worker ∈ s.workers[w]?, worker.hasToRelock = true) ∨ s.Stopping w ∨ s.Scheduling w

instance (s : Reconnector) (w : Nat) : Decidable (s.NeedsMutex w) :=
  inferInstanceAs (Decidable ((∃ worker ∈ s.workers[w]?, worker.hasToRelock = true) ∨
    s.Stopping w ∨ s.Scheduling w))

/-- The worker hosts a call that joins another worker. -/
def JoinsOther (s : Reconnector) (w : Nat) : Prop :=
  ∃ k ∈ s.stoppers, k.host = some w ∧ ∃ connecting v, k.place = .joining connecting v

/-- A thread joins a worker inside the critical section, and the worker
needs the mutex to finish, or waits for another worker. -/
def Deadlocked (s : Reconnector) : Prop :=
  ∃ i n w, s.mutex = some i ∧ s.notifiers[i]? = some n ∧ n.place = .joining w ∧
    (s.NeedsMutex w ∨ s.JoinsOther w)

/-- No notifier is under way, and the last worker does not need the mutex,
unless it is the one that hosts the next notifier. -/
def Quiet (s : Reconnector) (host : Option Nat) : Prop :=
  (∀ n ∈ s.notifiers, n.place = .done) ∧ ∀ w ∈ s.thread, host = some w ∨ ¬ s.NeedsMutex w

/-- No notifier joins the host. -/
def NotJoined (s : Reconnector) (host : Option Nat) : Prop :=
  ∀ w ∈ host, ∀ n ∈ s.notifiers, n.place ≠ .joining w

/-- When a call may start, and when `connect()` may clear the flag:

  * a close notification that schedules an attempt comes in a quiet state;
  * no worker is joined inside the critical section when a listener on its
    thread begins to stop the reconnect thread;
  * the flag stays set while a call on the last worker's thread is on its
    way to the mutex and a notifier elsewhere is too. -/
def InTurn (opts : ReconnectOptions) (s : Reconnector) : ReconnectAction → Prop
  | .closed host _ =>
    s.intentionalClose = true ∨ opts.reconnectAttempts ≤ s.reconnectAttemptsUsed ∨ s.Quiet host
  | .connect host => s.intentionalClose = false ∨ s.NotJoined host
  | .syncClose host => s.NotJoined host
  | .store _ =>
    ∀ w ∈ s.thread, s.Stopping w → ∀ n ∈ s.notifiers, n.place = .scheduling → n.host = some w
  | _ => True

instance (s : Reconnector) (host : Option Nat) : Decidable (s.Quiet host) :=
  inferInstanceAs (Decidable ((∀ n ∈ s.notifiers, n.place = .done) ∧
    ∀ w ∈ s.thread, host = some w ∨ ¬ s.NeedsMutex w))

instance (s : Reconnector) (host : Option Nat) : Decidable (s.NotJoined host) :=
  inferInstanceAs (Decidable (∀ w ∈ host, ∀ n ∈ s.notifiers, n.place ≠ .joining w))

instance (opts : ReconnectOptions) (s : Reconnector) (a : ReconnectAction) :
    Decidable (s.InTurn opts a) :=
  match a with
  | .closed host _ => inferInstanceAs (Decidable
      (s.intentionalClose = true ∨ opts.reconnectAttempts ≤ s.reconnectAttemptsUsed ∨ s.Quiet host))
  | .connect host => inferInstanceAs (Decidable (s.intentionalClose = false ∨ s.NotJoined host))
  | .syncClose host => inferInstanceAs (Decidable (s.NotJoined host))
  | .store _ => inferInstanceAs (Decidable (∀ w ∈ s.thread, s.Stopping w →
      ∀ n ∈ s.notifiers, n.place = .scheduling → n.host = some w))
  | .opened | .scheduleLock _ | .scheduleJoined _ | .workerLock _ | .workerWake _
  | .workerRelock _ _ | .workerFinish _ | .close | .stopLock _ | .stopJoined _ => .isTrue trivial

end Reconnector

/-- The call counts the attempts since the last open. -/
def ListenerCall.Consecutive (opts : ReconnectOptions) : ListenerCall → Prop
  | .reconnect index delay sample since =>
    index = since ∧ delay = Reconnector.reportedDelay opts (index + 1) sample
  | .fail since => (since : Int) = opts.reconnectAttempts

instance (opts : ReconnectOptions) (c : ListenerCall) : Decidable (c.Consecutive opts) :=
  match c with
  | .reconnect index delay sample since =>
    inferInstanceAs (Decidable
      (index = since ∧ delay = Reconnector.reportedDelay opts (index + 1) sample))
  | .fail since => inferInstanceAs (Decidable ((since : Int) = opts.reconnectAttempts))

/-- The close notification schedules nothing, or no open has followed an
attempt since `connect()`. -/
def Reconnector.NotRecovered (opts : ReconnectOptions) (s : Reconnector) : ReconnectAction → Prop
  | .closed _ _ =>
    s.intentionalClose = true ∨ opts.reconnectAttempts ≤ 0 ∨ s.recovered = false
  | _ => True

end Sioxx
