/-
Sioxx.Client.LockTrace — the operations of `client_impl` and `socket` as
programs that lock, unlock and call back.

Each function of `client.cpp` and `socket.cpp` that takes a lock or runs a
listener is a program here, with its `lock_guard` scopes, its calls of other
functions and its exceptions in the order of the source. What a section does
to a socket is the function of `Socket.lean`. Between the sections other
threads may have changed anything, and so may the application inside a
listener.

A join and the wait on a condition are actions of their own (`wait`): the
join of `reconnect_thread_` inside its section, the one outside it, and the
waits that leave their mutex and take it again. What ends them is not said.

What is outside these two files is left to the world: whether a parser or a
transport throws, whether the Engine.IO client that calls in is still the
current one, whether `transport_->close()` calls its close handler on the
same thread, as the polling transport does, and whether it joins the threads
of the transport.

A section of `mark_connected(false)` notes the socket as it found it.
-/
import Sioxx.Lib.LockTrace
import Sioxx.Socket.Socket

namespace Sioxx

open Lib

inductive Mutex where
  | sockets
  | reconnect
  | send
  | engineio
  | socket (nsp : Bytes)
  /-- The mutex of the socket's `ack_scheduler`. -/
  | scheduler (nsp : Bytes)
  | handler
  deriving DecidableEq

/-- The order in which the sections nest. -/
def Mutex.rank : Mutex → Nat
  | .sockets => 0
  | .reconnect => 1
  | .send => 2
  | .engineio => 3
  | .socket _ => 4
  | .scheduler _ => 5
  | .handler => 6

/-- A call of a listener or of an acknowledgement callback. -/
inductive UserCallback where
  | opened (listener : Nat)
  | closed (listener : Nat)
  | failed (listener : Nat)
  | reconnecting (listener : Nat)
  | reconnect (listener : Nat)
  | error (listener : Nat)
  | connected (nsp : Bytes) (listener : Nat)
  | disconnected (nsp : Bytes) (listener : Nat)
  | event (nsp : Bytes) (listener : Nat)
  | ack (nsp : Bytes) (callback : Nat)
  | timedAck (nsp : Bytes) (callback : Nat)
  deriving DecidableEq

/-- The handlers of the application. -/
structure ClientHandlers where
  onOpen : Option Nat := none
  onClose : Option Nat := none
  onFail : Option Nat := none
  onReconnecting : Option Nat := none
  onReconnect : Option Nat := none
  onError : Option Nat := none

structure ClientImpl where
  reconnectAttempts : Int := 0
  forceHttpPolling : Bool := false
  sockets : AList (fun _ : Bytes => Socket) := ∅
  /-- The current Engine.IO client, by its `is_open()`. -/
  engineio : Option Bool := none
  handlers : ClientHandlers := {}
  reconnectAttemptsUsed : Int := 0
  intentionalClose : Bool := false
  usingPolling : Bool := false

namespace ClientImpl

def socketAt (c : ClientImpl) (nsp : Bytes) : Socket := (c.sockets.lookup nsp).getD { nsp }

def setSocket (c : ClientImpl) (nsp : Bytes) (s : Socket) : ClientImpl :=
  { c with sockets := c.sockets.replace nsp s }

end ClientImpl

abbrev Op := Prog ClientImpl Mutex UserCallback Socket

namespace Op

open Prog

/-- What a wait on a condition does once it has found that it has to wait,
inside a section of the mutex: it leaves the section, waits, and takes the
mutex again to look, for some number of times. -/
def waitOn (m : Mutex) : Nat → Op Unit
  | 0 => pure ()
  | rounds + 1 => do
    let waits ← choose
    Prog.when waits do
      wait
      withLock m (pure ())
      waitOn m rounds

/-- A reference to an Engine.IO client goes. If it is the last one, the
destructor closes the transport and joins its threads. -/
def releaseEngineio : Op Unit := do
  let last ← choose
  Prog.when last wait

/-! ## `socket` -/

/-- One section of a socket's mutex. -/
def socketSection {α : Type} (nsp : Bytes) (f : Socket → α × Socket) : Op α :=
  withLock (.socket nsp) do
    let c ← get
    let (a, s) := f (c.socketAt nsp)
    modify (·.setSocket nsp s)
    pure a

/-- A section that only changes the socket: the registration functions. -/
def socketUpdate (nsp : Bytes) (f : Socket → Socket) : Op Unit :=
  socketSection nsp fun s => ((), f s)

/-- A section that only reads the socket. -/
def socketRead {α : Type} (nsp : Bytes) (f : Socket → α) : Op α :=
  socketSection nsp fun s => (f s, s)

/-- Inside a section: a call into the `ack_scheduler`. -/
def schedulerCall (nsp : Bytes) : Op Unit := withLock (.scheduler nsp) (pure ())

def on (nsp event : Bytes) (listener : Nat) : Op Unit := socketUpdate nsp (·.on event listener)

def onAck (nsp event : Bytes) (listener : Nat) : Op Unit :=
  socketUpdate nsp (·.onAck event listener)

def onAny (nsp : Bytes) (listener : Option Nat) : Op Unit := socketUpdate nsp (·.onAny listener)

def onAnyAck (nsp : Bytes) (listener : Option Nat) : Op Unit :=
  socketUpdate nsp (·.onAnyAck listener)

def off (nsp event : Bytes) : Op Unit := socketUpdate nsp (·.off event)

def offAll (nsp : Bytes) : Op Unit := socketUpdate nsp (·.offAll)

def onConnect (nsp : Bytes) (listener : Option Nat) : Op Unit :=
  socketUpdate nsp fun s => { s with onConnect := listener }

def onDisconnect (nsp : Bytes) (listener : Option Nat) : Op Unit :=
  socketUpdate nsp fun s => { s with onDisconnect := listener }

/-- `set_auth` and `auth`; the payload itself is not modelled. -/
def auth (nsp : Bytes) : Op Unit := socketUpdate nsp id

def connected (nsp : Bytes) : Op Bool := socketRead nsp (·.connected)

/-- `current_engineio` -/
def currentEngineio : Op (Option Bool) :=
  withLock .engineio do
    let c ← get
    pure c.engineio

/-- `client_impl::send_packet`; the parser may throw. -/
def sendPacket : Op Unit :=
  withLock .send do
    let engineio ← currentEngineio
    let threw ← attempt (Prog.when engineio.isSome mayThrow)
    Prog.when engineio.isSome releaseEngineio
    throwIf threw

def connectSocket (nsp : Bytes) : Op Unit := do
  auth nsp
  sendPacket

def disconnectSocket (nsp : Bytes) : Op Unit := do
  sendPacket
  socketUpdate nsp (·.markDisconnected)

def sendOrBuffer (nsp : Bytes) (out : Outgoing) : Op Unit := do
  let buffered ← socketSection nsp fun s =>
    if s.mustBuffer then (true, s.buffer out) else (false, s)
  Prog.when (!buffered) sendPacket

/-- The packet of an emission; its annotations play no part here. -/
def outgoing (nsp event : Bytes) (data : Json) (id : Int) (timed : Bool) : Outgoing where
  packet := Socket.eventPacket nsp event data id
  emission := 0
  thread := 0
  timed

def emit (nsp event : Bytes) (data : Json) : Op Unit :=
  sendOrBuffer nsp (outgoing nsp event data (-1) false)

def emitAck (nsp event : Bytes) (data : Json) (callback : Nat) : Op Unit := do
  let id ← socketSection nsp fun s => s.registerAck callback
  sendOrBuffer nsp (outgoing nsp event data id false)

/-- The section of the timed `emit`; the result says whether to send. -/
def registerTimed (nsp event : Bytes) (data : Json) (deadline : Time) (callback : Nat) : Op Bool :=
  withLock (.socket nsp) do
    let c ← get
    match (c.socketAt nsp).registerTimedAck deadline callback with
    | none => do
      throwIf true
      pure false
    | some (id, s) => do
      schedulerCall nsp
      modify (·.setSocket nsp s)
      schedulerCall nsp
      let now ← now
      if s.ackScheduler.expired id now then pure false
      else if s.mustBuffer then do
        modify (·.setSocket nsp (s.buffer (outgoing nsp event data id true)))
        pure false
      else pure true

def emitTimed (nsp event : Bytes) (data : Json) (timeout : Int) (callback : Option Nat) :
    Op Unit := do
  throwIf (decide (timeout ≤ 0) || callback.isNone)
  let now ← now
  let send ← registerTimed nsp event data (Socket.ackDeadline now timeout.toNat)
    (callback.getD 0)
  Prog.when send sendPacket

def invokeTimedAck (nsp : Bytes) (callback : Nat) : Op Unit := do
  let threw ← attempt (Prog.callback (.timedAck nsp callback))
  socketUpdate nsp (·.finishTimedAck)
  throwIf threw

/-- Run a listener, if it is set. -/
def callIf (listener : Option Nat) (call : Nat → UserCallback) : Op Unit :=
  match listener with
  | none => pure ()
  | some l => Prog.callback (call l)

def expireAck (nsp : Bytes) (id : Int) : Op Unit := do
  let claimed ← socketSection nsp (·.expireAck id)
  match claimed with
  | none => pure ()
  | some callback => invokeTimedAck nsp callback

/-- Is the packet at the front of the buffer a timed one? Then a turn of
`flush_send_buffer` asks the scheduler. -/
def frontTimed (s : Socket) : Bool :=
  match s.connected, s.sendBuffer with
  | true, out :: _ => decide (out.packet.id ∈ s.timedAcks)
  | _, _ => false

/-- `flush_send_buffer`, for some number of turns. -/
def flushSendBuffer : Nat → Bytes → Op Unit
  | 0, _ => pure ()
  | rounds + 1, nsp => do
    let turn ← withLock (.socket nsp) do
      let c ← get
      Prog.when (frontTimed (c.socketAt nsp)) (schedulerCall nsp)
      let now ← now
      modify (·.setSocket nsp ((c.socketAt nsp).flushTurn now).2)
      pure ((c.socketAt nsp).flushTurn now).1
    match turn with
    | .done => pure ()
    | .send _ => do
      sendPacket
      flushSendBuffer rounds nsp
    | .expire out => do
      expireAck nsp out.packet.id
      flushSendBuffer rounds nsp

/-- Run the plain listener, or else the one that can acknowledge. -/
def callEither (plain ack : Option Nat) (call : Nat → UserCallback) : Op Unit :=
  match plain with
  | some listener => Prog.callback (call listener)
  | none => callIf ack call

def dispatchEvent (nsp event : Bytes) : Op Unit := do
  let s ← socketRead nsp id
  callEither (s.listeners.lookup event) (s.ackListeners.lookup event) (.event nsp)
  callEither s.anyListener s.anyAckListener (.event nsp)

/-- `send_ack`, when the application acknowledges. -/
def sendAck : Op Unit := sendPacket

def dispatchAck (nsp : Bytes) (id : Int) : Op Unit := do
  let found ← withLock (.socket nsp) do
    let c ← get
    Prog.when (decide (id ∈ (c.socketAt nsp).timedAcks)) (schedulerCall nsp)
    let now ← now
    modify (·.setSocket nsp ((c.socketAt nsp).dispatchAck id now).2)
    pure ((c.socketAt nsp).dispatchAck id now).1
  match found with
  | .timed callback _ => invokeTimedAck nsp callback
  | .plain callback => Prog.callback (.ack nsp callback)
  | .unknown => pure ()

/-- `cancel_timed_acks`; whether there is a scheduler is not modelled. -/
def cancelTimedAcks (nsp : Bytes) : Op Unit :=
  withLock (.socket nsp) do
    let scheduler ← choose
    Prog.when scheduler (schedulerCall nsp)
    modify fun c => c.setSocket nsp (c.socketAt nsp).cancelTimedAcks

def waitForTimedAcks (rounds : Nat) (nsp : Bytes) : Op Unit := do
  socketUpdate nsp id
  waitOn (.socket nsp) rounds

def resumeTimedAcks (nsp : Bytes) : Op Unit := socketUpdate nsp (·.resumeTimedAcks)

/-- The section of `mark_connected`: the socket as it was, and whether to
flush. -/
def markSection (nsp : Bytes) (connected : Bool) : Op (Socket × Bool) :=
  withLock (.socket nsp) do
    let c ← get
    Prog.when (!connected) (saw (c.socketAt nsp))
    modify (·.setSocket nsp ((c.socketAt nsp).markConnected connected).2)
    pure (c.socketAt nsp, ((c.socketAt nsp).markConnected connected).1)

def markConnected (rounds : Nat) (nsp : Bytes) (connected : Bool) : Op Unit := do
  let (s, shouldFlush) ← markSection nsp connected
  if connected && !s.connected then do
    Prog.when shouldFlush (flushSendBuffer rounds nsp)
    callIf s.onConnect (.connected nsp)
  else if !connected && s.connected then callIf s.onDisconnect (.disconnected nsp)
  else pure ()

/-- One turn of the worker of the `ack_scheduler`. -/
def deadlineWorker (nsp : Bytes) : Op Unit := do
  let popped ← withLock (.scheduler nsp) do
    let c ← get
    let now ← now
    match (c.socketAt nsp).ackScheduler.pop now with
    | none => pure none
    | some (id, ackScheduler) => do
      modify (·.setSocket nsp { c.socketAt nsp with ackScheduler })
      pure (some id)
  match popped with
  | none => pure ()
  | some id => expireAck nsp id

/-! ## `client_impl` -/

/-- `current_handler` -/
def currentHandler (which : ClientHandlers → Option Nat) : Op (Option Nat) :=
  withLock .handler do
    let c ← get
    pure (which c.handlers)

/-- `set_handler` -/
def setHandler (f : ClientHandlers → ClientHandlers) : Op Unit :=
  withLock .handler (modify fun c => { c with handlers := f c.handlers })

/-- A handler is looked up and then called. -/
def notify (which : ClientHandlers → Option Nat) (call : Nat → UserCallback) : Op Unit := do
  let handler ← currentHandler which
  callIf handler call

/-- `ensure_engineio`; the result says whether a client was installed. -/
def ensureEngineio : Op Bool := do
  let installed ← withLock .engineio do
    let c ← get
    if c.intentionalClose then pure false
    else do
      modify fun c => { c with engineio := some false }
      pure true
  Prog.when installed releaseEngineio
  pure installed

/-- `ensure_engineio` and `open`. -/
def reopen : Op Unit := do
  let installed ← ensureEngineio
  Prog.when installed mayThrow

/-- Whether the thread object is moved out, to be joined, depends on the
thread that is in it. -/
def stopReconnectThread : Op Unit := do
  let moved ← withLock .reconnect choose
  Prog.when moved wait

def connect : Op Unit := do
  let c ← get
  Prog.when c.intentionalClose stopReconnectThread
  withLock .sockets do
    modify fun c => { c with intentionalClose := false }
    let c ← get
    forEach resumeTimedAcks c.sockets.keys
  modify fun c =>
    { c with usingPolling := c.forceHttpPolling, reconnectAttemptsUsed := 0 }
  reopen

/-- `opened` and `get_sessionid`. -/
def opened : Op Bool := do
  let engineio ← currentEngineio
  pure (engineio == some true)

def onEngineioOpen : Op Unit := do
  withLock .sockets do
    let c ← get
    forEach connectSocket c.sockets.keys
  notify (·.onOpen) .opened

def scheduleReconnect : Op Unit := do
  let c ← get
  if c.reconnectAttemptsUsed ≥ c.reconnectAttempts then notify (·.onFail) .failed
  else do
    modify fun c => { c with reconnectAttemptsUsed := c.reconnectAttemptsUsed + 1 }
    notify (·.onReconnect) .reconnect
    withLock .reconnect do
      let c ← get
      Prog.when (!c.intentionalClose) do
        let joinable ← choose
        Prog.when joinable wait
        mayThrow

/-- The loop of `on_engineio_close`. -/
def disconnectAll (rounds : Nat) : Op Unit :=
  withLock .sockets do
    let c ← get
    forEach (fun nsp => markConnected rounds nsp false) c.sockets.keys

def onEngineioClose (rounds : Nat) : Op Unit := do
  disconnectAll rounds
  notify (·.onClose) .closed
  let c ← get
  Prog.when (!c.intentionalClose && decide (0 < c.reconnectAttempts)) scheduleReconnect

/-- The thread that `schedule_reconnect` starts. -/
def reconnectWorker (rounds : Nat) : Op Unit := do
  withLock .reconnect (pure ())
  waitOn .reconnect rounds
  let stopped ← choose
  let c ← get
  Prog.when (!stopped && !c.intentionalClose) do
    let threw ← attempt do
      let installed ← ensureEngineio
      Prog.when installed do
        notify (·.onReconnecting) .reconnecting
        let c ← get
        Prog.when (!c.intentionalClose) mayThrow
    Prog.when threw (notify (·.onError) .error)

/-- `is_current_engineio` -/
def isCurrentEngineio : Op Bool := withLock .engineio choose

/-- What `on_engineio_frame` does with the packet of a frame. -/
def handlePacket (rounds : Nat) (packet : Packet) : Op Unit := do
  let present ← withLock .sockets do
    let c ← get
    pure (decide (packet.nsp ∈ c.sockets))
  Prog.when present <|
    match packet.type with
    | .connect => markConnected rounds packet.nsp true
    | .disconnect => markConnected rounds packet.nsp false
    | .connectError => dispatchEvent packet.nsp (ascii "connect_error")
    | .event | .binaryEvent =>
      match packet.data with
      | .arr (.str event :: _) => dispatchEvent packet.nsp event
      | .arr (_ :: _) => dispatchEvent packet.nsp []
      | _ => pure ()
    | .ack | .binaryAck => Prog.when (decide (0 ≤ packet.id)) (dispatchAck packet.nsp packet.id)

/-- `on_engineio_frame`, with what the parser made of the frame. -/
def onEngineioFrame (rounds : Nat) (decoded : Option Packet) : Op Unit := do
  mayThrow
  match decoded with
  | none => pure ()
  | some packet => handlePacket rounds packet

/-- `handle_engineio_open` and its siblings: only the current Engine.IO
client is listened to. -/
def ifCurrent (p : Op Unit) : Op Unit := do
  let current ← isCurrentEngineio
  let threw ← attempt (Prog.when current p)
  releaseEngineio
  throwIf threw

def handleEngineioOpen : Op Unit := ifCurrent onEngineioOpen

def handleEngineioClose (rounds : Nat) : Op Unit := ifCurrent (onEngineioClose rounds)

def handleEngineioFrame (rounds : Nat) (decoded : Option Packet) : Op Unit :=
  ifCurrent (onEngineioFrame rounds decoded)

def activatePollingFallback : Op Unit := do
  let c ← get
  if c.intentionalClose || c.usingPolling then pure ()
  else do
    modify fun c => { c with usingPolling := true }
    notify (·.onError) .error
    reopen

def handleEngineioError : Op Unit :=
  ifCurrent do
    let c ← get
    let isOpen ← choose
    Prog.when (!c.usingPolling && !isOpen) activatePollingFallback
    notify (·.onError) .error

/-- `socket(nsp, auth)` -/
def socket (nsp : Bytes) (hasAuth : Bool) : Op Unit :=
  let norm := if nsp.isEmpty then ascii "/" else nsp
  withLock .sockets do
    let c ← get
    if norm ∈ c.sockets then Prog.when hasAuth (auth norm)
    else do
      Prog.when c.intentionalClose (cancelTimedAcks norm)
      modify fun c => { c with sockets := c.sockets.insert norm { nsp := norm } }
      let engineio ← currentEngineio
      let threw ← attempt (Prog.when (engineio == some true) (connectSocket norm))
      Prog.when engineio.isSome releaseEngineio
      throwIf threw

/-- `sockets_snapshot` -/
def socketsSnapshot : Op (List Bytes) :=
  withLock .sockets do
    let c ← get
    pure c.sockets.keys

/-- The loop of `close()`; the result says whether something was thrown. -/
def closeSockets : List Bytes → Op Bool
  | [] => pure false
  | nsp :: rest => do
    cancelTimedAcks nsp
    let threw ← attempt do
      let connected ← connected nsp
      Prog.when connected (disconnectSocket nsp)
    let threw' ← closeSockets rest
    pure (threw || threw')

/-- `engineio_client::close()` and `sync_close()`: the transport may report
its closure on this thread, and join its own. -/
def closeEngineio (rounds : Nat) : Op Unit := do
  let engineio ← currentEngineio
  Prog.when engineio.isSome do
    let threw ← attempt do
      let reports ← choose
      Prog.when reports (handleEngineioClose rounds)
      let joins ← choose
      Prog.when joins wait
      mayThrow
    releaseEngineio
    throwIf threw

def close (rounds : Nat) : Op Unit := do
  modify fun c => { c with intentionalClose := true }
  let nsps ← socketsSnapshot
  let threw ← closeSockets nsps
  let threw' ← attempt (closeEngineio rounds)
  throwIf (threw || threw')

def syncClose (rounds : Nat) : Op Unit := do
  let threw ← attempt (close rounds)
  let threw' ← attempt stopReconnectThread
  let threw'' ← attempt (closeEngineio rounds)
  let nsps ← socketsSnapshot
  forEach (waitForTimedAcks rounds) nsps
  throwIf (threw || threw' || threw'')

end Op

/-- What the application, a transport or a worker of the library can start. -/
inductive Operation where
  | on (nsp event : Bytes) (listener : Nat)
  | onAck (nsp event : Bytes) (listener : Nat)
  | onAny (nsp : Bytes) (listener : Option Nat)
  | onAnyAck (nsp : Bytes) (listener : Option Nat)
  | off (nsp event : Bytes)
  | offAll (nsp : Bytes)
  | onConnect (nsp : Bytes) (listener : Option Nat)
  | onDisconnect (nsp : Bytes) (listener : Option Nat)
  | auth (nsp : Bytes)
  | connected (nsp : Bytes)
  | connectSocket (nsp : Bytes)
  | disconnectSocket (nsp : Bytes)
  | emit (nsp event : Bytes) (data : Json)
  | emitAck (nsp event : Bytes) (data : Json) (callback : Nat)
  | emitTimed (nsp event : Bytes) (data : Json) (timeout : Int) (callback : Option Nat)
  | sendAck
  | dispatchEvent (nsp event : Bytes)
  | dispatchAck (nsp : Bytes) (id : Int)
  | markConnected (nsp : Bytes) (connected : Bool)
  | expireAck (nsp : Bytes) (id : Int)
  | deadlineWorker (nsp : Bytes)
  | setHandler (f : ClientHandlers → ClientHandlers)
  | connect
  | opened
  | socket (nsp : Bytes) (hasAuth : Bool)
  | close
  | syncClose
  | engineioOpen
  | engineioClose
  | engineioFrame (decoded : Option Packet)
  | engineioError
  | reconnectWorker

namespace Operation

/-- The program of an operation. `rounds` bounds the turns of each
`flush_send_buffer` and of each wait on a condition. -/
def prog (rounds : Nat) : Operation → Op Unit
  | .on nsp event listener => Op.on nsp event listener
  | .onAck nsp event listener => Op.onAck nsp event listener
  | .onAny nsp listener => Op.onAny nsp listener
  | .onAnyAck nsp listener => Op.onAnyAck nsp listener
  | .off nsp event => Op.off nsp event
  | .offAll nsp => Op.offAll nsp
  | .onConnect nsp listener => Op.onConnect nsp listener
  | .onDisconnect nsp listener => Op.onDisconnect nsp listener
  | .auth nsp => Op.auth nsp
  | .connected nsp => do
    let _ ← Op.connected nsp
    pure ()
  | .connectSocket nsp => Op.connectSocket nsp
  | .disconnectSocket nsp => Op.disconnectSocket nsp
  | .emit nsp event data => Op.emit nsp event data
  | .emitAck nsp event data callback => Op.emitAck nsp event data callback
  | .emitTimed nsp event data timeout callback => Op.emitTimed nsp event data timeout callback
  | .sendAck => Op.sendAck
  | .dispatchEvent nsp event => Op.dispatchEvent nsp event
  | .dispatchAck nsp id => Op.dispatchAck nsp id
  | .markConnected nsp isConnected => Op.markConnected rounds nsp isConnected
  | .expireAck nsp id => Op.expireAck nsp id
  | .deadlineWorker nsp => Op.deadlineWorker nsp
  | .setHandler f => Op.setHandler f
  | .connect => Op.connect
  | .opened => do
    let _ ← Op.opened
    pure ()
  | .socket nsp hasAuth => Op.socket nsp hasAuth
  | .close => Op.close rounds
  | .syncClose => Op.syncClose rounds
  | .engineioOpen => Op.handleEngineioOpen
  | .engineioClose => Op.handleEngineioClose rounds
  | .engineioFrame decoded => Op.handleEngineioFrame rounds decoded
  | .engineioError => Op.handleEngineioError
  | .reconnectWorker => Op.reconnectWorker rounds

/-- What the operation does with locks and callbacks. -/
def trace (op : Operation) (rounds : Nat) (w : World ClientImpl) (c : ClientImpl) :
    List (LockAction Mutex UserCallback Socket) :=
  (op.prog rounds w { state := c }).2.trace

end Operation

/-- What a listener does that calls `close()` and `socket()`, any number of
times. -/
inductive ListenerCalls : List (LockAction Mutex UserCallback Socket) → Prop where
  | none : ListenerCalls []
  | close {t} (rounds : Nat) (w : World ClientImpl) (c : ClientImpl) :
      ListenerCalls t → ListenerCalls (Operation.close.trace rounds w c ++ t)
  | socket {t} (nsp : Bytes) (hasAuth : Bool) (w : World ClientImpl) (c : ClientImpl) :
      ListenerCalls t → ListenerCalls ((Operation.socket nsp hasAuth).trace 0 w c ++ t)

end Sioxx
