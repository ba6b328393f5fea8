/-
Sioxx.Client.CloseErrors — `client_impl::close` and `sync_close` when the
functions they call throw (`client.cpp`).

Both run a sequence of steps under `capture_shutdown_error`, which keeps
the first exception and goes on, and rethrow that exception at the end. A
function here returns the exception it throws, if any, and the client it
leaves; `ε` is the type of `std::exception_ptr`.

Which calls throw is up to `ShutdownFaults`. `disconnect` throws out of
`send_packet`, so `connected_` is still set then, and the two functions of
the Engine.IO client throw out of the transport. The sockets are in the
order of `sockets_`, and a pointer of the snapshot is a position.

A transport may also report its closure from within `close()`, which marks
the sockets as disconnected; no later step here reads `connected_`. `calls`
is history: the calls made, each with what it threw.
-/
import Sioxx.EngineIO.Client
import Sioxx.Socket.Socket

namespace Sioxx

open Lib

/-- What shutting down calls. -/
inductive ShutdownCall where
  | cancelTimedAcks (sock : Nat)
  | disconnect (sock : Nat)
  | engineioClose
  | stopReconnectThread
  | engineioSyncClose
  | waitForTimedAcks (sock : Nat)
  deriving DecidableEq, Repr

/-- The exceptions of one shutdown. -/
structure ShutdownFaults (ε : Type) where
  disconnect : Nat → Option ε := fun _ => none
  transportClose : Option ε := none
  stopReconnectThread : Option ε := none
  transportSyncClose : Option ε := none

structure ClosingClient (ε : Type) where
  intentionalClose : Bool := false
  sockets : List Socket := []
  engineio : Option EngineIOClient := none
  /-- `reconnect_thread_` is joinable, and not the calling thread. -/
  reconnectThread : Bool := false
  calls : List (ShutdownCall × Option ε) := []

namespace ClosingClient

variable {ε : Type}

/-- `capture_shutdown_error` -/
def captureShutdownError (firstError : Option ε)
    (operation : ClosingClient ε → Option ε × ClosingClient ε) (c : ClosingClient ε) :
    Option ε × ClosingClient ε :=
  match operation c with
  | (none, c) => (firstError, c)
  | (some e, c) => (if firstError.isNone then some e else firstError, c)

/-- Note a call. -/
def called (c : ClosingClient ε) (call : ShutdownCall) (thrown : Option ε) : ClosingClient ε :=
  { c with calls := c.calls ++ [(call, thrown)] }

def updateSocket (c : ClosingClient ε) (i : Nat) (f : Socket → Socket) : ClosingClient ε :=
  { c with sockets := c.sockets.modify i f }

/-- `sockets_snapshot` -/
def socketsSnapshot (c : ClosingClient ε) : List Nat := List.range c.sockets.length

def connected (c : ClosingClient ε) (i : Nat) : Bool :=
  match c.sockets[i]? with
  | none => false
  | some sock => sock.connected

/-- `cancel_timed_acks` of a socket. -/
def cancelTimedAcks (c : ClosingClient ε) (i : Nat) : ClosingClient ε :=
  (c.updateSocket i Socket.cancelTimedAcks).called (.cancelTimedAcks i) none

/-- `wait_for_timed_acks`: when it returns, no callback is running. -/
def waitForTimedAcks (c : ClosingClient ε) (i : Nat) : ClosingClient ε :=
  (c.updateSocket i fun sock => { sock with activeTimedAcks := 0 }).called
    (.waitForTimedAcks i) none

variable (faults : ShutdownFaults ε)

/-- `disconnect` of a socket. -/
def disconnect (i : Nat) (c : ClosingClient ε) : Option ε × ClosingClient ε :=
  match faults.disconnect i with
  | some e => (some e, c.called (.disconnect i) (some e))
  | none => (none, (c.updateSocket i Socket.markDisconnected).called (.disconnect i) none)

/-- The operation the loop of `close()` captures. -/
def disconnectIfConnected (i : Nat) (c : ClosingClient ε) : Option ε × ClosingClient ε :=
  if c.connected i then disconnect faults i c else (none, c)

/-- What `engineio_client::close()` throws. -/
def engineioCloseThrows (engineio : EngineIOClient) : Option ε :=
  if engineio.closing then none
  else if engineio.transport then faults.transportClose else none

/-- What `engineio_client::sync_close()` throws; it closes first. -/
def engineioSyncCloseThrows (engineio : EngineIOClient) : Option ε :=
  match engineioCloseThrows faults engineio with
  | some e => some e
  | none => if engineio.transport then faults.transportSyncClose else none

/-- `if (auto engineio = current_engineio()) engineio->close();` -/
def closeEngineio (c : ClosingClient ε) : Option ε × ClosingClient ε :=
  match c.engineio with
  | none => (none, c)
  | some engineio =>
    (engineioCloseThrows faults engineio,
      { c with engineio := some engineio.close }.called .engineioClose
        (engineioCloseThrows faults engineio))

/-- `if (auto engineio = current_engineio()) engineio->sync_close();` -/
def syncCloseEngineio (c : ClosingClient ε) : Option ε × ClosingClient ε :=
  match c.engineio with
  | none => (none, c)
  | some engineio =>
    -- the timer is stopped between the two calls that can throw
    let closed :=
      if (engineioCloseThrows faults engineio).isSome then engineio.close
      else engineio.close.stopHeartbeatTimer
    (engineioSyncCloseThrows faults engineio,
      { c with engineio := some closed }.called .engineioSyncClose
        (engineioSyncCloseThrows faults engineio))

def stopReconnectThread (c : ClosingClient ε) : Option ε × ClosingClient ε :=
  let thrown := faults.stopReconnectThread
  let reconnectThread := c.reconnectThread && thrown.isSome
  (thrown, { c with reconnectThread }.called .stopReconnectThread thrown)

/-- The loop of `close()` over the snapshot. -/
def closeSockets : List Nat → Option ε → ClosingClient ε → Option ε × ClosingClient ε
  | [], firstError, c => (firstError, c)
  | i :: rest, firstError, c =>
    let (firstError, c) :=
      captureShutdownError firstError (disconnectIfConnected faults i) (c.cancelTimedAcks i)
    closeSockets rest firstError c

/-- `client_impl::close` -/
def close (c : ClosingClient ε) : Option ε × ClosingClient ε :=
  let c := { c with intentionalClose := true }
  let (firstError, c) := closeSockets faults c.socketsSnapshot none c
  captureShutdownError firstError (closeEngineio faults) c

/-- `client_impl::sync_close` -/
def syncClose (c : ClosingClient ε) : Option ε × ClosingClient ε :=
  let (firstError, c) := captureShutdownError none (close faults) c
  let (firstError, c) := captureShutdownError firstError (stopReconnectThread faults) c
  let (firstError, c) := captureShutdownError firstError (syncCloseEngineio faults) c
  (firstError, c.socketsSnapshot.foldl waitForTimedAcks c)

end ClosingClient

end Sioxx
