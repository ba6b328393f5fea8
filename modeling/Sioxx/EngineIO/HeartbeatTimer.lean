/-
Sioxx.EngineIO.HeartbeatTimer — the heartbeat worker and the clock
(`start_heartbeat_timer`).

The worker waits for one ping interval, looks at how long ago the last ping
came, and waits again or declares a ping timeout. The thread that reads
from the transport stores the time of a ping or a pong, and starts the
worker anew at an OPEN packet.

Time is in milliseconds and passes by `tick` alone. How late the worker
runs is up to the system; `Prompt` bounds it. The thread that reads handles
an event between two ticks, and a worker that was told to stop has ended
(`stop_heartbeat_timer` waits for it). What follows the declaration, on the
worker and on other threads, is in `Heartbeat.lean`.

`heard` and `timeouts` are history: the OPEN packets that started the
worker, the pings and the pongs, and what the worker declared. `timedOut`
says whether the last worker did.
-/
import Sioxx.EngineIO.Closing

namespace Sioxx

open Lib

inductive TimerPc where
  /-- At the test of the loop, from the given time on. -/
  | looping (since : Nat)
  /-- In `wait_for`, until the given time. -/
  | waiting (deadline : Nat)
  | ended
  deriving DecidableEq, Repr

/-- The worker goes on unless it was told to stop. -/
def TimerPc.unlessStopped (pc : TimerPc) (c : EngineIOClient) : TimerPc :=
  if c.heartbeat then pc else .ended

/-- When the worker can run. -/
def TimerPc.due : TimerPc → Option Nat
  | .looping since => some since
  | .waiting deadline => some deadline
  | .ended => none

/-- A declaration of the worker. -/
structure PingTimeout where
  time : Nat
  pingInterval : Int
  pingTimeout : Int
  heard : List Nat
  deriving DecidableEq, Repr

structure HeartbeatTimer where
  client : EngineIOClient := {}
  now : Nat := 0
  pc : TimerPc := .ended
  heard : List Nat := []
  timeouts : List PingTimeout := []
  timedOut : Bool := false

namespace HeartbeatTimer

inductive Action where
  | tick (d : Nat)
  | deliver (event : EngineIOClient.TransportEvent)
  | close
  | openUrl
  /-- The worker at the test of its loop. -/
  | loop
  /-- The worker after `wait_for`. -/
  | wake

/-- Is it an OPEN packet? -/
def opens : EngineIOClient.TransportEvent → Bool
  | .message payload isBinary => (openText payload isBinary).isSome
  | .close _ => false

/-- Is it a ping or a pong? -/
def hears : EngineIOClient.TransportEvent → Bool
  | .message payload isBinary =>
    !isBinary && (payload.head? == some (byteOf '2') || payload.head? == some (byteOf '3'))
  | .close _ => false

def deliver (T : JsonText) (s : HeartbeatTimer) (event : EngineIOClient.TransportEvent) :
    HeartbeatTimer :=
  let c := (s.client.handleEvent T s.now event).client
  if opens event then
    { s with
      client := c
      pc := (TimerPc.looping s.now).unlessStopped c
      heard := if c.heartbeat then s.heard ++ [s.now] else s.heard
      timedOut := false }
  else
    { s with
      client := c
      pc := s.pc.unlessStopped c
      heard := if hears event then s.heard ++ [s.now] else s.heard }

def step (T : JsonText) (s : HeartbeatTimer) : Action → Option HeartbeatTimer
  | .tick d => some { s with now := s.now + d }
  | .deliver event => some (s.deliver T event)
  | .close => some { s with client := s.client.close, pc := s.pc.unlessStopped s.client.close }
  | .openUrl => some { s with client := s.client.openUrl }
  | .loop =>
    match s.pc with
    | .looping _ =>
      if s.client.isOpen && !s.client.closing && !s.client.heartbeatStopRequested then
        -- A negative duration does not wait.
        some { s with pc := .waiting (s.now + s.client.pingIntervalMs.toNat) }
      else some { s with pc := .ended }
    | _ => none
  | .wake =>
    match s.pc with
    | .waiting deadline =>
      if deadline ≤ s.now then
        if s.client.closing || s.client.heartbeatStopRequested then some { s with pc := .ended }
        else if (s.now : Int) - s.client.lastPong
            ≤ s.client.pingIntervalMs + s.client.pingTimeoutMs then
          some { s with pc := .looping s.now }
        else
          some { s with
            pc := .ended
            timedOut := true
            timeouts := s.timeouts ++ [{
              time := s.now
              pingInterval := s.client.pingIntervalMs
              pingTimeout := s.client.pingTimeoutMs
              heard := s.heard }] }
      else none
    | _ => none

/-- The worker runs at most `δ` later than it could. -/
def Prompt (δ : Nat) (s : HeartbeatTimer) : Action → Prop
  | .tick d => ∀ due ∈ s.pc.due, s.now + d ≤ due + δ
  | _ => True

instance (δ : Nat) (s : HeartbeatTimer) : ∀ a, Decidable (Prompt δ s a)
  | .tick d => inferInstanceAs (Decidable (∀ due ∈ s.pc.due, s.now + d ≤ due + δ))
  | .deliver _ => .isTrue trivial
  | .close => .isTrue trivial
  | .openUrl => .isTrue trivial
  | .loop => .isTrue trivial
  | .wake => .isTrue trivial

end HeartbeatTimer

end Sioxx
