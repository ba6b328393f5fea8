/-
Sioxx.Client.SendPacket — packets of several frames on a connection that
opens and closes.

`client_impl::send_packet` holds `send_mutex_` while `parser_->encode`
writes its frames, so no other packet comes in between. Every write is a
call of `engineio_client::send`, and that call tests `open_` for itself: a
frame written while the connection is not open is dropped without a word,
and the next one is not bound by it. The OPEN and CLOSE packets that move
`open_` are read on the thread of the transport, which takes no lock the
writer holds.

The actions are a call of `send_packet`, its taking `send_mutex_`, the
write of one frame, the return, the events of the transport, and the calls
of `open` and `close` on the connection. A frame that is handed over may
make `transport_->send` throw, which ends the packet. The connection stays
installed. `parser_->encode` is a parameter.
-/
import Sioxx.Lib.Run
import Sioxx.Parser.JsonParser
import Sioxx.EngineIO.Client

namespace Sioxx

open Lib

/-- What `engineio_client::send` makes of a frame. -/
def Frame.message (frame : Frame) : Effect :=
  if frame.isBinary then .transportSend frame.payload true
  else .transportSend (byteOf '4' :: frame.payload) false

namespace EngineIOClient

/-- Does `send` get past its test? -/
def sends (c : EngineIOClient) : Bool := c.transport && c.isOpen

theorem send_eq (c : EngineIOClient) (frame : Frame) :
    c.send frame.payload frame.isBinary = if c.sends then [frame.message] else [] := by
  obtain ⟨payload, isBinary⟩ := frame
  cases hsends : c.sends with
  | true =>
    simp only [sends, Bool.and_eq_true] at hsends
    cases isBinary <;> simp [send, Frame.message, hsends]
  | false =>
    simp only [sends, Bool.and_eq_false_iff] at hsends
    rcases hsends with htransport | hopen
    · simp [send, htransport]
    · simp [send, hopen]

end EngineIOClient

/-- A call that holds `send_mutex_`, by the number of the call, and the
frames it has still to write. -/
structure PacketWriter where
  call : Nat
  rest : List Frame

structure SendPacket where
  engineio : EngineIOClient := {}
  /-- The calls that wait for `send_mutex_`. -/
  called : List Packet := []
  /-- The packets in the order in which their calls got the mutex; the
  position of a packet is the number of its call. -/
  begun : List Packet := []
  writer : Option PacketWriter := none
  /-- What the transport was handed, with the call it comes from. -/
  handed : List (Nat × Effect) := []

namespace SendPacket

inductive Action where
  | call (packet : Packet)
  | lock (i : Nat)
  | write (throws : Bool)
  | unlock
  | event (now : Nat) (event : EngineIOClient.TransportEvent)
  | openUrl
  | close

section

variable (T : JsonText) (encode : Packet → Except EncodeError (List Frame))

/-- The frames `encode` writes: none if it throws. -/
def encoded (packet : Packet) : List Frame :=
  match encode packet with
  | .ok frames => frames
  | .error _ => []

/-- `lock_guard`, up to the first frame. An exception of `encode` gives the
mutex back. -/
def beginPacket (s : SendPacket) (i : Nat) (packet : Packet) : SendPacket :=
  { s with
    called := s.called.eraseIdx i
    begun := s.begun ++ [packet]
    writer :=
      match encode packet with
      | .ok frames => some ⟨s.begun.length, frames⟩
      | .error _ => none }

/-- One call of the `frame_writer`. -/
def writeFrame (s : SendPacket) (call : Nat) (frame : Frame) (rest : List Frame) (throws : Bool) :
    SendPacket :=
  let sent := s.engineio.send frame.payload frame.isBinary
  { s with
    handed := s.handed ++ sent.map (fun effect => (call, effect))
    writer := if throws && !sent.isEmpty then none else some ⟨call, rest⟩ }

def step (s : SendPacket) : Action → Option SendPacket
  | .call packet => some { s with called := s.called ++ [packet] }
  | .lock i =>
    match s.writer, s.called[i]? with
    | none, some packet => some (beginPacket encode s i packet)
    | _, _ => none
  | .write throws =>
    match s.writer with
    | some ⟨call, frame :: rest⟩ => some (s.writeFrame call frame rest throws)
    | _ => none
  | .unlock =>
    match s.writer with
    | some ⟨_, []⟩ => some { s with writer := none }
    | _ => none
  | .event now event => some { s with engineio := (s.engineio.handleEvent T now event).client }
  | .openUrl => some { s with engineio := s.engineio.openUrl }
  | .close => some { s with engineio := s.engineio.close }

/-- What the transport was handed of one call. -/
def block (s : SendPacket) (call : Nat) : List (Nat × Effect) :=
  s.handed.filter (fun sent => sent.1 = call)

/-- A packet as the transport would get it from an open connection. -/
def messages (packet : Packet) : List Effect := (encoded encode packet).map Frame.message

/-- The transport was handed one block after the other, in the order of
the calls; each is a prefix of its packet, so nothing of a packet went out
unless its first frame did. -/
structure PrefixBlocks (s : SendPacket) : Prop where
  blocks : s.handed = (List.range s.begun.length).flatMap s.block
  isPrefix : ∀ call packet, s.begun[call]? = some packet →
    (s.block call).map Prod.snd <+: messages encode packet
  header : ∀ call packet sent, s.begun[call]? = some packet → (call, sent) ∈ s.handed →
    ∃ first rest, encoded encode packet = first :: rest ∧ (call, first.message) ∈ s.handed

/-- With what is left to write, the block of the writer is a prefix of its
packet: nothing was dropped, unless the rest repeats it. -/
def Continues (s : SendPacket) (w : PacketWriter) : Prop :=
  ∀ packet, s.begun[w.call]? = some packet →
    (s.block w.call).map Prod.snd ++ w.rest.map Frame.message <+: messages encode packet

/-- No OPEN packet opens the connection for the rest of a packet that has
lost a frame. -/
def OpensBetweenPackets (s : SendPacket) : Action → Prop
  | .event now event => s.engineio.sends = false →
      (s.engineio.handleEvent T now event).client.sends = true →
      ∀ w, s.writer = some w → s.Continues encode w
  | _ => True

/-- The writer goes on and the transport takes what it is given. -/
def Finishing : Action → Prop
  | .write throws => throws = false
  | .unlock => True
  | _ => False

end

end SendPacket

end Sioxx
