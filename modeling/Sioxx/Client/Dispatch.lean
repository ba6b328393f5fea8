/-
Sioxx.Client.Dispatch — from an Engine.IO frame to a socket
(`client_impl::on_engineio_frame`).

The client decodes the frame with its parser, looks up the socket of the
packet's namespace and makes at most one call on it. `Dispatch` is that
call. The map `sockets_` matters here by its keys only.

A `packet_type` outside the enumeration reaches no case of the `switch`.
A custom `parser_factory` is not modelled: `ClientParser` is one of the
two parsers of the library.
-/
import Sioxx.Parser.MsgpackParser

namespace Sioxx

open Lib

/-- `parser_`: one of the two parsers, with its state. -/
inductive ClientParser where
  | json (parser : JsonParser)
  | msgpack

/-- `parser_->encode(packet, ..)` -/
def ClientParser.encode (T : JsonText) (M : Msgpack) (parser : ClientParser) (packet : Packet) :
    Except EncodeError (List Frame) :=
  match parser with
  | .json _ => JsonParser.encode T packet
  | .msgpack => .ok (MsgpackParser.encode M packet)

/-- `parser_->decode(payload, is_binary, packet)` into a fresh packet; a
result `false` is no packet. -/
def ClientParser.decode (T : JsonText) (M : Msgpack) (parser : ClientParser) (frame : Frame) :
    Except DecodeFault (Option RawPacket × ClientParser) :=
  match parser with
  | .json parser =>
    match JsonParser.decode T parser frame.payload frame.isBinary {} with
    | .error e => .error e
    | .ok d => .ok (if d.complete then some (.ofPacket d.out) else none, .json d.parser)
  | .msgpack =>
    let (complete, packet) := MsgpackParser.decode M frame.payload frame.isBinary {}
    .ok (if complete then some packet else none, .msgpack)

/-- The same, where an exception is no packet. -/
def ClientParser.read (T : JsonText) (M : Msgpack) (parser : ClientParser) (frame : Frame) :
    Option RawPacket × ClientParser :=
  match parser.decode T M frame with
  | .error _ => (none, parser)
  | .ok result => result

/-- A call on the socket of namespace `nsp`. -/
inductive Dispatch where
  | markConnected (nsp : Bytes) (connected : Bool)
  | event (nsp event : Bytes) (data : Json) (ackId : Int)
  | ack (nsp : Bytes) (id : Int) (data : Json)

/-- `packet.data.at(0).is_string() ? packet.data.at(0).get<std::string>() : ""` -/
def eventName : Json → Bytes
  | .str s => s
  | _ => []

/-- The `switch` of `on_engineio_frame` for a packet whose namespace has a
socket. -/
def dispatchPacket (packet : RawPacket) : Option Dispatch :=
  match PacketType.ofDigit packet.type.toNat, decide (0 ≤ packet.type) with
  | some .connect, true => some (.markConnected packet.nsp true)
  | some .disconnect, true => some (.markConnected packet.nsp false)
  | some .connectError, true => some (.event packet.nsp (ascii "connect_error") packet.data (-1))
  | some .event, true | some .binaryEvent, true =>
    match packet.data with
    | .arr (name :: args) => some (.event packet.nsp (eventName name) (.arr args) packet.id)
    | _ => none
  | some .ack, true | some .binaryAck, true =>
    if packet.id ≥ 0 then some (.ack packet.nsp packet.id packet.data) else none
  | _, _ => none

/-- `client_impl::on_engineio_frame(payload, is_binary)`. -/
def onEngineioFrame (T : JsonText) (M : Msgpack) (sockets : List Bytes) (parser : ClientParser)
    (frame : Frame) : Except DecodeFault (Option Dispatch × ClientParser) :=
  match parser.decode T M frame with
  | .error e => .error e
  | .ok (none, parser) => .ok (none, parser)
  | .ok (some packet, parser) =>
    .ok (if packet.nsp ∈ sockets then dispatchPacket packet else none, parser)

/-- The frames of a connection, one after the other: the calls made. -/
def onEngineioFrames (T : JsonText) (M : Msgpack) (sockets : List Bytes) :
    ClientParser → List Frame → Except DecodeFault (List Dispatch × ClientParser)
  | parser, [] => .ok ([], parser)
  | parser, frame :: rest =>
    match onEngineioFrame T M sockets parser frame with
    | .error e => .error e
    | .ok (dispatch, parser) =>
      match onEngineioFrames T M sockets parser rest with
      | .error e => .error e
      | .ok (dispatches, parser) => .ok (dispatch.toList ++ dispatches, parser)

end Sioxx
