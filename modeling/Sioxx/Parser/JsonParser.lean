/-
Sioxx.Parser.JsonParser — packets and the default Socket.IO text codec
(`packet.hpp`, `json_parser.cpp`).

    <packet type>[<# attachments>-][<namespace>,][<ack id>][JSON payload]

Definitions only; the proofs are in `JsonParserTheorems.lean`.

* The recursive helpers on a `json&` return the new value. The two
  recursions through a container (`for (auto& child : value)`) are the
  mutual functions over the items of an array and the members of an
  object.
* `decode` works with absolute positions in the payload, as the source
  does, and carries the destination packet `out` through, so that what a
  failed call leaves in it is part of the model.
* `reconstruct_binary` would throw on a placeholder without a number and
  read past the attachments on one with a large number; both are the
  fault `badPlaceholder`.
* `std::set<std::uint64_t>` is the list of its elements in insertion
  order; `insert(..).second` is that the element was not there.
-/
import Sioxx.Json.Value

namespace Sioxx

open Lib

/-- `std::numeric_limits<int>::max()`. -/
def intMax : Nat := 2147483647

inductive PacketType where
  | connect
  | disconnect
  | event
  | ack
  | connectError
  | binaryEvent
  | binaryAck
  deriving DecidableEq, Repr

namespace PacketType

/-- The enumerator's value, its digit on the wire. -/
def digit : PacketType → Nat
  | .connect => 0
  | .disconnect => 1
  | .event => 2
  | .ack => 3
  | .connectError => 4
  | .binaryEvent => 5
  | .binaryAck => 6

/-- `static_cast<packet_type>` of a number in 0..6. -/
def ofDigit : Nat → Option PacketType
  | 0 => some .connect
  | 1 => some .disconnect
  | 2 => some .event
  | 3 => some .ack
  | 4 => some .connectError
  | 5 => some .binaryEvent
  | 6 => some .binaryAck
  | _ => none

/-- A type whose header carries an attachment count. -/
def isBinary : PacketType → Bool
  | .binaryEvent | .binaryAck => true
  | _ => false

/-- A type `encode` moves binary values out of. -/
def carriesBinary : PacketType → Bool
  | .event | .binaryEvent | .ack | .binaryAck => true
  | _ => false

end PacketType

structure Packet where
  type : PacketType := .event
  nsp : Bytes := ascii "/"
  id : Int := -1
  data : Json := .null
  attachments : Nat := 0

/-- One call of the `frame_writer`. -/
structure Frame where
  payload : Bytes
  isBinary : Bool
  deriving DecidableEq, Repr

inductive EncodeError where
  /-- `std::length_error("too many Socket.IO binary attachments")` -/
  | tooManyAttachments
  | json (e : JsonError)
  deriving DecidableEq, Repr

inductive DecodeFault where
  | badPlaceholder
  deriving DecidableEq, Repr

namespace JsonParser

def placeholderKey : Bytes := ascii "_placeholder"

def numKey : Bytes := ascii "num"

/-- `json{{"_placeholder", true}, {"num", index}}` -/
def placeholder (index : Nat) : Json :=
  .obj [(placeholderKey, .bool true), (numKey, .int index)]

mutual

def deconstructBinary : Json → List Bytes → Json × List Bytes
  | .binary bytes _, attachments => (placeholder attachments.length, attachments ++ [bytes])
  | .arr items, attachments =>
    let (items, attachments) := deconstructItems items attachments
    (.arr items, attachments)
  | .obj members, attachments =>
    let (members, attachments) := deconstructMembers members attachments
    (.obj members, attachments)
  | v, attachments => (v, attachments)

def deconstructItems : List Json → List Bytes → List Json × List Bytes
  | [], attachments => ([], attachments)
  | v :: rest, attachments =>
    let (v, attachments) := deconstructBinary v attachments
    let (rest, attachments) := deconstructItems rest attachments
    (v :: rest, attachments)

def deconstructMembers :
    List (Bytes × Json) → List Bytes → List (Bytes × Json) × List Bytes
  | [], attachments => ([], attachments)
  | (k, v) :: rest, attachments =>
    let (v, attachments) := deconstructBinary v attachments
    let (rest, attachments) := deconstructMembers rest attachments
    ((k, v) :: rest, attachments)

end

/-- The loop of `parse_nonnegative_int` over the bytes still to read. -/
def parseDigits : Bytes → Nat → Option Nat
  | [], result => some result
  | b :: rest, result =>
    if !isDigit b then none
    else if result > (intMax - digitValue b) / 10 then none
    else parseDigits rest (result * 10 + digitValue b)

/-- `parse_nonnegative_int(value, begin, end, out)`; `none` is `false`. -/
def parseNonnegativeInt (value : Bytes) (first last : Nat) : Option Nat :=
  if first = last then none else parseDigits (substr value first (last - first)) 0

def isBinaryPlaceholder : Json → Bool
  | .obj members =>
    match Json.lookup placeholderKey members with
    | some (.bool b) => b
    | _ => false
  | _ => false

/-- The integer under `"num"`, when there is one and it is not negative. -/
def readPlaceholderIndex : Json → Option Nat
  | .obj members =>
    match Json.lookup numKey members with
    | some (.int i) => if i < 0 then none else some i.toNat
    | _ => none
  | _ => none

mutual

/-- `none` is the result `false`. -/
def collectPlaceholderIndices (attachmentCount : Nat) :
    Json → List Nat → Option (List Nat)
  | .arr items, indices => collectItems attachmentCount items indices
  | .obj members, indices =>
    if isBinaryPlaceholder (.obj members) then
      match readPlaceholderIndex (.obj members) with
      | none => none
      | some index =>
        if index ≥ attachmentCount then none
        else if indices.contains index then none
        else some (indices ++ [index])
    else collectMembers attachmentCount members indices
  | _, indices => some indices

def collectItems (attachmentCount : Nat) : List Json → List Nat → Option (List Nat)
  | [], indices => some indices
  | v :: rest, indices =>
    match collectPlaceholderIndices attachmentCount v indices with
    | none => none
    | some indices => collectItems attachmentCount rest indices

def collectMembers (attachmentCount : Nat) :
    List (Bytes × Json) → List Nat → Option (List Nat)
  | [], indices => some indices
  | (_, v) :: rest, indices =>
    match collectPlaceholderIndices attachmentCount v indices with
    | none => none
    | some indices => collectMembers attachmentCount rest indices

end

def hasValidPlaceholders (data : Json) (attachmentCount : Nat) : Bool :=
  match collectPlaceholderIndices attachmentCount data [] with
  | none => false
  | some indices => indices.length == attachmentCount

/-- `value["num"].get<size_t>()`: unlike `read_placeholder_index` it
converts any number; `none` is the exception for anything else. -/
def getIndex : Json → Option Nat
  | .obj members =>
    match Json.lookup numKey members with
    | some (.int i) => some (i % 2 ^ 64).toNat
    | some (.float bits) => some (Json.truncate bits % 2 ^ 64).toNat
    | _ => none
  | _ => none

mutual

def reconstructBinary (attachments : List Bytes) : Json → Except DecodeFault Json
  | .arr items => do return .arr (← reconstructItems attachments items)
  | .obj members =>
    if isBinaryPlaceholder (.obj members) then
      match getIndex (.obj members) with
      | none => .error .badPlaceholder
      | some index =>
        match attachments[index]? with
        | none => .error .badPlaceholder
        | some bytes => .ok (.binary bytes none)
    else do return .obj (← reconstructMembers attachments members)
  | v => .ok v

def reconstructItems (attachments : List Bytes) : List Json → Except DecodeFault (List Json)
  | [] => .ok []
  | v :: rest => do
    return (← reconstructBinary attachments v) :: (← reconstructItems attachments rest)

def reconstructMembers (attachments : List Bytes) :
    List (Bytes × Json) → Except DecodeFault (List (Bytes × Json))
  | [] => .ok []
  | (k, v) :: rest => do
    return (k, ← reconstructBinary attachments v) :: (← reconstructMembers attachments rest)

end

/-! ## `encode` -/

/-- The packet type after the attachments are known. -/
def normalizeType (type : PacketType) (attachments : List Bytes) : PacketType :=
  if attachments.isEmpty then
    match type with
    | .binaryEvent => .event
    | .binaryAck => .ack
    | type => type
  else
    match type with
    | .event => .binaryEvent
    | .ack => .binaryAck
    | type => type

/-- The text before the payload. -/
def header (type : PacketType) (attachments : Nat) (nsp : Bytes) (id : Int) : Bytes :=
  decimal type.digit
    ++ (if type.isBinary then decimal attachments ++ ascii "-" else [])
    ++ (if nsp ≠ [] ∧ nsp ≠ ascii "/" then nsp ++ ascii "," else [])
    ++ (if id ≥ 0 then decimal id.toNat else [])

/-- `json_parser::encode`: the frames it writes. It throws before the
first write or not at all. -/
def encode (T : JsonText) (packet : Packet) : Except EncodeError (List Frame) :=
  let (data, attachments) :=
    if packet.type.carriesBinary then deconstructBinary packet.data []
    else (packet.data, [])
  if attachments.length > intMax then .error .tooManyAttachments
  else
    let type := normalizeType packet.type attachments
    let out := header type attachments.length packet.nsp packet.id
    let frames (text : Bytes) : List Frame :=
      ⟨text, false⟩ :: attachments.map (fun attachment => ⟨attachment, true⟩)
    if data.isNull then .ok (frames out)
    else
      match T.dump data with
      | .error e => .error (.json e)
      | .ok text => .ok (frames (out ++ text))

end JsonParser

/-! ## `decode` -/

/-- `json_parser`: the header waiting for its attachments, and those that
have arrived. -/
structure JsonParser where
  pendingBinaryPacket : Option Packet := none
  pendingAttachments : List Bytes := []

/-- What a call of `decode` returns and leaves behind. -/
structure Decoded where
  complete : Bool
  out : Packet
  parser : JsonParser

namespace JsonParser

/-- The namespace at position `i` and the position after it. -/
def decodeNsp (payload : Bytes) (i : Nat) : Bytes × Nat :=
  if payload[i]? = some (byteOf '/') then
    match findFrom payload (byteOf ',') i with
    | none => (payload.drop i, payload.length)
    | some comma => (substr payload i (comma - i), comma + 1)
  else (ascii "/", i)

/-- The acknowledgement id at position `i` and the position after it;
`none` when the digits there are no `int`. -/
def decodeId (payload : Bytes) (i : Nat) : Option (Int × Nat) :=
  let stop := digitRunEnd payload i
  if stop > i then
    match parseNonnegativeInt payload i stop with
    | none => none
    | some id => some (id, stop)
  else some (-1, stop)

/-- The payload from position `i` on. -/
def decodeData (T : JsonText) (payload : Bytes) (i : Nat) : Option Json :=
  if i < payload.length then T.parse (payload.drop i) else some .null

/-- The attachment count of a binary header and the position after its
dash; 0 for the other types. -/
def decodeAttachments (payload : Bytes) (type : PacketType) (i : Nat) : Option (Nat × Nat) :=
  if type.isBinary then
    match findFrom payload (byteOf '-') i with
    | none => none
    | some dash =>
      match parseNonnegativeInt payload i dash with
      | none => none
      | some attachments => if attachments = 0 then none else some (attachments, dash + 1)
  else some (0, i)

/-- A text frame, decoded up to the placeholder check; `none` where the
source returns `false`. -/
def decodeHeader (T : JsonText) (payload : Bytes) : Option Packet := do
  let first ← payload[0]?
  if !isDigit first then none
  let type ← PacketType.ofDigit (digitValue first)
  let (attachments, i) ← decodeAttachments payload type 1
  let (nsp, i) := decodeNsp payload i
  let (id, i) ← decodeId payload i
  let data ← decodeData T payload i
  return { type, nsp, id, data, attachments }

/-- A text frame for a parser with nothing pending. -/
def decodeText (T : JsonText) (parser : JsonParser) (payload : Bytes) (out : Packet) :
    Decoded :=
  match decodeHeader T payload with
  | none => ⟨false, out, parser⟩
  | some decoded =>
    if decoded.type.isBinary then
      if hasValidPlaceholders decoded.data decoded.attachments then
        ⟨false, out, { parser with pendingBinaryPacket := some decoded }⟩
      else ⟨false, out, parser⟩
    else ⟨true, decoded, parser⟩

/-- `json_parser::decode(payload, is_binary, out)`. -/
def decode (T : JsonText) (parser : JsonParser) (payload : Bytes) (isBinary : Bool)
    (out : Packet) : Except DecodeFault Decoded :=
  match parser.pendingBinaryPacket with
  | some pending =>
    if isBinary then
      let attachments := parser.pendingAttachments ++ [payload]
      if attachments.length < pending.attachments then
        .ok ⟨false, out, { parser with pendingAttachments := attachments }⟩
      else
        match reconstructBinary attachments pending.data with
        | .error e => .error e
        | .ok data => .ok ⟨true, { pending with data }, {}⟩
    -- a text frame drops the incomplete packet and is decoded afresh
    else .ok (decodeText T {} payload out)
  | none =>
    if isBinary then .ok ⟨false, out, parser⟩ else .ok (decodeText T parser payload out)

/-- Feeding frames in order: the results returned, the destination packet
and the parser at the end. -/
def feed (T : JsonText) (parser : JsonParser) (out : Packet) :
    List Frame → Except DecodeFault (List Bool × Packet × JsonParser)
  | [] => .ok ([], out, parser)
  | frame :: rest =>
    match decode T parser frame.payload frame.isBinary out with
    | .error e => .error e
    | .ok d =>
      match feed T d.parser d.out rest with
      | .error e => .error e
      | .ok (results, out, parser) => .ok (d.complete :: results, out, parser)

/-- The parser states some sequence of `decode` calls leads to. -/
inductive Reachable (T : JsonText) : JsonParser → Prop where
  | fresh : Reachable T {}
  | decode {parser : JsonParser} {payload : Bytes} {isBinary : Bool} {out : Packet}
      {d : Decoded} : Reachable T parser →
      JsonParser.decode T parser payload isBinary out = .ok d → Reachable T d.parser

end JsonParser

end Sioxx
