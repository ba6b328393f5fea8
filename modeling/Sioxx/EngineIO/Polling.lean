/-
Sioxx.EngineIO.Polling — what `http_polling_transport` does with the body
of a poll (`http_polling_transport.cpp`).

`deliver` hands the packets of a body one by one to the message handler,
which is `engineio_client::handle_transport_message`. Before each packet
it reads `closing_`, which other threads and the handlers may have set
meanwhile, and the handler reads the clock; the readings are arguments,
indexed by the packet.
-/
import Sioxx.EngineIO.Client

namespace Sioxx

open Lib

/-! ## Binary packets -/

/-- The alphabet of `proxy.cpp`. -/
def base64Alphabet : Bytes :=
  ascii "ABCDEFGHIJKLMNOPQRSTUVWXYZabcdefghijklmnopqrstuvwxyz0123456789+/"

/-- `base64[n & 63]` -/
def base64Char (n : Nat) : UInt8 := base64Alphabet.getD (n % 64) 0

/-- One turn of the loop of `base64_encode`: the characters of up to three
bytes. -/
def base64Group (x : UInt8) (y z : Option UInt8) : Bytes :=
  let value := x.toNat * 2 ^ 16 + (y.elim 0 UInt8.toNat) * 2 ^ 8 + z.elim 0 UInt8.toNat
  [base64Char (value / 2 ^ 18), base64Char (value / 2 ^ 12),
    if y.isSome then base64Char (value / 2 ^ 6) else byteOf '=',
    if z.isSome then base64Char value else byteOf '=']

def base64Encode : Bytes → Bytes
  | [] => []
  | [x] => base64Group x none none
  | [x, y] => base64Group x (some y) none
  | x :: y :: z :: rest => base64Group x (some y) (some z) ++ base64Encode rest

def pollingEncodeBinary (payload : Bytes) : Bytes := byteOf 'b' :: base64Encode payload

/-- `base64_value`; `none` is -1. -/
def base64Value (c : UInt8) : Option Nat :=
  if byteOf 'A' ≤ c ∧ c ≤ byteOf 'Z' then some (c.toNat - 65)
  else if byteOf 'a' ≤ c ∧ c ≤ byteOf 'z' then some (c.toNat - 97 + 26)
  else if byteOf '0' ≤ c ∧ c ≤ byteOf '9' then some (c.toNat - 48 + 52)
  else if c = byteOf '+' then some 62
  else if c = byteOf '/' then some 63
  else none

/-- One turn of the loop: the bytes of four characters. -/
def base64Quad (w x y z : UInt8) : Option Bytes :=
  match base64Value w, base64Value x,
    (if y = byteOf '=' then some 0 else base64Value y),
    (if z = byteOf '=' then some 0 else base64Value z) with
  | some a, some b, some c, some d =>
    let value := a * 2 ^ 18 + b * 2 ^ 12 + c * 2 ^ 6 + d
    some ([UInt8.ofNat (value / 2 ^ 16)]
      ++ (if y ≠ byteOf '=' then [UInt8.ofNat (value / 2 ^ 8)] else [])
      ++ (if z ≠ byteOf '=' then [UInt8.ofNat value] else []))
  | _, _, _, _ => none

/-- `base64_decode`; `none` is `false`. -/
def base64Decode : Bytes → Option Bytes
  | [] => some []
  | w :: x :: y :: z :: rest =>
    match base64Quad w x y z with
    | none => none
    | some bytes => (base64Decode rest).map (bytes ++ ·)
  | _ => none

def pollingDecodeBinary (packet : Bytes) : Option Bytes :=
  match packet with
  | [] => none
  | c :: rest => if c = byteOf 'b' then base64Decode rest else none

/-! ## Splitting a body -/

/-- ASCII RS, which separates the packets of a body. -/
def recordSeparator : UInt8 := 0x1e

/-- The loop of `polling_split_payload` from position `start`. Each turn
moves past a separator, so `fuel` bounds the turns. -/
def splitFrom (payload : Bytes) : Nat → Nat → List Bytes
  | 0, _ => []
  | fuel + 1, start =>
    if start ≤ payload.length then
      let separator := findFrom payload recordSeparator start
      let stop := separator.getD payload.length
      let packets := if stop > start then [substr payload start (stop - start)] else []
      match separator with
      | none => packets
      | some separator => packets ++ splitFrom payload fuel (separator + 1)
    else []

def pollingSplitPayload (payload : Bytes) : List Bytes :=
  splitFrom payload (payload.length + 1) 0

/-! ## Delivering it -/

structure PollingTransport where
  sid : Bytes := []
  deriving DecidableEq, Repr

structure Delivered where
  transport : PollingTransport
  client : EngineIOClient
  effects : List Effect
  thrown : Option JsonError

namespace PollingTransport

/-- The session id is taken from a handshake on its way through. -/
def noteHandshake (T : JsonText) (t : PollingTransport) (packet : Bytes) :
    Except JsonError PollingTransport :=
  if packet.head? = some (byteOf '0') then
    match T.parse packet.tail with
    | none => .ok t
    | some handshake =>
      match handshake.value Json.getString (ascii "sid") [] with
      | .error e => .error e
      | .ok sid => .ok { t with sid }
  else .ok t

/-- The call of the message handler for one packet. -/
def forward (T : JsonText) (c : EngineIOClient) (now : Nat) (packet : Bytes) : Handled :=
  if packet.head? = some (byteOf 'b') then
    match pollingDecodeBinary packet with
    | some decoded => EngineIOClient.handleTransportMessage T c now decoded true
    | none => ⟨c, [], none⟩
  else EngineIOClient.handleTransportMessage T c now packet false

/-- The loop of `deliver`, at packet number `n`. -/
def deliverFrom (T : JsonText) (closing : Nat → Bool) (now : Nat → Nat) :
    Nat → List Bytes → PollingTransport → EngineIOClient → Delivered
  | _, [], t, c => ⟨t, c, [], none⟩
  | n, packet :: rest, t, c =>
    if closing n then ⟨t, c, [], none⟩
    else
      match noteHandshake T t packet with
      | .error e => ⟨t, c, [], some e⟩
      | .ok t =>
        let first := forward T c (now n) packet
        match first.thrown with
        | some e => ⟨t, first.client, first.effects, some e⟩
        | none =>
          let others := deliverFrom T closing now (n + 1) rest t first.client
          { others with effects := first.effects ++ others.effects }

def deliver (T : JsonText) (closing : Nat → Bool) (now : Nat → Nat) (t : PollingTransport)
    (c : EngineIOClient) (body : Bytes) : Delivered :=
  deliverFrom T closing now 0 (pollingSplitPayload body) t c

/-! ### Any message handler

The loop of `deliver` for an arbitrary handler with a state of its own;
`forward` and `deliver` above are the case of `engineio_client`. -/

def callHandler {σ : Type} (handler : MessageHandler σ) (n : Nat) (packet : Bytes) (s : σ) :
    σ × Option JsonError :=
  if packet.head? = some (byteOf 'b') then
    match pollingDecodeBinary packet with
    | some decoded => handler n decoded true s
    | none => (s, none)
  else handler n packet false s

def deliverToFrom {σ : Type} (T : JsonText) (closing : Nat → Bool) (handler : MessageHandler σ) :
    Nat → List Bytes → PollingTransport → σ → PollingTransport × σ × Option JsonError
  | _, [], t, s => (t, s, none)
  | n, packet :: rest, t, s =>
    if closing n then (t, s, none)
    else
      match noteHandshake T t packet with
      | .error e => (t, s, some e)
      | .ok t =>
        match callHandler handler n packet s with
        | (s, some e) => (t, s, some e)
        | (s, none) => deliverToFrom T closing handler (n + 1) rest t s

def deliverTo {σ : Type} (T : JsonText) (closing : Nat → Bool) (handler : MessageHandler σ)
    (t : PollingTransport) (s : σ) (body : Bytes) : PollingTransport × σ × Option JsonError :=
  deliverToFrom T closing handler 0 (pollingSplitPayload body) t s

end PollingTransport

end Sioxx
