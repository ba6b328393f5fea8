/-
Sioxx.EngineIO.PollingTheorems — a polled body delivers what a WebSocket
would.

Three layers have to be inverse to what the server does: base64 and its
padding (`base64Decode_encode`, by groups of three bytes), the `b` in front
of a binary packet (`callHandler_written`), and the separators
(`splitPayload_join`, by packets). `deliverTo_eq_doRead` puts them together
for an arbitrary message handler: `deliver` on a body and the read loop of
the WebSocket on the same packets make the same calls.
-/
import Sioxx.Json.ReferenceText
import Sioxx.EngineIO.Polling
import Sioxx.EngineIO.WebSocket

namespace Sioxx

open Lib

/-! ## Base64 -/

theorem base64Char_spec : ∀ n, n < 64 →
    base64Value (base64Char n) = some n ∧ base64Char n ≠ byteOf '=' ∧
      base64Char n ≠ recordSeparator := by
  decide +kernel

theorem base64Char_mod (n : Nat) : base64Char n = base64Char (n % 64) := by
  simp [base64Char]

theorem base64Value_char (n : Nat) : base64Value (base64Char n) = some (n % 64) := by
  rw [base64Char_mod]
  exact (base64Char_spec (n % 64) (Nat.mod_lt n (by decide))).1

theorem base64Char_ne_pad (n : Nat) : base64Char n ≠ byteOf '=' := by
  rw [base64Char_mod]
  exact (base64Char_spec (n % 64) (Nat.mod_lt n (by decide))).2.1

theorem base64Char_ne_separator (n : Nat) : base64Char n ≠ recordSeparator := by
  rw [base64Char_mod]
  exact (base64Char_spec (n % 64) (Nat.mod_lt n (by decide))).2.2

/-- A byte is the low part of any number that ends in it. -/
theorem ofNat_eq_byte {n : Nat} {b : UInt8} (h : n % 256 = b.toNat) : UInt8.ofNat n = b := by
  rw [← UInt8.toNat_inj, UInt8.toNat_ofNat', h]

section Quad

variable {w x y z : UInt8} {a b c d : Nat} (hw : base64Value w = some a)
  (hx : base64Value x = some b)
include hw hx

theorem base64Quad_full (hy : base64Value y = some c) (hz : base64Value z = some d)
    (hpad : y ≠ byteOf '=') (hpad' : z ≠ byteOf '=') :
    base64Quad w x y z = some [UInt8.ofNat ((a * 2 ^ 18 + b * 2 ^ 12 + c * 2 ^ 6 + d) / 2 ^ 16),
      UInt8.ofNat ((a * 2 ^ 18 + b * 2 ^ 12 + c * 2 ^ 6 + d) / 2 ^ 8),
      UInt8.ofNat (a * 2 ^ 18 + b * 2 ^ 12 + c * 2 ^ 6 + d)] := by
  rw [base64Quad, hw, hx, if_neg hpad, if_neg hpad', hy, hz]
  simp only [if_pos hpad, if_pos hpad', List.cons_append, List.nil_append]

theorem base64Quad_onePad (hy : base64Value y = some c) (hpad : y ≠ byteOf '=') :
    base64Quad w x y (byteOf '=')
      = some [UInt8.ofNat ((a * 2 ^ 18 + b * 2 ^ 12 + c * 2 ^ 6) / 2 ^ 16),
        UInt8.ofNat ((a * 2 ^ 18 + b * 2 ^ 12 + c * 2 ^ 6) / 2 ^ 8)] := by
  rw [base64Quad, hw, hx, if_neg hpad, if_pos rfl, hy]
  generalize byteOf '=' = pad at hpad ⊢
  simp [hpad]

theorem base64Quad_twoPads :
    base64Quad w x (byteOf '=') (byteOf '=')
      = some [UInt8.ofNat ((a * 2 ^ 18 + b * 2 ^ 12) / 2 ^ 16)] := by
  rw [base64Quad, hw, hx, if_pos rfl]
  generalize byteOf '=' = pad
  simp

end Quad

theorem base64Decode_quad {w x y z : UInt8} {bytes : Bytes} (h : base64Quad w x y z = some bytes)
    (rest : Bytes) :
    base64Decode (w :: x :: y :: z :: rest) = (base64Decode rest).map (bytes ++ ·) := by
  rw [base64Decode, h]

/-- The characters of a number give the number back. -/
theorem sextets_eq {value : Nat} (h : value < 2 ^ 24) :
    value / 2 ^ 18 % 64 * 2 ^ 18 + value / 2 ^ 12 % 64 * 2 ^ 12 + value / 2 ^ 6 % 64 * 2 ^ 6
      + value % 64 = value := by
  omega

theorem base64Decode_three (x y z : UInt8) (rest : Bytes) :
    base64Decode (base64Group x (some y) (some z) ++ rest)
      = (base64Decode rest).map ([x, y, z] ++ ·) := by
  have hx := x.toNat_lt
  have hy := y.toNat_lt
  have hz := z.toNat_lt
  have hquad := base64Quad_full
    (base64Value_char ((x.toNat * 2 ^ 16 + y.toNat * 2 ^ 8 + z.toNat) / 2 ^ 18))
    (base64Value_char ((x.toNat * 2 ^ 16 + y.toNat * 2 ^ 8 + z.toNat) / 2 ^ 12))
    (base64Value_char ((x.toNat * 2 ^ 16 + y.toNat * 2 ^ 8 + z.toNat) / 2 ^ 6))
    (base64Value_char (x.toNat * 2 ^ 16 + y.toNat * 2 ^ 8 + z.toNat))
    (base64Char_ne_pad _) (base64Char_ne_pad _)
  rw [sextets_eq (by omega), ofNat_eq_byte (b := x) (by omega), ofNat_eq_byte (b := y) (by omega),
    ofNat_eq_byte (b := z) (by omega)] at hquad
  exact base64Decode_quad hquad rest

theorem base64Decode_two (x y : UInt8) :
    base64Decode (base64Group x (some y) none) = some [x, y] := by
  have hx := x.toNat_lt
  have hy := y.toNat_lt
  have hquad := base64Quad_onePad
    (base64Value_char ((x.toNat * 2 ^ 16 + y.toNat * 2 ^ 8 + 0) / 2 ^ 18))
    (base64Value_char ((x.toNat * 2 ^ 16 + y.toNat * 2 ^ 8 + 0) / 2 ^ 12))
    (base64Value_char ((x.toNat * 2 ^ 16 + y.toNat * 2 ^ 8 + 0) / 2 ^ 6)) (base64Char_ne_pad _)
  rw [ofNat_eq_byte (b := x) (by omega), ofNat_eq_byte (b := y) (by omega)] at hquad
  exact base64Decode_quad hquad []

theorem base64Decode_one (x : UInt8) :
    base64Decode (base64Group x none none) = some [x] := by
  have hx := x.toNat_lt
  have hquad := base64Quad_twoPads
    (base64Value_char ((x.toNat * 2 ^ 16 + 0 * 2 ^ 8 + 0) / 2 ^ 18))
    (base64Value_char ((x.toNat * 2 ^ 16 + 0 * 2 ^ 8 + 0) / 2 ^ 12))
  rw [ofNat_eq_byte (b := x) (by omega)] at hquad
  exact base64Decode_quad hquad []

/-- **Base64.** Decoding what was encoded gives the bytes back. -/
theorem base64Decode_encode : ∀ payload, base64Decode (base64Encode payload) = some payload
  | [] => rfl
  | [x] => base64Decode_one x
  | [x, y] => base64Decode_two x y
  | x :: y :: z :: rest => by
      rw [base64Encode, base64Decode_three, base64Decode_encode rest]
      rfl

theorem separator_notMem_group (x : UInt8) (y z : Option UInt8) :
    recordSeparator ∉ base64Group x y z := by
  have hchar : ∀ n, recordSeparator ≠ base64Char n := fun n => (base64Char_ne_separator n).symm
  have hpad : recordSeparator ≠ byteOf '=' := by decide
  rw [base64Group]
  simp only [List.mem_cons, List.not_mem_nil, or_false, not_or]
  refine ⟨hchar _, hchar _, ?_, ?_⟩
  · split
    · exact hchar _
    · exact hpad
  · split
    · exact hchar _
    · exact hpad

theorem separator_notMem_encode : ∀ payload, recordSeparator ∉ base64Encode payload
  | [] => by simp [base64Encode]
  | [x] => separator_notMem_group x none none
  | [x, y] => separator_notMem_group x (some y) none
  | x :: y :: z :: rest => by
      rw [base64Encode, List.mem_append, not_or]
      exact ⟨separator_notMem_group x (some y) (some z), separator_notMem_encode rest⟩

/-! ## Splitting -/

/-- The loop of `polling_split_payload` at the start of a packet. -/
theorem splitFrom_join {packets : List Bytes} (hne : packets ≠ [])
    (hpackets : ∀ p ∈ packets, p ≠ [] ∧ recordSeparator ∉ p) (pre : Bytes) {fuel : Nat}
    (hfuel : packets.length ≤ fuel) :
    splitFrom (pre ++ [recordSeparator].intercalate packets) fuel pre.length = packets := by
  induction packets generalizing pre fuel with
  | nil => exact absurd rfl hne
  | cons p rest ih =>
    obtain ⟨hp, hsep⟩ := hpackets p (by simp)
    have hpos : 0 < p.length := List.length_pos_iff.mpr hp
    obtain ⟨fuel, rfl⟩ : ∃ n, fuel = n + 1 :=
      ⟨fuel - 1, by simp only [List.length_cons] at hfuel; omega⟩
    cases rest with
    | nil =>
      have hnone := findFrom_none pre p recordSeparator hsep
      have htake : substr (pre ++ p) pre.length p.length = p := by
        simpa using substr_append pre p []
      rw [List.intercalate_singleton, splitFrom, if_pos (by simp), hnone]
      simp [hpos, htake]
    | cons q rest =>
      have hfound := findFrom_append pre p ([recordSeparator].intercalate (q :: rest))
        recordSeparator hsep
      have htake := substr_append pre p
        (recordSeparator :: [recordSeparator].intercalate (q :: rest))
      have hrest := ih (by simp) (fun p' hp' => hpackets p' (by simp [hp']))
        (pre ++ p ++ [recordSeparator]) (by simpa using hfuel)
      have hbody : pre ++ [recordSeparator].intercalate (p :: q :: rest)
          = pre ++ (p ++ recordSeparator :: [recordSeparator].intercalate (q :: rest)) := by
        simp [List.intercalate_cons_cons]
      have hnext : pre ++ p ++ [recordSeparator] ++ [recordSeparator].intercalate (q :: rest)
          = pre ++ (p ++ recordSeparator :: [recordSeparator].intercalate (q :: rest)) := by
        simp
      rw [hnext] at hrest
      rw [hbody, splitFrom, if_pos (by simp), hfound]
      simp only [Option.getD_some, Nat.add_sub_cancel_left, htake]
      rw [if_pos (by omega)]
      simpa [Nat.add_assoc] using hrest

theorem length_le_join {packets : List Bytes} (hpackets : ∀ p ∈ packets, p ≠ []) :
    packets.length ≤ ([recordSeparator].intercalate packets).length := by
  induction packets with
  | nil => exact Nat.le_refl _
  | cons p rest ih =>
    have hpos : 0 < p.length := List.length_pos_iff.mpr (hpackets p (by simp))
    have hrest := ih fun p' hp' => hpackets p' (by simp [hp'])
    cases rest with
    | nil =>
      rw [List.intercalate_singleton]
      exact hpos
    | cons q rest =>
      rw [List.intercalate_cons_cons]
      simp only [List.length_append, List.length_cons, List.length_nil] at hrest ⊢
      omega

/-- **Splitting a body.** The packets that were joined come back. -/
theorem splitPayload_join {packets : List Bytes}
    (hpackets : ∀ p ∈ packets, p ≠ [] ∧ recordSeparator ∉ p) :
    pollingSplitPayload ([recordSeparator].intercalate packets) = packets := by
  cases packets with
  | nil => rfl
  | cons p rest =>
    have hlength := length_le_join fun p' hp' => (hpackets p' hp').1
    exact splitFrom_join (by simp) hpackets [] (Nat.le_succ_of_le hlength)

/-! ## Packets on both transports -/

/-- An Engine.IO packet. -/
inductive EnginePacket where
  | text (payload : Bytes)
  | binary (blob : Bytes)
  deriving DecidableEq, Repr

namespace EnginePacket

/-- A text packet that is no handshake, and fits in a body. -/
def WellFormed : EnginePacket → Prop
  | .text payload =>
    (∃ b ∈ payload.head?, byteOf '1' ≤ b ∧ b ≤ byteOf '6') ∧ recordSeparator ∉ payload
  | .binary _ => True

/-- The payload and the flag the handler is to be called with. -/
def call : EnginePacket → Bytes × Bool
  | .text payload => (payload, false)
  | .binary blob => (blob, true)

/-- As the polling server writes it. -/
def polled : EnginePacket → Bytes
  | .text payload => payload
  | .binary blob => pollingEncodeBinary blob

/-- As the WebSocket stream delivers it. -/
def read (p : EnginePacket) : ReadResult := .message p.call.1 p.call.2

def pollingBody (packets : List EnginePacket) : Bytes :=
  [recordSeparator].intercalate (packets.map polled)

theorem polled_splits {p : EnginePacket} (hp : p.WellFormed) :
    p.polled ≠ [] ∧ recordSeparator ∉ p.polled := by
  cases p with
  | text payload =>
    obtain ⟨⟨b, hb, -⟩, hsep⟩ := hp
    refine ⟨?_, hsep⟩
    rintro rfl
    simp at hb
  | binary blob =>
    refine ⟨by simp [polled, pollingEncodeBinary], ?_⟩
    rw [polled, pollingEncodeBinary, List.mem_cons, not_or]
    exact ⟨by decide, separator_notMem_encode blob⟩

/-- The first byte of a text packet is neither the `0` of a handshake nor
the `b` of a binary packet. -/
theorem text_head {payload : Bytes} (hp : (text payload).WellFormed) :
    payload.head? ≠ some (byteOf '0') ∧ payload.head? ≠ some (byteOf 'b') := by
  obtain ⟨⟨b, hb, hlow, hhigh⟩, -⟩ := hp
  rw [Option.mem_def] at hb
  rw [hb]
  refine ⟨?_, ?_⟩
  · rintro h
    cases h
    revert hlow
    decide
  · rintro h
    cases h
    revert hhigh
    decide

theorem noteHandshake_written (T : JsonText) (t : PollingTransport) {p : EnginePacket}
    (hp : p.WellFormed) : PollingTransport.noteHandshake T t p.polled = .ok t := by
  cases p with
  | text payload => rw [polled, PollingTransport.noteHandshake, if_neg (text_head hp).1]
  | binary blob =>
    have hhead : (pollingEncodeBinary blob).head? ≠ some (byteOf '0') := by
      rw [pollingEncodeBinary, List.head?_cons]
      decide
    rw [polled, PollingTransport.noteHandshake, if_neg hhead]

theorem callHandler_written {σ : Type} (handler : MessageHandler σ) (n : Nat) (s : σ)
    {p : EnginePacket} (hp : p.WellFormed) :
    PollingTransport.callHandler handler n p.polled s = handler n p.call.1 p.call.2 s := by
  cases p with
  | text payload => rw [polled, PollingTransport.callHandler, if_neg (text_head hp).2]; rfl
  | binary blob =>
    have hdecode : pollingDecodeBinary (pollingEncodeBinary blob) = some blob := by
      rw [pollingEncodeBinary, pollingDecodeBinary, if_pos rfl, base64Decode_encode]
    have hhead : (pollingEncodeBinary blob).head? = some (byteOf 'b') := rfl
    rw [polled, PollingTransport.callHandler, if_pos hhead, hdecode]
    rfl

end EnginePacket

/-! ## The same calls -/

open EnginePacket PollingTransport WebSocketTransport

/-- Never closing. -/
abbrev notClosing : Nat → Bool := fun _ => false

theorem deliverToFrom_eq_doRead {σ : Type} (T : JsonText) (handler : MessageHandler σ)
    (onClose : Bytes → σ → σ) (t : PollingTransport) {packets : List EnginePacket}
    (hpackets : ∀ p ∈ packets, p.WellFormed) (n : Nat) (s : σ) :
    deliverToFrom T notClosing handler n (packets.map polled) t s
      = (t, doRead notClosing handler onClose n (packets.map read) s) := by
  induction packets generalizing n s with
  | nil => rfl
  | cons p rest ih =>
    have hp := hpackets p (by simp)
    have hrest := ih fun p' hp' => hpackets p' (by simp [hp'])
    simp only [List.map_cons, deliverToFrom, doRead, EnginePacket.read, Bool.false_eq_true,
      if_false, noteHandshake_written T t hp, callHandler_written handler n s hp]
    cases handler n p.call.1 p.call.2 s with
    | mk s' thrown =>
      cases thrown with
      | none => exact hrest (n + 1) s'
      | some e => rfl

/-- **Any handler.** A body makes the calls the read loop makes. -/
theorem deliverTo_eq_doRead {σ : Type} (T : JsonText) (handler : MessageHandler σ)
    (onClose : Bytes → σ → σ) (t : PollingTransport) {packets : List EnginePacket}
    (hpackets : ∀ p ∈ packets, p.WellFormed) (s : σ) :
    deliverTo T notClosing handler t s (pollingBody packets)
      = (t, doRead notClosing handler onClose 0 (packets.map read) s) := by
  have hsplit : ∀ p ∈ packets.map polled, p ≠ [] ∧ recordSeparator ∉ p := by
    intro p hp
    obtain ⟨p', hp', rfl⟩ := List.mem_map.mp hp
    exact polled_splits (hpackets p' hp')
  rw [deliverTo, pollingBody, splitPayload_join hsplit]
  exact deliverToFrom_eq_doRead T handler onClose t hpackets 0 s

/-- A handler that only keeps its calls. -/
def recordCall : MessageHandler (List (Bytes × Bool)) :=
  fun _ payload isBinary calls => (calls ++ [(payload, isBinary)], none)

theorem doRead_recordCall (onClose : Bytes → List (Bytes × Bool) → List (Bytes × Bool))
    (packets : List EnginePacket) (n : Nat) (calls : List (Bytes × Bool)) :
    doRead notClosing recordCall onClose n (packets.map read) calls
      = (calls ++ packets.map call, none) := by
  induction packets generalizing n calls with
  | nil => simp [doRead]
  | cons p rest ih =>
    have hfirst : doRead notClosing recordCall onClose n ((p :: rest).map read) calls
        = doRead notClosing recordCall onClose (n + 1) (rest.map read) (calls ++ [p.call]) := rfl
    rw [hfirst, ih]
    simp

/-! ## The handler of `engineio_client` -/

theorem forward_eq_callHandler (T : JsonText) (now : Nat → Nat) (c : EngineIOClient)
    (effects : List Effect) (n : Nat) (packet : Bytes) :
    callHandler (EngineIOClient.messageHandler T now) n packet (c, effects)
      = (((forward T c (now n) packet).client, effects ++ (forward T c (now n) packet).effects),
        (forward T c (now n) packet).thrown) := by
  unfold callHandler forward
  split
  · cases pollingDecodeBinary packet with
    | none => simp
    | some decoded => rfl
  · rfl

/-- `deliver` is the loop with the client's handler. -/
theorem deliverFrom_eq (T : JsonText) (closing : Nat → Bool) (now : Nat → Nat)
    (packets : List Bytes) (n : Nat) (t : PollingTransport) (c : EngineIOClient)
    (effects : List Effect) :
    deliverToFrom T closing (EngineIOClient.messageHandler T now) n packets t (c, effects)
      = ((deliverFrom T closing now n packets t c).transport,
        ((deliverFrom T closing now n packets t c).client,
          effects ++ (deliverFrom T closing now n packets t c).effects),
        (deliverFrom T closing now n packets t c).thrown) := by
  induction packets generalizing n t c effects with
  | nil => simp [deliverToFrom, deliverFrom]
  | cons packet rest ih =>
    rw [deliverToFrom, deliverFrom]
    split
    · simp
    · split
      · simp
      · simp only [forward_eq_callHandler]
        cases hthrown : (forward T c (now n) packet).thrown with
        | some e => simp
        | none =>
          simp only [ih]
          simp [List.append_assoc]

/-- The frame of an effect, if it is a call of `on_frame_`. -/
def Effect.toFrame : Effect → Option (Bytes × Bool)
  | .frame payload isBinary => some (payload, isBinary)
  | _ => none

/-- The Socket.IO frame in a packet. -/
def EnginePacket.frame : EnginePacket → Option (Bytes × Bool)
  | .text payload => if payload.head? = some (byteOf '4') then some (payload.tail, false) else none
  | .binary blob => some (blob, true)

/-- What the client does with a packet. -/
theorem handleTransportMessage_written (T : JsonText) (now : Nat) (c : EngineIOClient)
    {p : EnginePacket} (hp : p.WellFormed) (hframe : c.onFrame = true) :
    (c.handleTransportMessage T now p.call.1 p.call.2).thrown = none ∧
      (c.handleTransportMessage T now p.call.1 p.call.2).client.onFrame = true ∧
      (c.handleTransportMessage T now p.call.1 p.call.2).effects.filterMap Effect.toFrame
        = p.frame.toList := by
  cases p with
  | binary blob => simp [EnginePacket.call, EngineIOClient.handleTransportMessage, hframe,
      Effect.toFrame, EnginePacket.frame]
  | text payload =>
    have hopen := (text_head hp).1
    cases payload with
    | nil => simp [EnginePacket.call, EngineIOClient.handleTransportMessage, hframe,
        EnginePacket.frame]
    | cons b rest =>
      rw [List.head?_cons, ne_eq, Option.some.injEq] at hopen
      simp only [EnginePacket.call, EngineIOClient.handleTransportMessage, Bool.false_eq_true,
        if_false, if_neg hopen, EnginePacket.frame, List.head?_cons, Option.some.injEq,
        List.tail_cons]
      by_cases hmessage : b = byteOf '4'
      · subst hmessage
        rw [if_neg (by decide), if_neg (by decide), if_neg (by decide), if_pos rfl, if_pos rfl]
        simp [hframe, Effect.toFrame]
      · rw [if_neg hmessage]
        split_ifs
        · simp [EngineIOClient.stopHeartbeatTimer, EngineIOClient.notifyClose, hframe,
            Effect.toFrame]
        · simp [hframe, Effect.toFrame]
        · simp [hframe]
        · simp [hframe]
        · simp [hframe]

theorem doRead_frames (T : JsonText) (now : Nat → Nat) {packets : List EnginePacket}
    (hpackets : ∀ p ∈ packets, p.WellFormed) (n : Nat) (c : EngineIOClient)
    (hframe : c.onFrame = true) (effects : List Effect) :
    let after := doRead notClosing (EngineIOClient.messageHandler T now)
      EngineIOClient.closeHandler n (packets.map read) (c, effects)
    after.2 = none ∧ after.1.2.filterMap Effect.toFrame
      = effects.filterMap Effect.toFrame ++ packets.filterMap EnginePacket.frame := by
  induction packets generalizing n c effects with
  | nil => simp [doRead]
  | cons p rest ih =>
    obtain ⟨hthrown, hkeep, hframes⟩ :=
      handleTransportMessage_written T (now n) c (hpackets p (by simp)) hframe
    have hrest := ih (fun p' hp' => hpackets p' (by simp [hp'])) (n + 1)
      (c.handleTransportMessage T (now n) p.call.1 p.call.2).client hkeep
      (effects ++ (c.handleTransportMessage T (now n) p.call.1 p.call.2).effects)
    simp only [List.map_cons, doRead, EnginePacket.read, EngineIOClient.messageHandler,
      Bool.false_eq_true, if_false, hthrown]
    refine ⟨hrest.1, hrest.2.trans ?_⟩
    rw [List.filterMap_append, hframes, List.filterMap_cons]
    cases p.frame <;> simp

/-- **Polling and WebSocket.** For every list of packets, the body that has
them calls the message handler once for each, in order, with its bytes and
its flag, as the read loop of the WebSocket does; and the client ends in
the same state, with the same effects, and has handed over the frames that
are in the packets. -/
theorem polling_delivers_as_webSocket (T : JsonText) (t : PollingTransport)
    (packets : List EnginePacket) (hpackets : ∀ p ∈ packets, p.WellFormed) :
    deliverTo T notClosing recordCall t [] (pollingBody packets) = (t, packets.map call, none) ∧
    (∀ onClose, doRead notClosing recordCall onClose 0 (packets.map read) []
      = (packets.map call, none)) ∧
    ∀ (now : Nat → Nat) (c : EngineIOClient),
      let polling := deliver T notClosing now t c (pollingBody packets)
      let webSocket := doRead notClosing (EngineIOClient.messageHandler T now)
        EngineIOClient.closeHandler 0 (packets.map read) (c, [])
      (polling.client, polling.effects) = webSocket.1 ∧ polling.thrown = webSocket.2 ∧
      (c.onFrame = true → polling.thrown = none ∧
        polling.effects.filterMap Effect.toFrame = packets.filterMap EnginePacket.frame) := by
  have hread := fun onClose => doRead_recordCall onClose packets 0 []
  refine ⟨?_, hread, fun now c => ?_⟩
  · rw [deliverTo_eq_doRead T recordCall (fun _ calls => calls) t hpackets, hread]
    rfl
  · have heq := deliverTo_eq_doRead T (EngineIOClient.messageHandler T now)
      EngineIOClient.closeHandler t hpackets (c, [])
    rw [deliverTo, deliverFrom_eq, List.nil_append] at heq
    simp only [Prod.ext_iff] at heq
    obtain ⟨-, ⟨hclient, heffects⟩, hthrown⟩ := heq
    refine ⟨Prod.ext hclient heffects, hthrown, fun hframe => ?_⟩
    obtain ⟨hnone, hframes⟩ := doRead_frames T now hpackets 0 c hframe []
    exact ⟨hthrown.trans hnone, (congrArg (List.filterMap Effect.toFrame) heffects).trans hframes⟩

/-- A ping, an empty blob, a message and a blob of one byte. -/
theorem polling_delivers_as_webSocket_batch :
    deliverTo ReferenceText.referenceText notClosing recordCall {} []
        (ascii "2\x1eb\x1e42[]\x1ebAA==")
      = ({}, [(ascii "2", false), ([], true), (ascii "42[]", false), ([0], true)], none) :=
  (polling_delivers_as_webSocket ReferenceText.referenceText {}
    [.text (ascii "2"), .binary [], .text (ascii "42[]"), .binary [0]] (by
      intro p hp
      simp only [List.mem_cons, List.not_mem_nil, or_false] at hp
      rcases hp with rfl | rfl | rfl | rfl
      · exact ⟨⟨_, rfl, by decide⟩, by decide⟩
      · trivial
      · exact ⟨⟨_, rfl, by decide⟩, by decide⟩
      · trivial)).1

end Sioxx
