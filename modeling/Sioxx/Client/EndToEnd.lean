/-
Sioxx.Client.EndToEnd — from the threads of a client to the sockets that
get its packets.

Any number of threads hand packets of any namespaces to `send_packet`, and
the connection stays open while they write (`Steady`). A peer reads the
frames with this library's receive path, among the pings and whatever else
comes over its connection: `engineio_client` passes them on, and
`on_engineio_frame` decodes them and calls the sockets.

  * `run_complete` — the transport is handed the frames of the packets, one
    packet after the other, in the order of the calls.
  * `handleEvents_frames` — the peer's `engineio_client` passes on the
    frames and nothing else.
  * `onEngineioFrames_flatMap` — packets decoded one after the other.
  * `json_delivered`, `msgpack_delivered` — so each packet is one call on
    the peer's socket of its namespace, in the same order.

The packets are those the library makes (`SentPacket`): those of `emit`,
`send_ack`, `connect` and `disconnect`. What is between the two transports
is the relation `Carries`.
-/
import Sioxx.Client.DispatchTheorems
import Sioxx.Client.Opening
import Sioxx.Client.SendPacketTheorems
import Sioxx.Socket.Events

namespace Sioxx

open Lib Json JsonParser

/-- The packet of `socket::disconnect`. -/
def disconnectPacket (nsp : Bytes) : Packet where
  type := .disconnect
  nsp := nsp

/-- A packet the library sends. -/
inductive SentPacket where
  | connect (nsp : Bytes) (auth : Json)
  | disconnect (nsp : Bytes)
  | event (nsp name : Bytes) (data : Json) (id : Int)
  | ack (nsp : Bytes) (id : Int) (reply : Json)

namespace SentPacket

def nsp : SentPacket → Bytes
  | .connect nsp _ => nsp
  | .disconnect nsp => nsp
  | .event nsp _ _ _ => nsp
  | .ack nsp _ _ => nsp

def packet : SentPacket → Packet
  | .connect nsp auth => connectPacket nsp auth
  | .disconnect nsp => disconnectPacket nsp
  | .event nsp name data id => Socket.eventPacket nsp name data id
  | .ack nsp id reply => Socket.ackPacket nsp id reply

/-- The call it is for at the peer. -/
def dispatch : SentPacket → Dispatch
  | .connect nsp _ => .markConnected nsp true
  | .disconnect nsp => .markConnected nsp false
  | .event nsp name data id => .event nsp name (eventArgs data) id
  | .ack nsp id reply => .ack nsp id (eventArgs reply)

/-- The ids the library gives: none for a plain event, and an
acknowledgement answers an id. -/
def Numbered : SentPacket → Prop
  | .event _ _ _ id => -1 ≤ id ∧ id ≤ intMax
  | .ack _ id _ => 0 ≤ id ∧ id ≤ intMax
  | _ => True

/-- The values the text codec can carry. -/
def Textual (T : JsonText) : SentPacket → Prop
  | .connect _ auth => auth.binaryCount = 0 ∧ (auth = .null ∨ NoDigitText T auth) ∧
      auth.everyNode nodeTextual = true ∧ auth.everyNode nodeNoSubtype = true
  | .disconnect _ => True
  | .event _ name data _ => WellFormed name data
  | .ack _ _ reply => WellFormed [] reply

/-- A packet for the text codec, in a rooted namespace without a comma. -/
structure Sendable (T : JsonText) (r : SentPacket) : Prop where
  slash : r.nsp.head? = some (byteOf '/')
  comma : byteOf ',' ∉ r.nsp
  numbered : r.Numbered
  textual : r.Textual T

end SentPacket

/-! ## The sender -/

namespace SendPacket

variable {T : JsonText} {encode : Packet → Except EncodeError (List Frame)}

/-- Frames are written while the connection is open, and the transport
does not throw. -/
def Steady (s : SendPacket) : Action → Prop
  | .write throws => s.engineio.sends = true ∧ throws = false
  | _ => True

/-- Nothing was dropped. -/
def Complete (encode : Packet → Except EncodeError (List Frame)) (s : SendPacket) : Prop :=
  s.handed.map Prod.snd ++ s.writer.toList.flatMap (fun w => w.rest.map Frame.message)
    = s.begun.flatMap (messages encode)

theorem step_complete {s s' : SendPacket} {a : Action} (hc : Complete encode s)
    (hsteady : s.Steady a) (h : step T encode s a = some s') : Complete encode s' := by
  cases a with
  | call packet =>
    cases h
    exact hc
  | lock i =>
    simp only [step] at h
    split at h
    · rename_i packet hwriter _
      cases h
      have hbefore : s.handed.map Prod.snd = s.begun.flatMap (messages encode) := by
        simpa [Complete, hwriter] using hc
      unfold Complete beginPacket
      rw [List.flatMap_append, hbefore]
      cases hencode : encode packet <;> simp [messages, encoded, hencode]
    · cases h
  | write throws =>
    obtain ⟨hsends, rfl⟩ := hsteady
    simp only [step] at h
    split at h
    · rename_i call frame rest hwriter
      cases h
      have hbefore : s.handed.map Prod.snd ++ (frame.message :: rest.map Frame.message)
          = s.begun.flatMap (messages encode) := by
        simpa [Complete, hwriter] using hc
      simp [Complete, writeFrame, EngineIOClient.send_eq, hsends, ← hbefore]
    · cases h
  | unlock =>
    simp only [step] at h
    split at h
    · rename_i call hwriter
      cases h
      simpa [Complete, hwriter] using hc
    · cases h
  | event now event =>
    cases h
    exact hc
  | openUrl =>
    cases h
    exact hc
  | close =>
    cases h
    exact hc

theorem run_complete {engineio : EngineIOClient} {as : List Action} {s : SendPacket}
    (hsteady : Meets (step T encode) Steady { engineio } as)
    (hrun : run (step T encode) { engineio } as = some s) : Complete encode s :=
  run_invariant (fun _ _ _ hc hs h => step_complete hc hs h) as { engineio } s rfl hsteady hrun

end SendPacket

/-! ## The peer's `engineio_client` -/

/-- The Socket.IO frame in what a transport delivers. -/
def EngineIOClient.TransportEvent.frame : EngineIOClient.TransportEvent → Option Frame
  | .message payload true => some ⟨payload, true⟩
  | .message (b :: rest) false => if b = byteOf '4' then some ⟨rest, false⟩ else none
  | _ => none

/-- What the peer's transport delivers for what this one was handed. -/
def Effect.wire : Effect → Option EngineIOClient.TransportEvent
  | .transportSend payload isBinary => some (.message payload isBinary)
  | _ => none

def Effect.asFrame : Effect → Option Frame
  | .frame payload isBinary => some ⟨payload, isBinary⟩
  | _ => none

theorem wire_message (frame : Frame) :
    frame.message.wire.bind EngineIOClient.TransportEvent.frame = some frame := by
  obtain ⟨payload, isBinary⟩ := frame
  cases isBinary <;> rfl

theorem finishOpen_frame (c : EngineIOClient) (sid : Bytes) :
    (c.finishOpen sid).client.onFrame = c.onFrame ∧
      (c.finishOpen sid).effects.filterMap Effect.asFrame = [] := by
  have hopened : ∀ b : Bool,
      (if b then [Effect.opened] else []).filterMap Effect.asFrame = [] := by
    intro b
    cases b <;> rfl
  refine ⟨?_, hopened _⟩
  unfold EngineIOClient.finishOpen EngineIOClient.startHeartbeatTimer
  simp only
  split <;> rfl

/-- A handshake passes no frame on. -/
theorem handleOpen_frame (c : EngineIOClient) (now : Nat) (handshake : Option Json) :
    (c.handleOpen now handshake).client.onFrame = c.onFrame ∧
      (c.handleOpen now handshake).effects.filterMap Effect.asFrame = [] := by
  cases handshake with
  | none => exact finishOpen_frame _ []
  | some v =>
    simp only [EngineIOClient.handleOpen]
    split
    · exact ⟨rfl, rfl⟩
    · split
      · exact ⟨rfl, rfl⟩
      · split
        · exact ⟨rfl, rfl⟩
        · exact finishOpen_frame _ _

/-- One event: the handler stays, and the frame of the event is passed on. -/
theorem handleEvent_frame (T : JsonText) (c : EngineIOClient) (now : Nat)
    (event : EngineIOClient.TransportEvent) (hframe : c.onFrame = true) :
    (c.handleEvent T now event).client.onFrame = true ∧
      (c.handleEvent T now event).effects.filterMap Effect.asFrame = event.frame.toList := by
  have hclosed : ∀ reason, (c.notifyClose reason).filterMap Effect.asFrame = [] := by
    intro reason
    unfold EngineIOClient.notifyClose
    split <;> rfl
  cases event with
  | close reason => exact ⟨hframe, hclosed reason⟩
  | message payload isBinary =>
    unfold EngineIOClient.handleEvent EngineIOClient.handleTransportMessage
    cases isBinary with
    | true => simp [hframe, Effect.asFrame, EngineIOClient.TransportEvent.frame]
    | false =>
      cases payload with
      | nil => simp [hframe, EngineIOClient.TransportEvent.frame]
      | cons b rest =>
        simp only [Bool.false_eq_true, if_false, EngineIOClient.TransportEvent.frame]
        by_cases hmessage : b = byteOf '4'
        · subst hmessage
          rw [if_neg (by decide), if_neg (by decide), if_neg (by decide), if_neg (by decide)]
          simp [hframe, Effect.asFrame]
        · rw [if_neg hmessage, if_neg hmessage]
          split
          · have hopen := handleOpen_frame c now (T.parse rest)
            exact ⟨hopen.1.trans hframe, hopen.2⟩
          · split
            · exact ⟨hframe, hclosed _⟩
            · split
              · refine ⟨hframe, ?_⟩
                simp only
                split <;> rfl
              · split <;> exact ⟨hframe, rfl⟩

theorem handleEvents_frames (T : JsonText) (c : EngineIOClient)
    (events : List (Nat × EngineIOClient.TransportEvent)) (hframe : c.onFrame = true)
    (hthrown : (EngineIOClient.handleEvents T c events).thrown = none) :
    (EngineIOClient.handleEvents T c events).effects.filterMap Effect.asFrame
      = events.filterMap fun e => e.2.frame := by
  induction events generalizing c with
  | nil => rfl
  | cons e events ih =>
    obtain ⟨now, event⟩ := e
    obtain ⟨hkeep, hfirst⟩ := handleEvent_frame T c now event hframe
    unfold EngineIOClient.handleEvents at hthrown ⊢
    cases hnone : (c.handleEvent T now event).thrown with
    | some error => simp [hnone] at hthrown
    | none =>
      simp only [hnone] at hthrown ⊢
      rw [List.filterMap_append, hfirst, ih _ hkeep hthrown, List.filterMap_cons]
      cases event.frame <;> rfl

/-! ## The peer's parser -/

theorem onEngineioFrames_append {T : JsonText} {M : Msgpack} {sockets : List Bytes}
    {parser parser' last : ClientParser} {frames more : List Frame}
    {dispatches others : List Dispatch}
    (h : onEngineioFrames T M sockets parser frames = .ok (dispatches, parser'))
    (hmore : onEngineioFrames T M sockets parser' more = .ok (others, last)) :
    onEngineioFrames T M sockets parser (frames ++ more) = .ok (dispatches ++ others, last) := by
  induction frames generalizing parser dispatches with
  | nil =>
    cases h
    exact hmore
  | cons frame frames ih =>
    simp only [List.cons_append, onEngineioFrames] at h ⊢
    cases hframe : onEngineioFrame T M sockets parser frame with
    | error e => simp [hframe] at h
    | ok result =>
      obtain ⟨dispatch, next⟩ := result
      simp only [hframe] at h ⊢
      cases hrest : onEngineioFrames T M sockets next frames with
      | error e => simp [hrest] at h
      | ok result =>
        obtain ⟨rest, middle⟩ := result
        simp only [hrest, Except.ok.injEq, Prod.mk.injEq] at h
        obtain ⟨rfl, rfl⟩ := h
        rw [ih hrest]
        simp only [List.append_assoc]

/-- Packets one after the other, if each is decoded on its own between
parsers that `P` allows. -/
theorem onEngineioFrames_flatMap {α : Type} {T : JsonText} {M : Msgpack} {sockets : List Bytes}
    (P : ClientParser → Prop) (frames : α → List Frame) (call : α → Option Dispatch)
    (as : List α)
    (hone : ∀ a ∈ as, ∀ parser, P parser → ∃ parser', P parser' ∧
      onEngineioFrames T M sockets parser (frames a) = .ok ((call a).toList, parser'))
    {parser : ClientParser} (hparser : P parser) :
    ∃ parser', P parser' ∧ onEngineioFrames T M sockets parser (as.flatMap frames)
      = .ok (as.filterMap call, parser') := by
  induction as generalizing parser with
  | nil => exact ⟨parser, hparser, rfl⟩
  | cons a as ih =>
    obtain ⟨next, hnext, hfirst⟩ := hone a List.mem_cons_self parser hparser
    obtain ⟨last, hlast, hrest⟩ := ih (fun b hb => hone b (List.mem_cons_of_mem _ hb)) hnext
    refine ⟨last, hlast, ?_⟩
    rw [List.flatMap_cons, onEngineioFrames_append hfirst hrest, List.filterMap_cons]
    cases call a <;> rfl

/-! ## The packets of the library -/

namespace SentPacket

variable {T : JsonText} {M : Msgpack} {sockets : List Bytes} {r : SentPacket}

/-- Can the text codec number the binary values? -/
def fits (r : SentPacket) : Bool := decide (r.packet.data.binaryCount ≤ intMax)

/-- The call on the peer, if it has a socket for the namespace. -/
def callOn (sockets : List Bytes) (r : SentPacket) : Option Dispatch :=
  if r.nsp ∈ sockets then some r.dispatch else none

theorem packet_nsp (r : SentPacket) : r.packet.nsp = r.nsp := by cases r <;> rfl

/-- A reply stands in an array of its own, or is one. -/
theorem ackPacket_eq (nsp : Bytes) (id : Int) (reply : Json) :
    (Socket.ackPacket nsp id reply).data = eventArgs reply := by
  cases reply <;> rfl

theorem eventArgs_everyNode {q : Json → Bool} (harr : ∀ items, q (.arr items) = true)
    {data : Json} (hdata : data.everyNode q = true) : (eventArgs data).everyNode q = true := by
  cases data <;> simp_all [eventArgs, everyNode, everyItem]

theorem eventArgs_binaryCount (data : Json) : (eventArgs data).binaryCount = data.binaryCount := by
  cases data <;> simp [eventArgs, binaryCount, itemsBinaryCount]

theorem ackPacket_encodable (hT : T.Lawful) {nsp : Bytes} {id : Int} {reply : Json}
    (hslash : nsp.head? = some (byteOf '/')) (hcomma : byteOf ',' ∉ nsp)
    (hid : 0 ≤ id ∧ id ≤ intMax) (h : WellFormed [] reply) :
    Encodable T (Socket.ackPacket nsp id reply) := by
  have hdata := ackPacket_eq nsp id reply
  have harray : ∃ items, eventArgs reply = .arr items := by cases reply <;> exact ⟨_, rfl⟩
  obtain ⟨items, hitems⟩ := harray
  constructor
  · exact .inl rfl
  · exact .inr ⟨hslash, hcomma⟩
  · exact ⟨by show -1 ≤ id; omega, hid.2⟩
  · exact .inr (noDigitText_container hT (.inl (by rw [hdata, hitems]; rfl)))
  · rw [hdata]
    exact eventArgs_everyNode (fun _ => rfl) h.textual
  · rw [hdata]
    exact eventArgs_everyNode (fun _ => rfl) h.noSubtype
  · rw [hdata, eventArgs_binaryCount]
    exact h.placeholders.imp (fun hnone => hnone) fun hplain =>
      eventArgs_everyNode (fun _ => rfl) hplain

theorem Sendable.encodable (hT : T.Lawful) (h : r.Sendable T) : Encodable T r.packet := by
  obtain ⟨hslash, hcomma, hnumbered, htextual⟩ := h
  have hid : (-1 : Int) ≤ -1 ∧ (-1 : Int) ≤ intMax := by decide
  cases r with
  | connect nsp auth =>
    obtain ⟨hnone, htext, htextual, hsubtype⟩ := htextual
    exact ⟨.inr hnone, .inr ⟨hslash, hcomma⟩, hid, htext, htextual, hsubtype, .inl hnone⟩
  | disconnect nsp =>
    exact ⟨.inr rfl, .inr ⟨hslash, hcomma⟩, hid, .inl rfl, rfl, rfl, .inl rfl⟩
  | event nsp name data id => exact eventPacket_encodable hT hslash hcomma hnumbered htextual
  | ack nsp id reply => exact ackPacket_encodable hT hslash hcomma hnumbered htextual

theorem rootedNsp_of_slash {nsp : Bytes} (h : nsp.head? = some (byteOf '/')) :
    rootedNsp nsp = nsp := by
  rw [rootedNsp, if_neg]
  rintro rfl
  cases h

/-- The switch does not tell an acknowledgement from its binary variant. -/
theorem dispatchPacket_ack {packet : RawPacket} (htype : packet.type = 3 ∨ packet.type = 6)
    (hid : 0 ≤ packet.id) :
    dispatchPacket packet = some (.ack packet.nsp packet.id packet.data) := by
  rcases htype with htype | htype <;> simp only [dispatchPacket, htype] <;>
    exact if_pos hid

/-- A packet that is no event and no acknowledgement has one type. -/
theorem binaryVariant_connection {type : PacketType}
    (htype : type = .connect ∨ type = .disconnect) (binary : Bool) :
    binaryVariant type binary = type := by
  rcases htype with rfl | rfl <;> cases binary <;> rfl

/-- The type the text codec delivers. -/
theorem received_type (p : Packet) :
    (received p).type = binaryVariant p.type true ∨
      (received p).type = binaryVariant p.type false := by
  unfold received
  cases decide (p.data.binaryCount > 0)
  · exact .inr rfl
  · exact .inl rfl

/-- The switch at the peer, for the packet as it was sent. -/
theorem dispatchPacket_packet (h : r.Numbered) :
    dispatchPacket (.ofPacket { r.packet with attachments := 0 }) = some r.dispatch := by
  cases r with
  | connect nsp auth => rfl
  | disconnect nsp => rfl
  | event nsp name data id =>
    obtain ⟨args, hargs, harr⟩ := eventData_eq name data
    exact (dispatchPacket_event (.inl rfl) harr).trans (by rw [dispatch, hargs]; rfl)
  | ack nsp id reply =>
    exact (dispatchPacket_ack (.inl rfl) h.1).trans
      (congrArg (fun data => some (Dispatch.ack nsp id data)) (ackPacket_eq nsp id reply))

/-- The same for the form the text codec delivers. -/
theorem dispatchPacket_receivedPacket (hslash : r.nsp.head? = some (byteOf '/'))
    (h : r.Numbered) :
    (received r.packet).nsp = r.nsp ∧
      dispatchPacket (.ofPacket (received r.packet)) = some r.dispatch := by
  have hnsp : (received r.packet).nsp = r.nsp := by
    rw [received, packet_nsp, rootedNsp_of_slash hslash]
  refine ⟨hnsp, ?_⟩
  cases r with
  | connect nsp auth =>
    have htype : (received (connectPacket nsp auth)).type = .connect :=
      binaryVariant_connection (.inl rfl) (decide (auth.binaryCount > 0))
    simp only [packet, RawPacket.ofPacket, htype]
    exact congrArg (fun n => some (Dispatch.markConnected n true)) hnsp
  | disconnect nsp =>
    have htype : (received (disconnectPacket nsp)).type = .disconnect :=
      binaryVariant_connection (.inr rfl) false
    simp only [packet, RawPacket.ofPacket, htype]
    exact congrArg (fun n => some (Dispatch.markConnected n false)) hnsp
  | event nsp name data id => exact (dispatchPacket_received name data id hslash).2
  | ack nsp id reply =>
    have htype : (RawPacket.ofPacket (received (Socket.ackPacket nsp id reply))).type = 3 ∨
        (RawPacket.ofPacket (received (Socket.ackPacket nsp id reply))).type = 6 := by
      rcases received_type (Socket.ackPacket nsp id reply) with h | h
      · exact .inr (by rw [RawPacket.ofPacket, h]; rfl)
      · exact .inl (by rw [RawPacket.ofPacket, h]; rfl)
    refine (dispatchPacket_ack htype h.1).trans ?_
    exact congrArg₂ (fun n data => some (Dispatch.ack n id data)) hnsp (ackPacket_eq nsp id reply)

/-- The frames of one packet, at a peer with the text codec: one call, or
none for a packet that `encode` refuses. -/
theorem json_one (hT : T.Lawful) (M : Msgpack) (sockets : List Bytes) (h : r.Sendable T)
    {parser : JsonParser} (hparser : Reachable T parser) :
    ∃ parser', Reachable T parser' ∧
      onEngineioFrames T M sockets (.json parser) (SendPacket.encoded (encode T) r.packet)
        = .ok ((if r.fits then r.callOn sockets else none).toList, .json parser') := by
  have henc := h.encodable hT
  cases hfits : r.fits with
  | false =>
    -- `encode` throws before the first frame
    have hmany := encode_tooMany henc.writable (by simpa [fits] using hfits)
    exact ⟨parser, hparser, by simp [SendPacket.encoded, hmany, onEngineioFrames]⟩
  | true =>
    obtain ⟨frames, hframes, -, hfeed⟩ :=
      feed_encode hT henc (by simpa [fits] using hfits) hparser {}
    obtain ⟨hnsp, hdispatch⟩ := dispatchPacket_receivedPacket h.slash h.numbered
    refine ⟨{}, .fresh, ?_⟩
    rw [SendPacket.encoded, hframes]
    simp only [onEngineioFrames_of_feed M sockets frames _ parser hfeed, hnsp, hdispatch, if_true,
      callOn]

/-- The same with the binary codec. -/
theorem msgpack_one (T : JsonText) (M : Msgpack) (sockets : List Bytes) (h : r.Numbered)
    (hM : M.fromMsgpack (M.toMsgpack (MsgpackParser.object r.packet))
      = some (MsgpackParser.object r.packet)) :
    onEngineioFrames T M sockets .msgpack (MsgpackParser.encode M r.packet)
      = .ok ((r.callOn sockets).toList, .msgpack) := by
  have hid : -1 ≤ r.packet.id ∧ r.packet.id ≤ intMax := by
    cases r with
    | connect | disconnect =>
      show (-1 : Int) ≤ -1 ∧ (-1 : Int) ≤ intMax
      decide
    | event => exact h
    | ack =>
      have hle : (-1 : Int) ≤ 0 := by decide
      exact ⟨hle.trans h.1, h.2⟩
  have hnsp : (RawPacket.ofPacket { r.packet with attachments := 0 }).nsp = r.nsp := packet_nsp r
  simp only [MsgpackParser.encode, onEngineioFrames, onEngineioFrame, ClientParser.decode,
    MsgpackParser.decode_encode hid hM, if_true, hnsp, dispatchPacket_packet h, List.append_nil,
    callOn]

end SentPacket

/-! ## From the threads to the sockets -/

/-- The wire keeps the order, loses nothing and makes up no frame; what
else a server sends comes in between. -/
def Carries (handed : List (Nat × Effect))
    (events : List (Nat × EngineIOClient.TransportEvent)) : Prop :=
  events.filterMap (fun e => e.2.frame)
    = handed.filterMap fun sent => sent.2.wire.bind EngineIOClient.TransportEvent.frame

section Delivery

variable {T : JsonText} {encode : Packet → Except EncodeError (List Frame)}

/-- What a peer's `engineio_client` passes on is the frames of the packets,
in the order of the calls. -/
theorem frames_delivered {engineio peer : EngineIOClient} {as : List SendPacket.Action}
    {s : SendPacket} {events : List (Nat × EngineIOClient.TransportEvent)}
    (hsteady : Meets (SendPacket.step T encode) SendPacket.Steady { engineio } as)
    (hrun : run (SendPacket.step T encode) { engineio } as = some s) (hidle : s.writer = none)
    (hcarries : Carries s.handed events) (hframe : peer.onFrame = true)
    (hthrown : (EngineIOClient.handleEvents T peer events).thrown = none) :
    (EngineIOClient.handleEvents T peer events).effects.filterMap Effect.asFrame
      = s.begun.flatMap (SendPacket.encoded encode) := by
  have hcomplete : s.handed.map Prod.snd = s.begun.flatMap (SendPacket.messages encode) := by
    simpa [SendPacket.Complete, hidle] using SendPacket.run_complete hsteady hrun
  have hone : ∀ frames : List Frame, (frames.map Frame.message).filterMap
      (fun e => e.wire.bind EngineIOClient.TransportEvent.frame) = frames := by
    intro frames
    rw [List.filterMap_map]
    exact (List.filterMap_congr fun frame _ => wire_message frame).trans List.filterMap_some
  calc (EngineIOClient.handleEvents T peer events).effects.filterMap Effect.asFrame
      = s.handed.filterMap fun sent => sent.2.wire.bind EngineIOClient.TransportEvent.frame :=
        (handleEvents_frames T peer events hframe hthrown).trans hcarries
    _ = (s.handed.map Prod.snd).filterMap
          fun e => e.wire.bind EngineIOClient.TransportEvent.frame := by
        rw [List.filterMap_map]
        rfl
    _ = s.begun.flatMap (SendPacket.encoded encode) := by
        rw [hcomplete, List.filterMap_flatMap]
        exact List.flatMap_congr fun packet _ => hone _

end Delivery

/-- The calls on one namespace. -/
def Dispatch.nsp : Dispatch → Bytes
  | .markConnected nsp _ => nsp
  | .event nsp _ _ _ => nsp
  | .ack nsp _ _ => nsp

theorem SentPacket.dispatch_nsp (r : SentPacket) : r.dispatch.nsp = r.nsp := by cases r <;> rfl

/-- A socket of the peer gets the packets of its namespace and no others,
in their order. -/
theorem filter_callOn (sockets : List Bytes) (sent : List SentPacket) {nsp : Bytes}
    (hsocket : nsp ∈ sockets) :
    (sent.filterMap (SentPacket.callOn sockets)).filter (fun d => d.nsp = nsp)
      = (sent.filter fun r => r.nsp = nsp).map SentPacket.dispatch := by
  induction sent with
  | nil => rfl
  | cons r sent ih =>
    by_cases hmem : r.nsp ∈ sockets
    · have hcall : r.callOn sockets = some r.dispatch := if_pos hmem
      by_cases hnsp : r.nsp = nsp <;>
        simp [hcall, SentPacket.dispatch_nsp, hnsp, ih]
    · have hcall : r.callOn sockets = none := if_neg hmem
      have hnsp : r.nsp ≠ nsp := fun h => hmem (h ▸ hsocket)
      simp [hcall, hnsp, ih]

/-- **Delivery over the text codec.** Threads hand packets to
`send_packet` on a connection that stays open. At a peer the packets that
`encode` accepts, of the namespaces it has a socket for, are one call each,
in the order of the calls of `send_packet`, whatever frames of different
packets the threads compete for and whatever else the server sends. -/
theorem json_delivered (T : JsonText) (hT : T.Lawful) (M : Msgpack) (engineio peer : EngineIOClient)
    (as : List SendPacket.Action) (s : SendPacket) (sent : List SentPacket) (sockets : List Bytes)
    (parser : JsonParser) (events : List (Nat × EngineIOClient.TransportEvent))
    (hrun : run (SendPacket.step T (encode T)) { engineio } as = some s)
    (hsteady : Meets (SendPacket.step T (encode T)) SendPacket.Steady { engineio } as)
    (hidle : s.writer = none) (hsent : s.begun = sent.map SentPacket.packet)
    (hsendable : ∀ r ∈ sent, r.Sendable T) (hcarries : Carries s.handed events)
    (hframe : peer.onFrame = true)
    (hthrown : (EngineIOClient.handleEvents T peer events).thrown = none)
    (hparser : Reachable T parser) :
    ∃ calls parser', onEngineioFrames T M sockets (.json parser)
        ((EngineIOClient.handleEvents T peer events).effects.filterMap Effect.asFrame)
      = .ok (calls, .json parser') ∧
    calls = (sent.filter SentPacket.fits).filterMap (SentPacket.callOn sockets) ∧
    ∀ nsp ∈ sockets, calls.filter (fun d => d.nsp = nsp)
      = (sent.filter fun r => r.fits && decide (r.nsp = nsp)).map SentPacket.dispatch := by
  obtain ⟨last, ⟨parser', rfl, -⟩, hcalls⟩ := onEngineioFrames_flatMap
    (fun p => ∃ q, p = .json q ∧ Reachable T q)
    (fun r : SentPacket => SendPacket.encoded (encode T) r.packet)
    (fun r => if r.fits then r.callOn sockets else none) sent
    (by
      rintro r hr p ⟨q, rfl, hq⟩
      obtain ⟨q', hq', hone⟩ := SentPacket.json_one hT M sockets (hsendable r hr) hq
      exact ⟨_, ⟨q', rfl, hq'⟩, hone⟩)
    ⟨parser, rfl, hparser⟩
  refine ⟨_, parser', ?_, rfl, ?_⟩
  · rw [frames_delivered hsteady hrun hidle hcarries hframe hthrown, hsent, List.flatMap_map,
      hcalls, ← List.filterMap_filter]
  · intro nsp hnsp
    rw [filter_callOn sockets _ hnsp, List.filter_filter]
    congr 2
    funext r
    exact Bool.and_comm _ _

/-- Two threads: an acknowledgement with an attachment overtakes an event,
and a PING comes between its frames. -/
def overtaken : List SentPacket :=
  [.ack (ascii "/chat") 3 (.binary [7] none),
    .event (ascii "/") (ascii "say") (.str (ascii "hi")) 5]

def overtakenActions : List SendPacket.Action :=
  [.call (Socket.eventPacket (ascii "/") (ascii "say") (.str (ascii "hi")) 5),
    .call (Socket.ackPacket (ascii "/chat") 3 (.binary [7] none)), .lock 1, .write false,
    .event 9 (.message (ascii "2") false), .write false, .unlock, .lock 0, .write false, .unlock]

/-- The wire of the example: a PING first. -/
def overtakenEvents (handed : List (Nat × Effect)) :
    List (Nat × EngineIOClient.TransportEvent) :=
  (0, .message (ascii "2") false) :: (handed.filterMap fun sent => sent.2.wire).map fun e => (1, e)

theorem overtaken_sendable : ∀ r ∈ overtaken, r.Sendable ReferenceText.referenceText := by
  intro r hr
  simp only [overtaken, List.mem_cons, List.not_mem_nil, or_false] at hr
  rcases hr with rfl | rfl
  · exact ⟨rfl, by decide, ⟨by decide, by decide⟩,
      ⟨by decide, by decide, by decide, .inr (by decide)⟩⟩
  · exact ⟨rfl, by decide, ⟨by decide, by decide⟩,
      ⟨by decide, by decide, by decide, .inl (by decide)⟩⟩

theorem json_delivered_overtaken :
    ∃ s, run (SendPacket.step ReferenceText.referenceText (encode ReferenceText.referenceText))
        { engineio := SendPacket.opened } overtakenActions = some s ∧ s.handed.length = 3 ∧
      ∃ calls parser', onEngineioFrames ReferenceText.referenceText
        ReferenceMsgpack.referenceMsgpack [ascii "/", ascii "/chat"] (.json {})
        ((EngineIOClient.handleEvents ReferenceText.referenceText SendPacket.opened
          (overtakenEvents s.handed)).effects.filterMap Effect.asFrame)
          = .ok (calls, .json parser') ∧
        calls = overtaken.map SentPacket.dispatch := by
  obtain ⟨s, hrun, hlength, hwriter, hbegun, hcarries, hthrown⟩ : ∃ s,
      run (SendPacket.step ReferenceText.referenceText (encode ReferenceText.referenceText))
        { engineio := SendPacket.opened } overtakenActions = some s ∧ s.handed.length = 3 ∧
      s.writer = none ∧ s.begun = overtaken.map SentPacket.packet ∧
      Carries s.handed (overtakenEvents s.handed) ∧
      (EngineIOClient.handleEvents ReferenceText.referenceText SendPacket.opened
        (overtakenEvents s.handed)).thrown = none := ⟨_, rfl, rfl, rfl, rfl, rfl, rfl⟩
  have hsteady : Meets (SendPacket.step ReferenceText.referenceText
      (encode ReferenceText.referenceText)) SendPacket.Steady
      { engineio := SendPacket.opened } overtakenActions := by
    iterate 3 refine (meets_cons_iff rfl).mpr ⟨trivial, ?_⟩
    refine (meets_cons_iff rfl).mpr ⟨⟨rfl, rfl⟩, (meets_cons_iff rfl).mpr ⟨trivial, ?_⟩⟩
    refine (meets_cons_iff rfl).mpr ⟨⟨rfl, rfl⟩, ?_⟩
    iterate 2 refine (meets_cons_iff rfl).mpr ⟨trivial, ?_⟩
    exact (meets_cons_iff rfl).mpr ⟨⟨rfl, rfl⟩, (meets_cons_iff rfl).mpr ⟨trivial, trivial⟩⟩
  obtain ⟨calls, parser', hcalls, heq, -⟩ := json_delivered ReferenceText.referenceText
    ReferenceText.referenceText_lawful ReferenceMsgpack.referenceMsgpack SendPacket.opened
    SendPacket.opened overtakenActions s overtaken [ascii "/", ascii "/chat"] {}
    (overtakenEvents s.handed) hrun hsteady hwriter hbegun overtaken_sendable hcarries rfl hthrown
    .fresh
  exact ⟨s, hrun, hlength, calls, parser', hcalls, heq⟩

/-- **Delivery over the binary codec**, for packets that the format carries:
every packet is a call. -/
theorem msgpack_delivered (T : JsonText) (M : Msgpack) (engineio peer : EngineIOClient)
    (as : List SendPacket.Action) (s : SendPacket) (sent : List SentPacket) (sockets : List Bytes)
    (events : List (Nat × EngineIOClient.TransportEvent))
    (hrun : run (SendPacket.step T fun p => .ok (MsgpackParser.encode M p)) { engineio } as
      = some s)
    (hsteady : Meets (SendPacket.step T fun p => .ok (MsgpackParser.encode M p)) SendPacket.Steady
      { engineio } as)
    (hidle : s.writer = none) (hsent : s.begun = sent.map SentPacket.packet)
    (hnumbered : ∀ r ∈ sent, r.Numbered)
    (hM : ∀ r ∈ sent, M.fromMsgpack (M.toMsgpack (MsgpackParser.object r.packet))
      = some (MsgpackParser.object r.packet))
    (hcarries : Carries s.handed events) (hframe : peer.onFrame = true)
    (hthrown : (EngineIOClient.handleEvents T peer events).thrown = none) :
    onEngineioFrames T M sockets .msgpack
        ((EngineIOClient.handleEvents T peer events).effects.filterMap Effect.asFrame)
      = .ok (sent.filterMap (SentPacket.callOn sockets), .msgpack) ∧
    ∀ nsp ∈ sockets, (sent.filterMap (SentPacket.callOn sockets)).filter (fun d => d.nsp = nsp)
      = (sent.filter fun r => r.nsp = nsp).map SentPacket.dispatch := by
  obtain ⟨last, rfl, hcalls⟩ := onEngineioFrames_flatMap (T := T) (M := M) (fun p => p = .msgpack)
    (fun r : SentPacket => MsgpackParser.encode M r.packet) (SentPacket.callOn sockets) sent
    (by
      rintro r hr p rfl
      exact ⟨_, rfl, SentPacket.msgpack_one T M sockets (hnumbered r hr) (hM r hr)⟩)
    (rfl : ClientParser.msgpack = .msgpack)
  refine ⟨?_, fun nsp hnsp => filter_callOn sockets sent hnsp⟩
  rw [frames_delivered hsteady hrun hidle hcarries hframe hthrown, hsent, List.flatMap_map]
  exact hcalls

/-- The steps of the example, with one frame for each packet. -/
def shortActions : List SendPacket.Action :=
  overtakenActions.take 5 ++ overtakenActions.drop 6

theorem msgpack_delivered_overtaken :
    ∃ s, run (SendPacket.step ReferenceText.referenceText fun p =>
        .ok (MsgpackParser.encode ReferenceMsgpack.referenceMsgpack p))
        { engineio := SendPacket.opened } shortActions = some s ∧ s.handed.length = 2 ∧
      onEngineioFrames ReferenceText.referenceText ReferenceMsgpack.referenceMsgpack
        [ascii "/chat"] .msgpack
        ((EngineIOClient.handleEvents ReferenceText.referenceText SendPacket.opened
          (overtakenEvents s.handed)).effects.filterMap Effect.asFrame)
          = .ok ([.ack (ascii "/chat") 3 (.arr [.binary [7] none])], .msgpack) := by
  obtain ⟨s, hrun, hlength, hwriter, hbegun, hcarries, hthrown⟩ : ∃ s,
      run (SendPacket.step ReferenceText.referenceText fun p =>
        .ok (MsgpackParser.encode ReferenceMsgpack.referenceMsgpack p))
        { engineio := SendPacket.opened } shortActions = some s ∧ s.handed.length = 2 ∧
      s.writer = none ∧ s.begun = overtaken.map SentPacket.packet ∧
      Carries s.handed (overtakenEvents s.handed) ∧
      (EngineIOClient.handleEvents ReferenceText.referenceText SendPacket.opened
        (overtakenEvents s.handed)).thrown = none := ⟨_, rfl, rfl, rfl, rfl, rfl, rfl⟩
  have hsteady : Meets (SendPacket.step ReferenceText.referenceText fun p =>
      .ok (MsgpackParser.encode ReferenceMsgpack.referenceMsgpack p)) SendPacket.Steady
      { engineio := SendPacket.opened } shortActions := by
    iterate 3 refine (meets_cons_iff rfl).mpr ⟨trivial, ?_⟩
    refine (meets_cons_iff rfl).mpr ⟨⟨rfl, rfl⟩, ?_⟩
    iterate 3 refine (meets_cons_iff rfl).mpr ⟨trivial, ?_⟩
    exact (meets_cons_iff rfl).mpr ⟨⟨rfl, rfl⟩, (meets_cons_iff rfl).mpr ⟨trivial, trivial⟩⟩
  have hM : ∀ r ∈ overtaken, ReferenceMsgpack.referenceMsgpack.fromMsgpack
      (ReferenceMsgpack.referenceMsgpack.toMsgpack (MsgpackParser.object r.packet))
        = some (MsgpackParser.object r.packet) := by
    intro r hr
    simp only [overtaken, List.mem_cons, List.not_mem_nil, or_false] at hr
    rcases hr with rfl | rfl <;> rfl
  exact ⟨s, hrun, hlength, (msgpack_delivered ReferenceText.referenceText
    ReferenceMsgpack.referenceMsgpack SendPacket.opened SendPacket.opened shortActions s overtaken
    [ascii "/chat"] (overtakenEvents s.handed) hrun hsteady hwriter hbegun
    (fun r hr => (overtaken_sendable r hr).numbered) hM hcarries rfl hthrown).1⟩

end Sioxx
