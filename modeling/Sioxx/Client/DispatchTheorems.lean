/-
Sioxx.Client.DispatchTheorems — what one client emits, the other
dispatches.

`emit_dispatched_once` follows an event from `socket::emit` through the
encoder, the frames, the decoder and `on_engineio_frame` of a client that
owns a socket for the namespace. Whichever overload built it and
whichever parser carried it, there is one call, `dispatch_event` on that
socket with the event, its arguments and its acknowledgement id.

The two codecs meet in the middle: the text codec delivers `received p`
(`feed_encode`), the binary one the packet itself
(`decode_encode`), and `dispatchPacket_event` says that the switch cannot
tell them apart.
-/
import Sioxx.Client.Dispatch
import Sioxx.Json.ReferenceMsgpack
import Sioxx.Parser.JsonParserTheorems
import Sioxx.Socket.SocketTheorems

namespace Sioxx

open Lib Json JsonParser

/-- The arguments a listener gets for the data of an emission. -/
def eventArgs : Json → Json
  | .arr items => .arr items
  | .null => .arr []
  | data => .arr [data]

/-- The payloads of the round-trip law, and an event name in UTF-8. -/
structure WellFormed (event : Bytes) (data : Json) : Prop where
  event : utf8 event = true
  textual : data.everyNode nodeTextual = true
  noSubtype : data.everyNode nodeNoSubtype = true
  placeholders : data.binaryCount = 0 ∨ data.everyNode nodeNoPlaceholder = true

/-! ## The array of an event -/

theorem eventData_eq (event : Bytes) (data : Json) : ∃ args, eventArgs data = .arr args ∧
    Socket.eventData event data = .arr (.str event :: args) := by
  cases data <;> exact ⟨_, rfl, rfl⟩

/-- Wrapping the data keeps a property of its nodes that arrays and the
event name have. -/
theorem everyNode_eventData {q : Json → Bool} {event : Bytes} {data : Json}
    (harr : ∀ items, q (.arr items) = true) (hevent : q (.str event) = true)
    (hdata : data.everyNode q = true) : (Socket.eventData event data).everyNode q = true := by
  cases data <;>
    simp_all [Socket.eventData, everyNode, everyItem]

theorem binaryCount_eventData (event : Bytes) (data : Json) :
    (Socket.eventData event data).binaryCount = data.binaryCount := by
  cases data <;> simp [Socket.eventData, binaryCount, itemsBinaryCount]

theorem eventPacket_encodable {T : JsonText} (hT : T.Lawful) {nsp event : Bytes} {data : Json}
    {id : Int} (hslash : nsp.head? = some (byteOf '/')) (hcomma : byteOf ',' ∉ nsp)
    (hid : -1 ≤ id ∧ id ≤ intMax) (h : WellFormed event data) :
    Encodable T (Socket.eventPacket nsp event data id) where
  binary := .inl rfl
  nsp := .inr ⟨hslash, hcomma⟩
  id := hid
  text := by
    obtain ⟨args, -, hdata⟩ := eventData_eq event data
    exact .inr (noDigitText_container hT (.inl (by rw [Socket.eventPacket, hdata]; rfl)))
  textual := everyNode_eventData (fun _ => rfl)
    (by simp [nodeTextual, nodeRepresentable, nodeUtf8, nodeFinite, h.event]) h.textual
  noSubtype := everyNode_eventData (fun _ => rfl) rfl h.noSubtype
  placeholders := by
    rcases h.placeholders with hnone | hplain
    · exact .inl (by rw [Socket.eventPacket, binaryCount_eventData, hnone])
    · exact .inr (everyNode_eventData (fun _ => rfl) rfl hplain)

/-! ## From the decoder to the socket -/

/-- A frame that completes no packet leaves the destination alone. -/
theorem decode_incomplete {T : JsonText} {parser : JsonParser} {payload : Bytes} {isBinary : Bool}
    {out : Packet} {d : Decoded} (h : decode T parser payload isBinary out = .ok d)
    (hc : d.complete = false) : d.out = out := by
  have htext : ∀ parser, decodeText T parser payload out = d → d.out = out := by
    rintro parser rfl
    unfold decodeText at hc ⊢
    split
    · rfl
    · split_ifs <;> simp_all
  unfold decode at h
  split at h
  · split at h
    · simp only at h
      split at h
      · cases h
        rfl
      · split at h
        · cases h
        · cases h
          cases hc
    · exact htext {} (Except.ok.inj h)
  · split at h
    · cases h
      rfl
    · exact htext parser (Except.ok.inj h)

/-- Frames that complete one packet, at the last of them, make the call
for that packet. -/
theorem onEngineioFrames_of_feed {T : JsonText} (M : Msgpack) (sockets : List Bytes)
    {p : Packet} {parser' : JsonParser} : ∀ (frames : List Frame) (k : Nat) (parser : JsonParser),
    feed T parser {} frames = .ok (List.replicate k false ++ [true], p, parser') →
    onEngineioFrames T M sockets (.json parser) frames
      = .ok ((if p.nsp ∈ sockets then dispatchPacket (.ofPacket p) else none).toList,
          .json parser')
  | [], k, parser, h => by
      simp [feed] at h
  | frame :: rest, k, parser, h => by
      rw [feed] at h
      split at h
      · cases h
      · rename_i d hd
        split at h
        · cases h
        · rename_i results out last hrest
          simp only [Except.ok.injEq, Prod.mk.injEq] at h
          obtain ⟨hresults, rfl, rfl⟩ := h
          cases k with
          | zero =>
            -- the packet is complete, and there is no further frame
            simp only [List.replicate_zero, List.nil_append, List.cons.injEq] at hresults
            obtain ⟨hc, rfl⟩ := hresults
            obtain ⟨rfl, hout, hlast⟩ : rest = [] ∧ d.out = out ∧ d.parser = last := by
              cases rest with
              | nil => simp [feed] at hrest; exact ⟨rfl, hrest⟩
              | cons f rest =>
                rw [feed] at hrest
                split at hrest
                · cases hrest
                · split at hrest <;> cases hrest
            simp only [onEngineioFrames, onEngineioFrame, ClientParser.decode, hd, hc, if_true,
              hout, hlast, List.append_nil]
            rfl
          | succ k =>
            simp only [List.replicate_succ, List.cons_append, List.cons.injEq] at hresults
            obtain ⟨hc, hresults⟩ := hresults
            rw [decode_incomplete hd hc, hresults] at hrest
            have ih := onEngineioFrames_of_feed M sockets rest k d.parser hrest
            simp only [onEngineioFrames, onEngineioFrame, ClientParser.decode, hd, hc,
              Bool.false_eq_true, if_false, ih]
            rfl

/-- The switch does not tell an event from its binary variant. -/
theorem dispatchPacket_event {packet : RawPacket} {event : Bytes} {args : List Json}
    (htype : packet.type = 2 ∨ packet.type = 5)
    (hdata : packet.data = .arr (.str event :: args)) :
    dispatchPacket packet = some (.event packet.nsp event (.arr args) packet.id) := by
  rcases htype with htype | htype <;> simp only [dispatchPacket, htype, hdata] <;> rfl

/-! ## Over either codec -/

section Emission

variable {T : JsonText} {nsp event : Bytes} {data : Json} {id : Int} {sockets : List Bytes}

/-- The packet the text codec delivers, at the switch. -/
theorem dispatchPacket_received (event : Bytes) (data : Json) (id : Int)
    (hslash : nsp.head? = some (byteOf '/')) :
    (received (Socket.eventPacket nsp event data id)).nsp = nsp ∧
    dispatchPacket (.ofPacket (received (Socket.eventPacket nsp event data id)))
      = some (.event nsp event (eventArgs data) id) := by
  obtain ⟨args, hargs, harr⟩ := eventData_eq event data
  have hne : nsp ≠ [] := by
    rintro rfl
    cases hslash
  have hnsp : (received (Socket.eventPacket nsp event data id)).nsp = nsp := by
    rw [received, rootedNsp, Socket.eventPacket, if_neg hne]
  have htype : (received (Socket.eventPacket nsp event data id)).type = .event ∨
      (received (Socket.eventPacket nsp event data id)).type = .binaryEvent := by
    by_cases hbinary : (Socket.eventPacket nsp event data id).data.binaryCount > 0
    · right
      simp only [received, hbinary]
      rfl
    · left
      simp only [received, hbinary]
      rfl
  refine ⟨hnsp, ?_⟩
  rw [dispatchPacket_event (htype.imp (by intro h; rw [RawPacket.ofPacket, h]; rfl)
    (by intro h; rw [RawPacket.ofPacket, h]; rfl)) harr, hargs]
  simp only [RawPacket.ofPacket, hnsp]
  rfl

theorem json_dispatched (hT : T.Lawful) (M : Msgpack) {parser : JsonParser}
    (hparser : Reachable T parser) (hslash : nsp.head? = some (byteOf '/'))
    (hcomma : byteOf ',' ∉ nsp) (hdata : WellFormed event data) (hid : -1 ≤ id ∧ id ≤ intMax)
    (hsocket : nsp ∈ sockets) :
    (data.binaryCount > intMax →
      encode T (Socket.eventPacket nsp event data id) = .error .tooManyAttachments) ∧
    (data.binaryCount ≤ intMax → ∃ frames,
      encode T (Socket.eventPacket nsp event data id) = .ok frames ∧
      onEngineioFrames T M sockets (.json parser) frames
        = .ok ([.event nsp event (eventArgs data) id], .json {})) := by
  have hp := eventPacket_encodable hT hslash hcomma hid hdata
  have hcount : (Socket.eventPacket nsp event data id).data.binaryCount = data.binaryCount :=
    binaryCount_eventData event data
  refine ⟨fun hmany => encode_tooMany hp.writable (hcount ▸ hmany), fun hfits => ?_⟩
  obtain ⟨frames, hframes, -, hfeed⟩ := feed_encode hT hp (hcount ▸ hfits) hparser {}
  rw [hcount] at hfeed
  obtain ⟨hnsp, hdispatch⟩ := dispatchPacket_received event data id hslash
  refine ⟨frames, hframes, ?_⟩
  rw [onEngineioFrames_of_feed M sockets frames _ parser hfeed, hnsp, if_pos hsocket, hdispatch]
  rfl

theorem msgpack_dispatched (T : JsonText) {M : Msgpack} (hid : -1 ≤ id ∧ id ≤ intMax)
    (hsocket : nsp ∈ sockets)
    (hM : M.fromMsgpack (M.toMsgpack
        (MsgpackParser.object (Socket.eventPacket nsp event data id)))
      = some (MsgpackParser.object (Socket.eventPacket nsp event data id))) :
    onEngineioFrames T M sockets .msgpack
        (MsgpackParser.encode M (Socket.eventPacket nsp event data id))
      = .ok ([.event nsp event (eventArgs data) id], .msgpack) := by
  obtain ⟨args, hargs, harr⟩ := eventData_eq event data
  have hdispatch : dispatchPacket (.ofPacket (Socket.eventPacket nsp event data id))
      = some (.event nsp event (.arr args) id) := dispatchPacket_event (.inl rfl) harr
  have hframe : onEngineioFrame T M sockets .msgpack
      ⟨M.toMsgpack (MsgpackParser.object (Socket.eventPacket nsp event data id)), true⟩
        = .ok (some (.event nsp event (.arr args) id), .msgpack) := by
    simp only [onEngineioFrame, ClientParser.decode, MsgpackParser.decode_encode hid hM, if_true]
    rw [← hdispatch]
    exact congrArg (fun d => Except.ok (d, ClientParser.msgpack)) (if_pos hsocket)
  simp only [MsgpackParser.encode, onEngineioFrames, hframe, hargs]
  rfl

end Emission

/-- **One dispatch per emission, whatever the parser.** An event that some
overload of `emit` builds for namespace `nsp` arrives at a client with a
socket for `nsp` as one `dispatch_event` on that socket, with the event,
its arguments and its id, and as no other call. Over the text codec this
takes at most `INT_MAX` binary values; with more, `encode` throws before
the first frame. -/
theorem emit_dispatched_once (T : JsonText) (hT : T.Lawful) (M : Msgpack) (nsp event : Bytes)
    (data : Json) (id : Int) (sockets : List Bytes) (parser : JsonParser)
    (hslash : nsp.head? = some (byteOf '/')) (hcomma : byteOf ',' ∉ nsp)
    (hdata : WellFormed event data) (hid : -1 ≤ id ∧ id ≤ intMax) (hsocket : nsp ∈ sockets)
    (hparser : Reachable T parser)
    (hM : M.fromMsgpack (M.toMsgpack
        (MsgpackParser.object (Socket.eventPacket nsp event data id)))
      = some (MsgpackParser.object (Socket.eventPacket nsp event data id))) :
    (Socket.emitPacket nsp event data = Socket.eventPacket nsp event data (-1) ∧
      Socket.emitAckPacket nsp event data id = Socket.eventPacket nsp event data id ∧
      Socket.emitTimedPacket nsp event data id = Socket.eventPacket nsp event data id) ∧
    (data.binaryCount > intMax →
      ClientParser.encode T M (.json parser) (Socket.eventPacket nsp event data id)
        = .error .tooManyAttachments) ∧
    (data.binaryCount ≤ intMax → ∃ frames,
      ClientParser.encode T M (.json parser) (Socket.eventPacket nsp event data id) = .ok frames ∧
      onEngineioFrames T M sockets (.json parser) frames
        = .ok ([.event nsp event (eventArgs data) id], .json {})) ∧
    (∃ frames,
      ClientParser.encode T M .msgpack (Socket.eventPacket nsp event data id) = .ok frames ∧
      onEngineioFrames T M sockets .msgpack frames
        = .ok ([.event nsp event (eventArgs data) id], .msgpack)) := by
  obtain ⟨hthrows, hjson⟩ := json_dispatched hT M hparser hslash hcomma hdata hid hsocket
  have hmsgpack := msgpack_dispatched T hid hsocket hM
  exact ⟨Socket.emitPackets_eq nsp event data id, hthrows, hjson, ⟨_, rfl, hmsgpack⟩⟩

/-- A chat line with an attachment, acknowledged under 7. -/
def chatData : Json := .arr [.str (ascii "hi"), .binary [0xCA, 0xFE] none]

theorem emit_dispatched_once_chat :
    (∃ frames, ClientParser.encode ReferenceText.referenceText ReferenceMsgpack.referenceMsgpack
        (.json {}) (Socket.eventPacket (ascii "/chat") (ascii "say") chatData 7) = .ok frames ∧
      onEngineioFrames ReferenceText.referenceText ReferenceMsgpack.referenceMsgpack
          [ascii "/", ascii "/chat"] (.json {}) frames
        = .ok ([.event (ascii "/chat") (ascii "say") chatData 7], .json {})) ∧
    (∃ frames, ClientParser.encode ReferenceText.referenceText ReferenceMsgpack.referenceMsgpack
        .msgpack (Socket.eventPacket (ascii "/chat") (ascii "say") chatData 7) = .ok frames ∧
      onEngineioFrames ReferenceText.referenceText ReferenceMsgpack.referenceMsgpack
          [ascii "/", ascii "/chat"] .msgpack frames
        = .ok ([.event (ascii "/chat") (ascii "say") chatData 7], .msgpack)) := by
  have h := emit_dispatched_once ReferenceText.referenceText ReferenceText.referenceText_lawful
    ReferenceMsgpack.referenceMsgpack (ascii "/chat") (ascii "say") chatData 7
    [ascii "/", ascii "/chat"] {} rfl (by decide)
    ⟨by decide, by decide, by decide, .inr (by decide)⟩ (by decide) (by decide) .fresh rfl
  exact ⟨h.2.2.1 (by decide), h.2.2.2⟩

end Sioxx
