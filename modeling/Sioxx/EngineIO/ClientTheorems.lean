/-
Sioxx.EngineIO.ClientTheorems — exceptions and close notifications of the
receive path.

Two questions about `engineio_client` and the polling transport below it:

  * which server messages make the receive path throw
    (`receive_normal_iff`). `value(key, default)` is called on any
    handshake that parses, so an OPEN packet with JSON that is no object,
    or whose members have another type, throws;
  * how often one session reports its end (`closeNotices_le_one_iff`).
    The CLOSE packet and the transport's own closure both call `on_close_`,
    and neither looks at whether the other has happened.
-/
import Sioxx.EngineIO.Polling
import Sioxx.Json.ReferenceText

namespace Sioxx

open Lib

/-! ## Reading a handshake -/

namespace Json

/-- The members a handshake is read for have the types they are read as. -/
def handshakeTyped : Json → Bool
  | .obj members =>
    (lookup (ascii "pingInterval") members).all isNumeric &&
      (lookup (ascii "pingTimeout") members).all isNumeric &&
      (lookup (ascii "sid") members).all isStr
  | _ => false

/-- The session id a handshake names, empty if it names none. -/
def sessionIdOf : Option Json → Bytes
  | some (.obj members) =>
    match lookup (ascii "sid") members with
    | some (.str sid) => sid
    | _ => []
  | _ => []

theorem handshakeTyped_iff (v : Json) : v.handshakeTyped = true ↔
    (∃ i, v.value getInt (ascii "pingInterval") 25000 = .ok i) ∧
      (∃ i, v.value getInt (ascii "pingTimeout") 20000 = .ok i) ∧
      ∃ s, v.value getString (ascii "sid") [] = .ok s := by
  rw [value_ok_iff, value_ok_iff, value_ok_iff]
  cases v with
  | obj members =>
    simp only [handshakeTyped, Bool.and_eq_true, Option.all_eq_true, getInt_ok_iff,
      getString_ok_iff, Json.obj.injEq, exists_eq_left']
    tauto
  | null | bool | int | float | str | arr | binary => simp [handshakeTyped]

end Json

/-- An OPEN packet the code can read: its text does not parse, or gives an
object with members of the right types. -/
def HandshakeReadable (T : JsonText) (text : Bytes) : Prop :=
  ∀ v, T.parse text = some v → v.handshakeTyped = true

/-- Every message but an OPEN packet that cannot be read. -/
def MessageReadable (T : JsonText) (payload : Bytes) (isBinary : Bool) : Prop :=
  ∀ text, isBinary = false → payload = byteOf '0' :: text → HandshakeReadable T text

namespace EngineIOClient

theorem finishOpen_thrown (c : EngineIOClient) (sid : Bytes) : (c.finishOpen sid).thrown = none :=
  rfl

theorem finishOpen_sessionId (c : EngineIOClient) (sid : Bytes) :
    (c.finishOpen sid).client.sessionId = sid := by
  unfold finishOpen startHeartbeatTimer
  split <;> rfl

/-- Case `'0'` returns exactly on a readable handshake. -/
theorem handleOpen_thrown_iff (c : EngineIOClient) (now : Nat) (handshake : Option Json) :
    (c.handleOpen now handshake).thrown = none ↔
      ∀ v, handshake = some v → v.handshakeTyped = true := by
  cases handshake with
  | none => simp [handleOpen, finishOpen_thrown]
  | some v =>
    simp only [Option.some.injEq, forall_eq', Json.handshakeTyped_iff, handleOpen]
    cases v.value Json.getInt (ascii "pingInterval") 25000 with
    | error e => simp
    | ok interval =>
      cases v.value Json.getInt (ascii "pingTimeout") 20000 with
      | error e => simp
      | ok timeout =>
        cases v.value Json.getString (ascii "sid") [] with
        | error e => simp
        | ok sid => simp [finishOpen_thrown]

/-- When it returns, the session id is the one of the handshake or empty. -/
theorem handleOpen_sessionId {c : EngineIOClient} {now : Nat} {handshake : Option Json}
    (h : (c.handleOpen now handshake).thrown = none) :
    (c.handleOpen now handshake).client.sessionId = Json.sessionIdOf handshake := by
  cases handshake with
  | none => exact finishOpen_sessionId _ _
  | some v =>
    have htyped := (handleOpen_thrown_iff c now (some v)).mp h v rfl
    obtain ⟨⟨interval, hinterval⟩, ⟨timeout, htimeout⟩, sid, hsid⟩ :=
      (Json.handshakeTyped_iff v).mp htyped
    simp only [handleOpen, hinterval, htimeout, hsid, finishOpen_sessionId]
    cases v with
    | obj members =>
      simp only [Json.value, Json.sessionIdOf] at hsid ⊢
      cases hlookup : Json.lookup (ascii "sid") members with
      | none =>
        rw [hlookup] at hsid
        exact (Except.ok.inj hsid).symm
      | some member =>
        rw [hlookup] at hsid
        cases member with
        | str s => exact (Except.ok.inj hsid).symm
        | null | bool | int | float | arr | obj | binary => simp [Json.getString] at hsid
    | null | bool | int | float | str | arr | binary => simp [Json.value] at hsid

/-- The call returns, and after an OPEN packet the session id is the one
the handshake names, or empty. -/
def ReturnsNormally (T : JsonText) (c : EngineIOClient) (now : Nat) (payload : Bytes)
    (isBinary : Bool) : Prop :=
  (handleTransportMessage T c now payload isBinary).thrown = none ∧
    ∀ text, isBinary = false → payload = byteOf '0' :: text →
      (handleTransportMessage T c now payload isBinary).client.sessionId
        = Json.sessionIdOf (T.parse text)

/-- Only an OPEN packet can throw. -/
theorem handleTransportMessage_other {T : JsonText} {c : EngineIOClient} {now : Nat}
    {payload : Bytes} {isBinary : Bool}
    (h : ∀ text, isBinary = false → payload ≠ byteOf '0' :: text) :
    (handleTransportMessage T c now payload isBinary).thrown = none := by
  unfold handleTransportMessage
  split
  · rfl
  · rename_i hbinary
    split
    · rfl
    · rename_i typeChar rest
      split
      · rename_i htype
        exact absurd (by rw [htype]) (h rest (Bool.eq_false_iff.mpr hbinary))
      · split_ifs <;> rfl

theorem returnsNormally_iff (T : JsonText) (c : EngineIOClient) (now : Nat) (payload : Bytes)
    (isBinary : Bool) :
    ReturnsNormally T c now payload isBinary ↔ MessageReadable T payload isBinary := by
  by_cases hopen : ∃ text, isBinary = false ∧ payload = byteOf '0' :: text
  · obtain ⟨text, rfl, rfl⟩ := hopen
    have hcase : handleTransportMessage T c now (byteOf '0' :: text) false
        = c.handleOpen now (T.parse text) := by
      simp [handleTransportMessage]
    unfold ReturnsNormally MessageReadable HandshakeReadable
    rw [hcase, handleOpen_thrown_iff]
    constructor
    · rintro ⟨hread, -⟩ text' - heq v hv
      rw [← (List.cons.inj heq).2] at hv
      exact hread v hv
    · intro hread
      have hread' := hread text rfl rfl
      refine ⟨hread', fun text' _ heq => ?_⟩
      rw [← (List.cons.inj heq).2]
      exact handleOpen_sessionId ((handleOpen_thrown_iff c now _).mpr hread')
  · have hother : ∀ text, isBinary = false → payload ≠ byteOf '0' :: text :=
      fun text hbinary heq => hopen ⟨text, hbinary, heq⟩
    constructor
    · intro _ text hbinary heq
      exact absurd heq (hother text hbinary)
    · intro _
      exact ⟨handleTransportMessage_other hother,
        fun text hbinary heq => absurd heq (hother text hbinary)⟩

end EngineIOClient

/-! ## Delivering a body -/

namespace PollingTransport

/-- The packets `deliver` comes to before it finds `closing_` set. -/
def Reaches (closing : Nat → Bool) (packets : List Bytes) (i : Nat) (packet : Bytes) : Prop :=
  packets[i]? = some packet ∧ ∀ j ≤ i, closing j = false

theorem noteHandshake_ok_iff (T : JsonText) (t : PollingTransport) (packet : Bytes) :
    (∃ t', noteHandshake T t packet = .ok t') ↔
      ∀ text, packet = byteOf '0' :: text → ∀ v, T.parse text = some v →
        ∃ s, v.value Json.getString (ascii "sid") [] = .ok s := by
  unfold noteHandshake
  cases packet with
  | nil => simp
  | cons c text =>
    by_cases hc : c = byteOf '0'
    · subst hc
      simp only [List.head?_cons, if_true, List.tail_cons, List.cons.injEq, true_and, forall_eq']
      cases T.parse text with
      | none => simp
      | some v =>
        simp only [Option.some.injEq, forall_eq']
        cases v.value Json.getString (ascii "sid") [] with
        | error e => simp
        | ok sid => simp
    · simp [hc]

/-- A packet gets through both the transport and the client exactly if it
is no OPEN packet or a readable one. -/
theorem packet_through_iff (T : JsonText) (t : PollingTransport) (c : EngineIOClient) (now : Nat)
    (packet : Bytes) :
    ((∃ t', noteHandshake T t packet = .ok t') ∧ (forward T c now packet).thrown = none) ↔
      MessageReadable T packet false := by
  by_cases hopen : ∃ text, packet = byteOf '0' :: text
  · obtain ⟨text, rfl⟩ := hopen
    have hforward : forward T c now (byteOf '0' :: text)
        = EngineIOClient.handleTransportMessage T c now (byteOf '0' :: text) false := by
      unfold forward
      rw [if_neg (by simp only [List.head?_cons, Option.some.injEq]; decide)]
    have hread := EngineIOClient.returnsNormally_iff T c now (byteOf '0' :: text) false
    rw [hforward, noteHandshake_ok_iff]
    constructor
    · rintro ⟨-, hthrown⟩
      have hcase : EngineIOClient.handleTransportMessage T c now (byteOf '0' :: text) false
          = c.handleOpen now (T.parse text) := by
        simp [EngineIOClient.handleTransportMessage]
      rw [hcase, EngineIOClient.handleOpen_thrown_iff] at hthrown
      intro text' _ heq v hv
      rw [← (List.cons.inj heq).2] at hv
      exact hthrown v hv
    · intro hreadable
      refine ⟨fun text' heq v hv => ?_, (hread.mpr hreadable).1⟩
      have htyped := hreadable text' rfl heq v hv
      exact ((Json.handshakeTyped_iff v).mp htyped).2.2
  · have hother : ∀ text, packet ≠ byteOf '0' :: text := fun text heq => hopen ⟨text, heq⟩
    constructor
    · intro _ text _ heq
      exact absurd heq (hother text)
    · intro _
      refine ⟨(noteHandshake_ok_iff T t packet).mpr fun text heq => absurd heq (hother text), ?_⟩
      unfold forward
      split
      · split
        · rfl
        · rfl
      · exact EngineIOClient.handleTransportMessage_other fun text _ => hother text

/-- The packets reached are the first, unless the transport is closing
already, and those reached after it. -/
theorem forall_reaches_cons {P : Bytes → Prop} {closing : Nat → Bool} {packet : Bytes}
    {rest : List Bytes} : (∀ i p, Reaches closing (packet :: rest) i p → P p) ↔
      (closing 0 = false → P packet ∧
        ∀ i p, Reaches (fun j => closing (j + 1)) rest i p → P p) := by
  constructor
  · intro h hopen
    refine ⟨h 0 packet ⟨rfl, fun j hj => ?_⟩, fun i p hreach => h (i + 1) p ⟨hreach.1, ?_⟩⟩
    · rw [Nat.le_zero.mp hj]
      exact hopen
    · intro j hj
      cases j with
      | zero => exact hopen
      | succ j => exact hreach.2 j (Nat.le_of_succ_le_succ hj)
  · intro h i p hreach
    obtain ⟨hfirst, hrest⟩ := h (hreach.2 0 (Nat.zero_le i))
    cases i with
    | zero =>
      rw [← Option.some.inj hreach.1]
      exact hfirst
    | succ i => exact hrest i p ⟨hreach.1, fun j hj => hreach.2 (j + 1) (Nat.succ_le_succ hj)⟩

/-- The loop, from packet number `n` on. -/
theorem deliverFrom_thrown_iff (T : JsonText) (closing : Nat → Bool) (now : Nat → Nat) :
    ∀ (packets : List Bytes) (n : Nat) (t : PollingTransport) (c : EngineIOClient),
    (deliverFrom T closing now n packets t c).thrown = none ↔
      ∀ i packet, Reaches (fun j => closing (j + n)) packets i packet →
        MessageReadable T packet false
  | [], n, t, c => by
      simp [deliverFrom, Reaches]
  | packet :: rest, n, t, c => by
      have hthrough := packet_through_iff T t c (now n) packet
      rw [forall_reaches_cons, deliverFrom]
      simp only [Nat.zero_add, Nat.add_assoc, Nat.add_comm 1 n]
      cases hclosing : closing n with
      | true => simp
      | false =>
        simp only [Bool.false_eq_true, if_false, forall_const]
        cases hnote : noteHandshake T t packet with
        | error e =>
          rw [hnote] at hthrough
          simp only [reduceCtorEq, exists_false, false_and, false_iff] at hthrough
          simp [hthrough]
        | ok t' =>
          cases hfirst : (forward T c (now n) packet).thrown with
          | some e =>
            rw [hfirst] at hthrough
            simp only [reduceCtorEq, and_false, false_iff] at hthrough
            simp [hthrough]
          | none =>
            have hreadable := hthrough.mp ⟨⟨t', hnote⟩, hfirst⟩
            simp only [hreadable, true_and]
            exact deliverFrom_thrown_iff T closing now rest (n + 1) t' _

end PollingTransport

/-- **When the receive path returns normally.** A message to the client
does, exactly if it is not an OPEN packet with a handshake that parses and
is ill-typed; a polled body does, exactly if none of the packets that are
reached before `closing_` is such a one. -/
theorem receive_normal_iff (T : JsonText) (c : EngineIOClient) :
    (∀ now payload isBinary, EngineIOClient.ReturnsNormally T c now payload isBinary ↔
      MessageReadable T payload isBinary) ∧
    (∀ closing now t body, (PollingTransport.deliver T closing now t c body).thrown = none ↔
      ∀ i packet, PollingTransport.Reaches closing (pollingSplitPayload body) i packet →
        MessageReadable T packet false) := by
  refine ⟨EngineIOClient.returnsNormally_iff T c, fun closing now t body => ?_⟩
  have h := PollingTransport.deliverFrom_thrown_iff T closing now (pollingSplitPayload body) 0 t c
  simpa [PollingTransport.deliver] using h

/-- A handshake that is an array, and one with a number for its session
id: both transports let the exception out. -/
theorem illTyped_handshake_throws :
    (EngineIOClient.handleTransportMessage ReferenceText.referenceText {} 0 (ascii "0[]")
        false).thrown = some .typeError306 ∧
      (PollingTransport.deliver ReferenceText.referenceText (fun _ => false) (fun _ => 0) {} {}
        (ascii "0[]")).thrown = some .typeError306 ∧
      (EngineIOClient.handleTransportMessage ReferenceText.referenceText {} 0
        (ascii "0\x7b\"sid\":7\x7d") false).thrown = some .typeError302 :=
  ⟨by decide +kernel, by decide +kernel, by decide +kernel⟩

/-! ## Close notifications -/

def Effect.isClosed : Effect → Bool
  | .closed _ => true
  | _ => false

namespace EngineIOClient

/-- An OPEN packet, which starts a session. -/
def TransportEvent.opensSession : TransportEvent → Bool
  | .message payload isBinary => !isBinary && payload.head? == some (byteOf '0')
  | .close _ => false

/-- The events after which the code reports the end of the session: a
CLOSE packet and the closure of the transport. -/
def TransportEvent.endsSession : TransportEvent → Bool
  | .message payload isBinary => !isBinary && payload.head? == some (byteOf '1')
  | .close _ => true

/-- The calls of `on_close_` among the effects of a call. -/
def closeNotices (h : Handled) : Nat := h.effects.countP Effect.isClosed

/-- One event within a session: it never throws, and it calls `on_close_`
exactly if it ends the session, whether or not another one has. -/
theorem handleEvent_within (T : JsonText) {c : EngineIOClient} (now : Nat)
    {event : TransportEvent} (hclose : c.onClose = true) (hopen : event.opensSession = false) :
    (c.handleEvent T now event).thrown = none ∧
      (c.handleEvent T now event).client.onClose = true ∧
      closeNotices (c.handleEvent T now event) = event.endsSession.toNat := by
  cases event with
  | close reason =>
    simp [handleEvent, handleTransportClose, stopHeartbeatTimer, notifyClose, hclose,
      closeNotices, Effect.isClosed, TransportEvent.endsSession]
  | message payload isBinary =>
    cases isBinary with
    | true =>
      refine ⟨rfl, hclose, ?_⟩
      simp only [handleEvent, handleTransportMessage, closeNotices, TransportEvent.endsSession]
      cases c.onFrame <;> rfl
    | false =>
      cases payload with
      | nil => exact ⟨rfl, hclose, rfl⟩
      | cons typeChar rest =>
        have hzero : typeChar ≠ byteOf '0' := by
          simpa [TransportEvent.opensSession] using hopen
        simp only [handleEvent, handleTransportMessage, Bool.false_eq_true, if_false, if_neg hzero]
        by_cases hone : typeChar = byteOf '1'
        · subst hone
          simp [stopHeartbeatTimer, notifyClose, hclose, closeNotices, Effect.isClosed,
            TransportEvent.endsSession]
        · have hends : (TransportEvent.message (typeChar :: rest) false).endsSession = false := by
            simpa [TransportEvent.endsSession] using hone
          rw [if_neg hone, hends]
          split_ifs <;> simp [closeNotices, Effect.isClosed, hclose]

/-- The notifications of a whole session. -/
theorem closeNotices_eq (T : JsonText) : ∀ (events : List (Nat × TransportEvent))
    (c : EngineIOClient), c.onClose = true → (∀ e ∈ events, e.2.opensSession = false) →
    closeNotices (handleEvents T c events) = events.countP (fun e => e.2.endsSession)
  | [], _, _, _ => rfl
  | (now, event) :: rest, c, hclose, hopen => by
      obtain ⟨hthrown, hclose', hnotices⟩ :=
        handleEvent_within T now hclose (hopen (now, event) List.mem_cons_self)
      have hrest := closeNotices_eq T rest _ hclose'
        fun e he => hopen e (List.mem_cons_of_mem _ he)
      unfold closeNotices at hnotices hrest ⊢
      simp only [handleEvents, hthrown, List.countP_append, List.countP_cons, hnotices, hrest]
      cases event.endsSession <;> simp [Nat.add_comm]

/-- **When a session reports its end at most once.** Between two OPEN
packets, `on_close_` is called at most once exactly if at most one event is
a CLOSE packet or the closure of the transport. -/
theorem closeNotices_le_one_iff (T : JsonText) (c : EngineIOClient)
    (events : List (Nat × TransportEvent)) (hclose : c.onClose = true)
    (hwithin : ∀ e ∈ events, e.2.opensSession = false) :
    closeNotices (handleEvents T c events) ≤ 1 ↔
      events.countP (fun e => e.2.endsSession) ≤ 1 := by
  rw [closeNotices_eq T events c hclose hwithin]

/-- A ping, a message and then the closure of the transport. -/
theorem closeNotices_le_one_iff_plain :
    closeNotices (handleEvents ReferenceText.referenceText {}
        [(1, .message (ascii "2") false), (2, .message (ascii "42[]") false),
         (3, .close (ascii "end of stream"))]) ≤ 1 ↔
      ([(1, .message (ascii "2") false), (2, .message (ascii "42[]") false),
        (3, .close (ascii "end of stream"))] : List (Nat × TransportEvent)).countP
          (fun e => e.2.endsSession) ≤ 1 :=
  closeNotices_le_one_iff ReferenceText.referenceText {} _ rfl (by decide)

/-- A CLOSE packet followed by the transport's own closure is reported
twice. -/
theorem serverClose_reported_twice :
    closeNotices (handleEvents ReferenceText.referenceText { isOpen := true }
      [(1, .message (ascii "1") false), (2, .close (ascii "end of stream"))]) = 2 := by
  decide

end EngineIOClient

end Sioxx
