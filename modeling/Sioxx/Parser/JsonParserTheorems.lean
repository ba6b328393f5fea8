/-
Sioxx.Parser.JsonParserTheorems — what the text codec writes, it reads
back.

`encode_feed_roundTrip` is the round trip of whole packets: the frames of
`encode`, fed to the decoder in any state it can be in, give `false` on
every frame but the last, `true` on the last, the packet that was
encoded, and a parser with nothing pending.

The proof goes along the wire format. The header has no delimiter between
its optional fields, so each of them ends where it should only because of
what comes next: the attachment count ends at the dash, a namespace at its
comma, an id at the first byte that is no digit. One lemma per field
(`countField_written`, `nspField_written`, `idField_written`,
`WrittenData.jsonField`) says that what is written is a spelling in the
sense of `Grammar.lean`, with the condition on what follows as hypothesis;
`decodeHeader_written` puts them together.

The side conditions of the main theorem are collected in `Encodable`. The
one that is not obvious is `text`: a payload whose text starts with a
digit (a bare number) would be read as the acknowledgement id.
-/
import Sioxx.Json.ReferenceText
import Sioxx.Parser.Grammar
import Sioxx.Parser.PlaceholderTheorems

namespace Sioxx.JsonParser

open Lib Json

/-! ## The fields of a written header -/

/-- The wire form of an acknowledgement id. -/
def writtenId (id : Int) : Bytes := if id ≥ 0 then decimal id.toNat else []

/-- What the payload contributes to the text frame. -/
inductive WrittenData (T : JsonText) : Json → Bytes → Prop where
  | null : WrittenData T .null []
  | text {data : Json} {b : UInt8} {t : Bytes} :
      T.parse (b :: t) = some data → isDigit b = false → b ≠ byteOf '/' →
      WrittenData T data (b :: t)

/-- A namespace `encode` writes so that `decode` can find it. -/
def NspOk (nsp : Bytes) : Prop :=
  nsp = [] ∨ (nsp.head? = some (byteOf '/') ∧ byteOf ',' ∉ nsp)

/-- The namespace a packet is decoded with. -/
def rootedNsp (nsp : Bytes) : Bytes := if nsp = [] then ascii "/" else nsp

def writtenAttachments (type : PacketType) (n : Nat) : Bytes :=
  if type.isBinary then decimal n ++ ascii "-" else []

def writtenNsp (nsp : Bytes) : Bytes :=
  if nsp ≠ [] ∧ nsp ≠ ascii "/" then nsp ++ ascii "," else []

theorem header_eq (type : PacketType) (n : Nat) (nsp : Bytes) (id : Int) :
    header type n nsp id
      = decimal type.digit ++ writtenAttachments type n ++ writtenNsp nsp ++ writtenId id := rfl

theorem countField_written {type : PacketType} {n : Nat} (hn : n ≤ intMax)
    (hcount : type.isBinary = true ↔ 1 ≤ n) :
    CountField type (writtenAttachments type n) n := by
  cases hbin : type.isBinary with
  | false =>
    have hzero : n = 0 := by
      have : ¬ 1 ≤ n := fun h => by simp [hcount.mpr h] at hbin
      omega
    rw [writtenAttachments, if_neg (by simp [hbin]), hzero]
    exact .absent hbin
  | true =>
    have hfield := CountField.digits hbin (decimal_ne_nil n) (isDigit_of_mem_decimal n)
    rw [digitsValue_decimal] at hfield
    rw [writtenAttachments, if_pos hbin]
    exact hfield (hcount.mp hbin) hn

theorem nspField_written {nsp rest : Bytes} (hnsp : NspOk nsp)
    (hrest : rest.head? ≠ some (byteOf '/')) :
    NspField rest (writtenNsp nsp) (rootedNsp nsp) := by
  by_cases hempty : nsp = []
  · rw [writtenNsp, if_neg (by simp [hempty]), rootedNsp, if_pos hempty]
    exact .absent hrest
  · rw [rootedNsp, if_neg hempty]
    by_cases hroot : nsp = ascii "/"
    · rw [writtenNsp, if_neg (by simp [hroot]), hroot]
      exact .absent hrest
    · obtain ⟨hslash, hcomma⟩ := hnsp.resolve_left hempty
      rw [writtenNsp, if_pos ⟨hempty, hroot⟩]
      exact .comma hslash hcomma

theorem idField_written {id : Int} {rest : Bytes} (hlo : -1 ≤ id) (hhi : id ≤ intMax)
    (hrest : ∀ b ∈ rest.head?, isDigit b = false) : IdField rest (writtenId id) id := by
  by_cases hid : id ≥ 0
  · have hfield := IdField.digits (decimal_ne_nil id.toNat) (isDigit_of_mem_decimal id.toNat) hrest
    rw [digitsValue_decimal, Int.toNat_of_nonneg hid] at hfield
    rw [writtenId, if_pos hid]
    exact hfield (by omega)
  · have habsent : id = -1 := by omega
    rw [writtenId, if_neg hid, habsent]
    exact .absent hrest

theorem WrittenData.jsonField {T : JsonText} {data : Json} {text : Bytes}
    (h : WrittenData T data text) : JsonField T text data := by
  cases h with
  | null => exact .absent
  | text hparse => exact .text (by simp) hparse

theorem WrittenData.head {T : JsonText} {data : Json} {text : Bytes}
    (h : WrittenData T data text) :
    (∀ b ∈ text.head?, isDigit b = false) ∧ text.head? ≠ some (byteOf '/') := by
  cases h with
  | null => simp
  | text _ hdigit hslash => simp [hdigit, hslash]

/-- The type's digit is one byte and names the type. -/
theorem decimal_digit (type : PacketType) :
    ∃ b, decimal type.digit = [b] ∧ isDigit b = true ∧
      PacketType.ofDigit (digitValue b) = some type := by
  cases type
  all_goals exact ⟨_, rfl, by decide, by decide⟩

/-- Decoding a written header gives the fields it was written from. -/
theorem decodeHeader_written {T : JsonText} {type : PacketType} {n : Nat} {nsp : Bytes}
    {id : Int} {data : Json} {text : Bytes} (hn : n ≤ intMax)
    (hcount : type.isBinary = true ↔ 1 ≤ n) (hnsp : NspOk nsp) (hlo : -1 ≤ id)
    (hhi : id ≤ intMax) (hdata : WrittenData T data text) :
    decodeHeader T (header type n nsp id ++ text)
      = some { type, nsp := rootedNsp nsp, id, data, attachments := n } := by
  obtain ⟨b, hb, hdigit, htype⟩ := decimal_digit type
  obtain ⟨hnodigit, hnoslash⟩ := hdata.head
  have hidhead : (writtenId id ++ text).head? ≠ some (byteOf '/') := by
    cases hw : writtenId id with
    | nil => simpa using hnoslash
    | cons d ds =>
      have hd : isDigit d = true := by
        simp only [writtenId] at hw
        split at hw
        · exact isDigit_of_mem_decimal _ d (by rw [hw]; simp)
        · simp at hw
      simp only [List.cons_append, List.head?_cons, ne_eq, Option.some.injEq]
      rintro rfl
      revert hd
      decide
  refine (decodeHeader_iff T _ _).mpr
    ⟨⟨b, writtenAttachments type n, writtenNsp nsp, writtenId id, text⟩, ?_, ⟨hdigit, htype⟩,
      countField_written hn hcount, nspField_written hnsp hidhead,
      idField_written hlo hhi hnodigit, hdata.jsonField⟩
  simp [Fields.text, header_eq, hb]

/-! ## Frames -/

/-- Nothing pending means no attachment kept either. -/
theorem Reachable.attachments_nil {T : JsonText} {parser : JsonParser}
    (h : Reachable T parser) :
    parser.pendingBinaryPacket = none → parser.pendingAttachments = [] := by
  induction h with
  | fresh => intro _; rfl
  | @decode parser payload isBinary out d _ hd ih =>
    have htext : ∀ q : JsonParser,
        (decodeText T q payload out).parser.pendingBinaryPacket = none →
        (decodeText T q payload out).parser = q := by
      intro q
      unfold decodeText
      split
      · simp
      · split
        · split <;> simp
        · simp
    intro hnone
    unfold JsonParser.decode at hd
    split at hd
    · rename_i pending hpending
      split at hd
      · dsimp only at hd
        split at hd
        · cases hd; simp [hpending] at hnone
        · split at hd
          · cases hd
          · cases hd; rfl
      · cases hd; rw [htext _ hnone]
    · rename_i hpending
      split at hd
      · cases hd; exact ih hpending
      · cases hd; rw [htext _ hnone]; exact ih hpending

/-- A text frame is decoded as by a parser with nothing pending. -/
theorem decode_text {T : JsonText} {parser : JsonParser} (h : Reachable T parser)
    (payload : Bytes) (out : Packet) :
    decode T parser payload false out = .ok (decodeText T {} payload out) := by
  unfold decode
  split
  · simp
  · rename_i hpending
    have hatt := h.attachments_nil hpending
    obtain ⟨pending, attachments⟩ := parser
    simp only at hpending hatt
    subst hpending; subst hatt
    simp

/-- The attachments of a pending header: `false` up to the last one, which
completes the packet. -/
theorem feed_attachments (T : JsonText) (pending : Packet) {data : Json} (out : Packet) :
    ∀ (rest : List Bytes) (arrived : List Bytes), rest ≠ [] →
    arrived.length + rest.length = pending.attachments →
    reconstructBinary (arrived ++ rest) pending.data = .ok data →
    feed T ⟨some pending, arrived⟩ out (rest.map (fun a => ⟨a, true⟩))
      = .ok (List.replicate (rest.length - 1) false ++ [true], { pending with data }, {})
  | [], _, hne, _, _ => absurd rfl hne
  | [a], arrived, _, hlen, hrec => by
      have hfull : ¬ (arrived ++ [a]).length < pending.attachments := by
        simp only [List.length_append, List.length_singleton] at hlen ⊢
        omega
      simp only [List.map_cons, List.map_nil, feed, decode, if_true, if_neg hfull, hrec]
      rfl
  | a :: a' :: rest, arrived, _, hlen, hrec => by
      have hmore : (arrived ++ [a]).length < pending.attachments := by
        simp only [List.length_append, List.length_cons, List.length_nil] at hlen ⊢
        omega
      have hrest := feed_attachments T pending out (a' :: rest) (arrived ++ [a])
        (by simp)
        (by simp only [List.length_append, List.length_cons, List.length_nil] at hlen ⊢; omega)
        (by simpa using hrec)
      rw [List.map_cons]
      simp only [feed, decode, if_true, if_pos hmore]
      rw [hrest]
      simp [List.replicate_succ]

/-! ## The round trip -/

/-- The dump of a value starts with no digit. -/
def NoDigitText (T : JsonText) (v : Json) : Prop :=
  ∀ t, T.dump v = .ok t → ∀ b ∈ t.head?, isDigit b = false

/-- The packets the text protocol can carry. -/
structure Encodable (T : JsonText) (p : Packet) : Prop where
  /-- Only events and acknowledgements take binary values. -/
  binary : p.type.carriesBinary = true ∨ p.data.binaryCount = 0
  nsp : NspOk p.nsp
  id : -1 ≤ p.id ∧ p.id ≤ intMax
  text : p.data = .null ∨ NoDigitText T p.data
  textual : p.data.everyNode nodeTextual = true
  noSubtype : p.data.everyNode nodeNoSubtype = true
  /-- An object with a boolean-true `"_placeholder"` may not stand beside
  binary values. -/
  placeholders : p.data.binaryCount = 0 ∨ p.data.everyNode nodeNoPlaceholder = true

/-- The packets whose header can be read back, whatever objects stand in
the payload. -/
structure Writable (T : JsonText) (p : Packet) : Prop where
  binary : p.type.carriesBinary = true ∨ p.data.binaryCount = 0
  nsp : NspOk p.nsp
  id : -1 ≤ p.id ∧ p.id ≤ intMax
  text : p.data = .null ∨ NoDigitText T p.data
  textual : p.data.everyNode nodeTextual = true

theorem Encodable.writable {T : JsonText} {p : Packet} (h : Encodable T p) : Writable T p :=
  ⟨h.binary, h.nsp, h.id, h.text, h.textual⟩

/-- The binary variant of a type, or its plain variant. -/
def binaryVariant (type : PacketType) (binary : Bool) : PacketType :=
  match type, binary with
  | .event, true | .binaryEvent, true => .binaryEvent
  | .ack, true | .binaryAck, true => .binaryAck
  | .event, false | .binaryEvent, false => .event
  | .ack, false | .binaryAck, false => .ack
  | type, _ => type

/-- The packet the receiver gets. -/
def received (p : Packet) : Packet where
  type := binaryVariant p.type (decide (p.data.binaryCount > 0))
  nsp := rootedNsp p.nsp
  id := p.id
  data := p.data
  attachments := p.data.binaryCount

/-- Arrays and objects are printed with their bracket first. -/
theorem noDigitText_container {T : JsonText} (hT : T.Lawful) {v : Json}
    (hv : v.isArray = true ∨ v.isObject = true) : NoDigitText T v := by
  intro t ht b hb
  have hhead : t.head? = some (byteOf '[') ∨ t.head? = some (byteOf '{') := by
    cases v with
    | arr items => exact .inl (hT.dump_arr items t ht)
    | obj members => exact .inr (hT.dump_obj members t ht)
    | _ => simp [isArray, isObject] at hv
  rcases hhead with h | h
  all_goals
    rw [h, Option.mem_some_iff] at hb
    subst hb
    decide

/-- Outside arrays, objects and binary values the traversal does nothing. -/
theorem deconstruct_shape (v : Json) :
    (deconstructBinary v []).1.isArray = true ∨ (deconstructBinary v []).1.isObject = true ∨
      deconstructBinary v [] = (v, []) := by
  cases v <;> simp [deconstructBinary, isArray, isObject, placeholder]

theorem noDigitText_deconstruct {T : JsonText} (hT : T.Lawful) {v : Json}
    (hv : v = .null ∨ NoDigitText T v) :
    (deconstructBinary v []).1.isNull = true ∨ NoDigitText T (deconstructBinary v []).1 := by
  rcases deconstruct_shape v with h | h | h
  · exact .inr (noDigitText_container hT (.inl h))
  · exact .inr (noDigitText_container hT (.inr h))
  · rw [h]
    exact hv.imp (fun hnull => by rw [hnull]; rfl) id

theorem everyNode_utf8 {v : Json} (h : v.everyNode nodeTextual = true) :
    v.everyNode nodeUtf8 = true := by
  have hsplit : nodeTextual
      = fun n => (fun m => nodeRepresentable m && nodeUtf8 m) n && nodeFinite n := rfl
  rw [hsplit, everyNode_and, everyNode_and] at h
  simp only [Bool.and_eq_true] at h
  exact h.1.2

/-- The value `encode` prints, and that it reads back. -/
theorem writtenData_of_dumpable {T : JsonText} (hT : T.Lawful) {v : Json}
    (hdump : v.dumpable = true) (htext : v.isNull = true ∨ NoDigitText T v) :
    (v.isNull = true ∧ WrittenData T v []) ∨
      (v.isNull = false ∧ ∃ t, T.dump v = .ok t ∧ WrittenData T v t) := by
  cases hnull : v.isNull with
  | true =>
    have : v = .null := by cases v <;> simp_all [isNull]
    subst this
    exact .inl ⟨rfl, .null⟩
  | false =>
    have hutf : v.everyNode nodeUtf8 = true := by
      have h := hdump
      simp only [dumpable, Bool.and_eq_true] at h
      exact everyNode_utf8 h.1
    obtain ⟨t, ht⟩ := hT.dump_total v hutf
    obtain ⟨b, rest, rfl, hslash⟩ := hT.dump_head v t ht
    have hdigit : isDigit b = false :=
      (htext.resolve_left (by simp [hnull])) _ ht b (by simp)
    exact .inr ⟨rfl, _, ht, .text (hT.parse_dump v _ hdump ht) hdigit hslash⟩

/-- What `encode` takes out of the payload, whatever the packet type. -/
theorem encode_parts {T : JsonText} {p : Packet} (hp : Writable T p) :
    (if p.type.carriesBinary then deconstructBinary p.data [] else (p.data, []))
      = deconstructBinary p.data [] := by
  split
  · rfl
  · rename_i h
    rw [deconstructBinary_none _ _ (hp.binary.resolve_left h)]

/-- The type in the header is the binary variant iff there are attachments. -/
theorem normalizeType_eq {type : PacketType} (atts : List Bytes)
    (h : type.carriesBinary = true ∨ atts.length = 0) :
    normalizeType type atts = binaryVariant type (decide (atts.length > 0)) ∧
      ((binaryVariant type (decide (atts.length > 0))).isBinary = true ↔ 1 ≤ atts.length) := by
  cases atts with
  | nil => cases type <;> simp [normalizeType, binaryVariant, PacketType.isBinary]
  | cons a atts =>
    have hcarries := h.resolve_right (by simp)
    cases type <;>
      simp_all [normalizeType, binaryVariant, PacketType.isBinary, PacketType.carriesBinary]

/-- The frames of a packet: a text frame that decodes to its header, and
one binary frame per attachment. -/
theorem encode_frames {T : JsonText} (hT : T.Lawful) {p : Packet} (hp : Writable T p)
    (hcount : p.data.binaryCount ≤ intMax) :
    ∃ text, encode T p = .ok (⟨text, false⟩ ::
        (deconstructBinary p.data []).2.map (fun a => ⟨a, true⟩)) ∧
      decodeHeader T text = some { received p with data := (deconstructBinary p.data []).1 } := by
  have hlen := deconstructBinary_length p.data []
  simp only [List.length_nil, Nat.zero_add] at hlen
  obtain ⟨htype, hbinary⟩ := normalizeType_eq (deconstructBinary p.data []).2
    (by rw [hlen]; exact hp.binary)
  rw [hlen] at htype hbinary
  have hdump : (deconstructBinary p.data []).1.dumpable = true := by
    have hbound : p.data.binaryCount ≤ 2 ^ 64 := by simp only [intMax] at hcount; omega
    simp only [dumpable, Bool.and_eq_true]
    exact ⟨textual_deconstruct p.data [] hp.textual (by simpa using hbound),
      noBinary_deconstruct p.data []⟩
  have hparts := encode_parts hp
  have hheader : ∀ text, WrittenData T (deconstructBinary p.data []).1 text →
      decodeHeader T (header (normalizeType p.type (deconstructBinary p.data []).2)
          (deconstructBinary p.data []).2.length p.nsp p.id ++ text)
        = some { received p with data := (deconstructBinary p.data []).1 } := by
    intro text htext
    rw [htype, hlen]
    exact decodeHeader_written hcount hbinary hp.nsp hp.id.1 hp.id.2 htext
  have hfit : ¬ (deconstructBinary p.data []).2.length > intMax := by omega
  simp only [encode, hparts, if_neg hfit]
  rcases writtenData_of_dumpable hT hdump (noDigitText_deconstruct hT hp.text) with
    ⟨hnull, hw⟩ | ⟨hnull, t, ht, hw⟩
  · refine ⟨_, by rw [if_pos hnull], ?_⟩
    simpa using hheader [] hw
  · refine ⟨_, by rw [if_neg (by simp [hnull]), ht], ?_⟩
    exact hheader t hw

theorem encode_tooMany {T : JsonText} {p : Packet} (hp : Writable T p)
    (hmany : p.data.binaryCount > intMax) : encode T p = .error .tooManyAttachments := by
  have hlen := deconstructBinary_length p.data []
  simp only [List.length_nil, Nat.zero_add] at hlen
  have hover : (deconstructBinary p.data []).2.length > intMax := by omega
  simp only [encode, encode_parts hp, if_pos hover]

/-- The frames of an encodable packet, fed to a parser. -/
theorem feed_encode {T : JsonText} (hT : T.Lawful) {p : Packet} (hp : Encodable T p)
    (hcount : p.data.binaryCount ≤ intMax) {parser : JsonParser} (hr : Reachable T parser)
    (out : Packet) :
    ∃ frames, encode T p = .ok frames ∧ frames.length = p.data.binaryCount + 1 ∧
      feed T parser out frames
        = .ok (List.replicate p.data.binaryCount false ++ [true], received p, {}) := by
  have hlen := deconstructBinary_length p.data []
  simp only [List.length_nil, Nat.zero_add] at hlen
  obtain ⟨text, hframes, hheader⟩ := encode_frames hT hp.writable hcount
  refine ⟨_, hframes, by simp [hlen], ?_⟩
  have hbinary := (normalizeType_eq (deconstructBinary p.data []).2
    (by rw [hlen]; exact hp.binary)).2
  rw [hlen] at hbinary
  simp only [feed, decode_text hr]
  by_cases hzero : p.data.binaryCount = 0
  · -- a plain packet is complete at once
    have hnone := deconstructBinary_none p.data [] hzero
    have hplain : (received p).type.isBinary = false := by
      rw [Bool.eq_false_iff]
      intro h
      have := hbinary.mp h
      omega
    simp only [hnone] at hheader ⊢
    simp only [decodeText, hheader, hplain]
    simp only [List.map_nil, feed, hzero]
    rfl
  · -- a binary packet waits for its attachments
    have hplace := hp.placeholders.resolve_left hzero
    have hbin : (received p).type.isBinary = true := hbinary.mpr (by omega)
    have hvalid := hasValidPlaceholders_deconstruct p.data hplace
    have hrec := reconstruct_deconstruct (deconstructBinary p.data []).2
      (by rw [hlen]; simp only [intMax] at hcount; omega) p.data [] hplace hp.noSubtype
      (List.prefix_refl _)
    have hfeed := feed_attachments T { received p with data := (deconstructBinary p.data []).1 }
      out (deconstructBinary p.data []).2 [] (by
        intro hnil; rw [hnil] at hlen; simp at hlen; omega)
      (by simp [hlen, received]) (by simpa using hrec)
    simp only [decodeText, hheader, hbin, if_true]
    rw [if_pos (by exact hvalid)]
    simp only [hfeed, hlen]
    obtain ⟨m, hm⟩ : ∃ m, p.data.binaryCount = m + 1 :=
      ⟨_, (Nat.succ_pred_eq_of_ne_zero hzero).symm⟩
    simp [hm, List.replicate_succ, received]

/-- **Round trip of the text codec.** `encode` throws exactly for more than
`INT_MAX` binary values, and then writes nothing. Otherwise its frames,
fed to a parser in any reachable state, return `false` but for the last,
which returns `true` with the packet that was sent, and nothing is left
pending. Every array and every object has a text `Encodable` allows. -/
theorem encode_feed_roundTrip (T : JsonText) (hT : T.Lawful) (p : Packet)
    (hp : Encodable T p) (parser : JsonParser) (hr : Reachable T parser) (out : Packet) :
    (p.data.binaryCount > intMax → encode T p = .error .tooManyAttachments) ∧
    (p.data.binaryCount ≤ intMax → ∃ frames, encode T p = .ok frames ∧
      frames.length = p.data.binaryCount + 1 ∧
      feed T parser out frames
        = .ok (List.replicate p.data.binaryCount false ++ [true], received p, {})) ∧
    (∀ v : Json, v.isArray = true ∨ v.isObject = true → NoDigitText T v) := by
  refine ⟨fun hmany => ?_, fun hcount => ?_, fun v hv => noDigitText_container hT hv⟩
  · exact encode_tooMany hp.writable hmany
  · exact feed_encode hT hp hcount hr out

/-- An acknowledgement with a namespace, an id and a binary value. -/
def binaryAckPacket : Packet where
  type := .ack
  nsp := ascii "/chat"
  id := 12
  data := .arr [.str (ascii "ok"), .binary [0xAA, 0xBB] none]

theorem binaryAckPacket_encodable :
    Encodable ReferenceText.referenceText binaryAckPacket where
  binary := .inl rfl
  nsp := .inr ⟨rfl, by decide⟩
  id := by decide
  text := .inr (noDigitText_container ReferenceText.referenceText_lawful (.inl rfl))
  textual := by decide
  noSubtype := by decide
  placeholders := .inr (by decide)

theorem encode_feed_roundTrip_binaryAck :
    ∃ frames, encode ReferenceText.referenceText binaryAckPacket = .ok frames ∧
      frames.length = 2 ∧
      feed ReferenceText.referenceText {} {} frames
        = .ok ([false, true], received binaryAckPacket, {}) :=
  (encode_feed_roundTrip ReferenceText.referenceText ReferenceText.referenceText_lawful
    binaryAckPacket binaryAckPacket_encodable {} .fresh {}).2.1 (by decide)

-- the same packet as it goes over the wire
example : encode ReferenceText.referenceText binaryAckPacket
    = .ok [⟨ascii "61-/chat,12[\"ok\",\x7b\"_placeholder\":true,\"num\":0\x7d]", false⟩,
        ⟨[0xAA, 0xBB], true⟩] := by
  rfl

end Sioxx.JsonParser
