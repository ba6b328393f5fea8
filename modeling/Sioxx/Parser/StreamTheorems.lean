/-
Sioxx.Parser.StreamTheorems — what the text decoder makes of any stream.

A stream that begins with a text frame is cut at its text frames; a
segment is a text frame and the binary frames up to the next one.
`decodeAll_stream` says that the packets of the stream are the packets of
its segments, each found from the segment alone.

Two things carry the proof. A text frame is decoded afresh in every
reachable state (`decode_text`), which is the resynchronisation; and a
header that passed `has_valid_placeholders` can be filled in without a
fault (`reconstruct_fill`), so that a pending packet is completed by
exactly as many binary frames as it announced.
-/
import Sioxx.Parser.JsonParserTheorems

namespace Sioxx.JsonParser

open Lib Json

/-! ## Filling in the attachments -/

mutual

/-- Every placeholder replaced by the attachment with its number. -/
def fill (attachments : List Bytes) : Json → Json
  | .arr items => .arr (fillItems attachments items)
  | .obj members =>
    match isBinaryPlaceholder (.obj members), readPlaceholderIndex (.obj members) with
    | true, some index => .binary (attachments.getD index []) none
    | true, none => .obj members
    | false, _ => .obj (fillMembers attachments members)
  | v => v

def fillItems (attachments : List Bytes) : List Json → List Json
  | [] => []
  | v :: rest => fill attachments v :: fillItems attachments rest

def fillMembers (attachments : List Bytes) : List (Bytes × Json) → List (Bytes × Json)
  | [] => []
  | (k, v) :: rest => (k, fill attachments v) :: fillMembers attachments rest

end

/-- The two ways the source reads a placeholder's number agree on the
numbers the check has passed. -/
theorem getIndex_of_read {v : Json} {index : Nat} (h : readPlaceholderIndex v = some index)
    (hsmall : index < 2 ^ 64) : getIndex v = some index := by
  unfold readPlaceholderIndex at h
  split at h
  · split at h
    · rename_i members i hlookup
      split at h
      · cases h
      · rename_i hneg
        cases h
        have hmod : (i % 2 ^ 64).toNat = i.toNat := by omega
        simp only [getIndex, hlookup, hmod]
    · cases h
  · cases h

mutual

theorem reconstruct_fill {attachments : List Bytes} (hfit : attachments.length ≤ 2 ^ 64) :
    ∀ (v : Json) (indices indices' : List Nat),
    collectPlaceholderIndices attachments.length v indices = some indices' →
    reconstructBinary attachments v = .ok (fill attachments v)
  | .arr items, indices, indices', h => by
      rw [collectPlaceholderIndices] at h
      simp only [reconstructBinary, fill, reconstruct_fillItems hfit items indices indices' h]
      rfl
  | .obj members, indices, indices', h => by
      rw [collectPlaceholderIndices] at h
      cases hplace : isBinaryPlaceholder (.obj members) with
      | false =>
        simp only [hplace, Bool.false_eq_true, if_false] at h
        simp only [reconstructBinary, fill, hplace, Bool.false_eq_true, if_false,
          reconstruct_fillMembers hfit members indices indices' h]
        rfl
      | true =>
        cases hread : readPlaceholderIndex (.obj members) with
        | none => simp [hplace, hread] at h
        | some index =>
          simp only [hplace, if_true, hread] at h
          split at h
          · cases h
          · rename_i hlt
            have hin : index < attachments.length := by omega
            simp only [reconstructBinary, fill, hplace, if_true, hread,
              getIndex_of_read hread (by omega)]
            simp [hin]
  | .null, _, _, _ => rfl
  | .bool _, _, _, _ => rfl
  | .int _, _, _, _ => rfl
  | .float _, _, _, _ => rfl
  | .str _, _, _, _ => rfl
  | .binary _ _, _, _, _ => rfl

theorem reconstruct_fillItems {attachments : List Bytes} (hfit : attachments.length ≤ 2 ^ 64) :
    ∀ (items : List Json) (indices indices' : List Nat),
    collectItems attachments.length items indices = some indices' →
    reconstructItems attachments items = .ok (fillItems attachments items)
  | [], _, _, _ => rfl
  | v :: rest, indices, indices', h => by
      rw [collectItems] at h
      split at h
      · cases h
      · rename_i mid hmid
        simp only [reconstructItems, fillItems, reconstruct_fill hfit v indices mid hmid,
          reconstruct_fillItems hfit rest mid indices' h]
        rfl

theorem reconstruct_fillMembers {attachments : List Bytes} (hfit : attachments.length ≤ 2 ^ 64) :
    ∀ (members : List (Bytes × Json)) (indices indices' : List Nat),
    collectMembers attachments.length members indices = some indices' →
    reconstructMembers attachments members = .ok (fillMembers attachments members)
  | [], _, _, _ => rfl
  | (k, v) :: rest, indices, indices', h => by
      rw [collectMembers] at h
      split at h
      · cases h
      · rename_i mid hmid
        simp only [reconstructMembers, fillMembers, reconstruct_fill hfit v indices mid hmid,
          reconstruct_fillMembers hfit rest mid indices' h]
        rfl

end

theorem reconstruct_of_valid {attachments : List Bytes} {data : Json}
    (hfit : attachments.length ≤ 2 ^ 64)
    (h : hasValidPlaceholders data attachments.length = true) :
    reconstructBinary attachments data = .ok (fill attachments data) := by
  unfold hasValidPlaceholders at h
  split at h
  · cases h
  · rename_i indices hcollect
    exact reconstruct_fill hfit data [] indices hcollect

/-! ## Headers -/

/-- A header that waits for its attachments. -/
structure Announces (p : Packet) : Prop where
  binary : p.type.isBinary = true
  some_attachment : 1 ≤ p.attachments
  fits : p.attachments ≤ intMax
  valid : hasValidPlaceholders p.data p.attachments = true

theorem decodeHeader_attachments {T : JsonText} {payload : Bytes} {p : Packet}
    (h : decodeHeader T payload = some p) (hbin : p.type.isBinary = true) :
    1 ≤ p.attachments ∧ p.attachments ≤ intMax := by
  obtain ⟨f, -, hf⟩ := (decodeHeader_iff T payload p).mp h
  rcases hf.count.value with ⟨hplain, -⟩ | ⟨-, hcount⟩
  · simp [hbin] at hplain
  · exact hcount

theorem decodeHeader_plain {T : JsonText} {payload : Bytes} {p : Packet}
    (h : decodeHeader T payload = some p) (hbin : p.type.isBinary = false) :
    p.attachments = 0 := by
  obtain ⟨f, -, hf⟩ := (decodeHeader_iff T payload p).mp h
  rcases hf.count.value with ⟨-, hzero⟩ | ⟨hbinary, -⟩
  · exact hzero
  · simp [hbin] at hbinary

/-- What a text frame does to a parser with nothing pending. -/
theorem decodeText_cases (T : JsonText) (payload : Bytes) :
    (∃ p, p.attachments = 0 ∧ ∀ out, decodeText T {} payload out = ⟨true, p, {}⟩) ∨
    (∃ p, Announces p ∧ ∀ out, decodeText T {} payload out = ⟨false, out, ⟨some p, []⟩⟩) ∨
    ∀ out, decodeText T {} payload out = ⟨false, out, {}⟩ := by
  cases hheader : decodeHeader T payload with
  | none => exact .inr (.inr fun out => by simp [decodeText, hheader])
  | some p =>
    cases hbin : p.type.isBinary with
    | false =>
      exact .inl ⟨p, decodeHeader_plain hheader hbin,
        fun out => by simp [decodeText, hheader, hbin]⟩
    | true =>
      cases hvalid : hasValidPlaceholders p.data p.attachments with
      | false => exact .inr (.inr fun out => by simp [decodeText, hheader, hbin, hvalid])
      | true =>
        obtain ⟨hone, hfits⟩ := decodeHeader_attachments hheader hbin
        exact .inr (.inl ⟨p, ⟨hbin, hone, hfits, hvalid⟩,
          fun out => by simp [decodeText, hheader, hbin, hvalid]⟩)

/-- The parser waits for an attachment of a valid header, or for nothing. -/
structure Waiting (parser : JsonParser) : Prop where
  idle : parser.pendingBinaryPacket = none → parser.pendingAttachments = []
  header : ∀ p, parser.pendingBinaryPacket = some p →
    Announces p ∧ parser.pendingAttachments.length < p.attachments

theorem waiting_idle : Waiting {} := ⟨fun _ => rfl, fun _ h => by cases h⟩

/-- A text frame finds the parser as if nothing had come before. -/
theorem Waiting.decode_text (T : JsonText) {parser : JsonParser} (hw : Waiting parser)
    (payload : Bytes) (out : Packet) :
    decode T parser payload false out = .ok (decodeText T {} payload out) := by
  obtain ⟨pending, arrived⟩ := parser
  cases pending with
  | some p => simp only [decode, Bool.false_eq_true, if_false]
  | none =>
    have hnil : arrived = [] := hw.idle rfl
    subst hnil
    simp only [decode, Bool.false_eq_true, if_false]

/-- An attachment that is not the last. -/
theorem decode_attachment (T : JsonText) {p : Packet} {arrived : List Bytes} {payload : Bytes}
    (out : Packet) (hmore : (arrived ++ [payload]).length < p.attachments) :
    decode T ⟨some p, arrived⟩ payload true out
      = .ok ⟨false, out, ⟨some p, arrived ++ [payload]⟩⟩ := by
  simp only [decode, if_true, if_pos hmore]

/-- The last attachment: a header that passed the check can be filled in. -/
theorem decode_last (T : JsonText) {p : Packet} (hp : Announces p) {arrived : List Bytes}
    {payload : Bytes} (out : Packet) (hlast : (arrived ++ [payload]).length = p.attachments) :
    decode T ⟨some p, arrived⟩ payload true out
      = .ok ⟨true, { p with data := fill (arrived ++ [payload]) p.data }, {}⟩ := by
  have hfits := hp.fits
  have hfill : reconstructBinary (arrived ++ [payload]) p.data
      = .ok (fill (arrived ++ [payload]) p.data) :=
    reconstruct_of_valid (by simp only [intMax] at hfits; omega) (by rw [hlast]; exact hp.valid)
  have hmore : ¬ (arrived ++ [payload]).length < p.attachments := by omega
  simp only [decode, if_true, if_neg hmore, hfill]

/-- What one call of `decode` can do. -/
inductive Decodes (parser : JsonParser) (payload : Bytes) : Bool → Decoded → Prop where
  /-- A text frame with a whole packet. -/
  | plain {p : Packet} : p.attachments = 0 → Decodes parser payload false ⟨true, p, {}⟩
  /-- A text frame with a header. -/
  | header {p : Packet} : Announces p → Decodes parser payload false ⟨false, {}, ⟨some p, []⟩⟩
  | malformed : Decodes parser payload false ⟨false, {}, {}⟩
  | surplus : parser.pendingBinaryPacket = none → Decodes parser payload true ⟨false, {}, parser⟩
  | attachment {p : Packet} : parser.pendingBinaryPacket = some p →
      parser.pendingAttachments.length + 1 < p.attachments →
      Decodes parser payload true ⟨false, {}, ⟨some p, parser.pendingAttachments ++ [payload]⟩⟩
  | last {p : Packet} : parser.pendingBinaryPacket = some p →
      parser.pendingAttachments.length + 1 = p.attachments →
      Decodes parser payload true
        ⟨true, { p with data := fill (parser.pendingAttachments ++ [payload]) p.data }, {}⟩

theorem decode_decodes (T : JsonText) {parser : JsonParser} (hw : Waiting parser)
    (payload : Bytes) (isBinary : Bool) :
    ∃ d, decode T parser payload isBinary {} = .ok d ∧ Decodes parser payload isBinary d := by
  cases isBinary with
  | false =>
    refine ⟨_, hw.decode_text T payload {}, ?_⟩
    rcases decodeText_cases T payload with ⟨p, hzero, hp⟩ | ⟨p, hp, hpending⟩ | hnothing
    · rw [hp]
      exact .plain hzero
    · rw [hpending]
      exact .header hp
    · rw [hnothing]
      exact .malformed
  | true =>
    obtain ⟨pending, arrived⟩ := parser
    cases pending with
    | none => exact ⟨_, rfl, .surplus rfl⟩
    | some p =>
      obtain ⟨hp, hmissing⟩ : Announces p ∧ arrived.length < p.attachments := hw.header p rfl
      by_cases hmore : (arrived ++ [payload]).length < p.attachments
      · exact ⟨_, decode_attachment T {} hmore, .attachment rfl (by simpa using hmore)⟩
      · have hlen : (arrived ++ [payload]).length = p.attachments := by
          simp only [List.length_append, List.length_singleton] at hmore ⊢
          omega
        exact ⟨_, decode_last T hp {} hlen, .last rfl (by simpa using hlen)⟩

theorem Decodes.waiting {parser : JsonParser} {payload : Bytes} {isBinary : Bool} {d : Decoded}
    (hw : Waiting parser) (h : Decodes parser payload isBinary d) : Waiting d.parser := by
  cases h with
  | plain _ => exact waiting_idle
  | header hp =>
    refine ⟨by simp, fun q hq => ?_⟩
    cases hq
    exact ⟨hp, hp.some_attachment⟩
  | malformed => exact waiting_idle
  | surplus _ => exact hw
  | attachment hpending hmore =>
    refine ⟨by simp, fun q hq => ?_⟩
    cases hq
    exact ⟨(hw.header _ hpending).1, by simpa using hmore⟩
  | last _ _ => exact waiting_idle

/-! ## Streams -/

/-- Feeding frames in order: the packets for which `decode` returns `true`,
then the destination packet and the parser at the end. -/
def decodeAll (T : JsonText) (parser : JsonParser) (out : Packet) :
    List Frame → Except DecodeFault (List Packet × Packet × JsonParser)
  | [] => .ok ([], out, parser)
  | frame :: rest =>
    match decode T parser frame.payload frame.isBinary out with
    | .error e => .error e
    | .ok d =>
      match decodeAll T d.parser d.out rest with
      | .error e => .error e
      | .ok (packets, out, parser) =>
        .ok (if d.complete then d.out :: packets else packets, out, parser)

variable {T : JsonText}

theorem decodeAll_cons {parser : JsonParser} {out out' : Packet} {frame : Frame}
    {rest : List Frame} {d : Decoded} {packets : List Packet} {parser' : JsonParser}
    (hd : decode T parser frame.payload frame.isBinary out = .ok d)
    (hrest : decodeAll T d.parser d.out rest = .ok (packets, out', parser')) :
    decodeAll T parser out (frame :: rest)
      = .ok (if d.complete then d.out :: packets else packets, out', parser') := by
  simp only [decodeAll, hd, hrest]

theorem decodeAll_append {parser mid last : JsonParser} {out out' out'' : Packet}
    {frames rest : List Frame} {packets packets' : List Packet}
    (h : decodeAll T parser out frames = .ok (packets, out', mid))
    (hrest : decodeAll T mid out' rest = .ok (packets', out'', last)) :
    decodeAll T parser out (frames ++ rest) = .ok (packets ++ packets', out'', last) := by
  induction frames generalizing parser out packets with
  | nil =>
    cases h
    exact hrest
  | cons frame frames ih =>
    rw [decodeAll] at h
    split at h
    · cases h
    · rename_i d hd
      split at h
      · cases h
      · rename_i tail out₁ mid₁ htail
        simp only [Except.ok.injEq, Prod.mk.injEq] at h
        obtain ⟨rfl, rfl, rfl⟩ := h
        rw [List.cons_append, decodeAll_cons hd (ih htail)]
        split <;> rfl

theorem decodeAll_reachable {parser last : JsonParser} {out out' : Packet} {frames : List Frame}
    {packets : List Packet} (hr : Reachable T parser)
    (h : decodeAll T parser out frames = .ok (packets, out', last)) : Reachable T last := by
  induction frames generalizing parser out packets with
  | nil =>
    cases h
    exact hr
  | cons frame frames ih =>
    rw [decodeAll] at h
    split at h
    · cases h
    · rename_i d hd
      split at h
      · cases h
      · rename_i tail out₁ mid₁ htail
        simp only [Except.ok.injEq, Prod.mk.injEq] at h
        obtain ⟨-, rfl, rfl⟩ := h
        exact ih (.decode hr hd) htail

def binaryFrame (payload : Bytes) : Frame := ⟨payload, true⟩

def textFrame (payload : Bytes) : Frame := ⟨payload, false⟩

/-- Binary frames nobody waits for. -/
theorem decodeAll_surplus (run : List Bytes) (out : Packet) :
    decodeAll T {} out (run.map binaryFrame) = .ok ([], out, {}) := by
  induction run with
  | nil => rfl
  | cons a run ih => exact decodeAll_cons (d := ⟨false, out, {}⟩) rfl ih

/-- The binary frames after a header: it is complete with as many as it
announced, and the others are surplus. -/
theorem decodeAll_attachments {p : Packet} (hp : Announces p) (run arrived : List Bytes)
    (out : Packet) (hmissing : arrived.length < p.attachments) :
    ∃ out' parser, decodeAll T ⟨some p, arrived⟩ out (run.map binaryFrame)
      = .ok (if p.attachments ≤ (arrived ++ run).length then
          [{ p with data := fill ((arrived ++ run).take p.attachments) p.data }] else [],
        out', parser) := by
  induction run generalizing arrived with
  | nil =>
    refine ⟨out, ⟨some p, arrived⟩, ?_⟩
    rw [if_neg (by simpa using hmissing)]
    rfl
  | cons a run ih =>
    by_cases hmore : (arrived ++ [a]).length < p.attachments
    · obtain ⟨out', parser, hrest⟩ := ih (arrived ++ [a]) hmore
      refine ⟨out', parser, ?_⟩
      rw [List.map_cons, decodeAll_cons (decode_attachment T out hmore) hrest]
      simp
    · have hlen : (arrived ++ [a]).length = p.attachments := by
        simp only [List.length_append, List.length_singleton] at hmore ⊢
        omega
      have htake : (arrived ++ a :: run).take p.attachments = arrived ++ [a] := by
        rw [← hlen, List.append_cons arrived a run]
        exact List.take_left
      refine ⟨{ p with data := fill (arrived ++ [a]) p.data }, {}, ?_⟩
      have henough : p.attachments ≤ (arrived ++ a :: run).length := by
        simp only [List.length_append, List.length_cons, List.length_nil] at hlen ⊢
        omega
      rw [List.map_cons, decodeAll_cons (decode_last T hp out hlen) (decodeAll_surplus run _),
        htake, if_pos henough]
      rfl

/-! ## Segments -/

/-- A text frame and the binary frames up to the next text frame. -/
structure Segment where
  text : Bytes
  run : List Bytes
  deriving DecidableEq, Repr

namespace Segment

def frames (g : Segment) : List Frame := textFrame g.text :: g.run.map binaryFrame

/-- The packets of a segment: the packet its text frame alone decodes to,
or the header it alone leaves pending, filled in with the first binary
frames if they are enough. -/
def packets (T : JsonText) (g : Segment) : List Packet :=
  let alone := decodeText T {} g.text {}
  if alone.complete then [alone.out]
  else
    match alone.parser.pendingBinaryPacket with
    | none => []
    | some p =>
      if p.attachments ≤ g.run.length then
        [{ p with data := fill (g.run.take p.attachments) p.data }]
      else []

/-- Cutting what follows a text frame and some binary frames. -/
def cutFrom (text : Bytes) (run : List Bytes) : List Frame → List Segment
  | [] => [⟨text, run⟩]
  | frame :: rest =>
    if frame.isBinary then cutFrom text (run ++ [frame.payload]) rest
    else ⟨text, run⟩ :: cutFrom frame.payload [] rest

/-- Cutting at the text frames; binary frames before the first are left
out. -/
def cut : List Frame → List Segment
  | [] => []
  | frame :: rest => if frame.isBinary then cut rest else cutFrom frame.payload [] rest

theorem cutFrom_join (text : Bytes) (run : List Bytes) (rest : List Frame) :
    (cutFrom text run rest).flatMap frames = textFrame text :: run.map binaryFrame ++ rest := by
  induction rest generalizing text run with
  | nil => simp [cutFrom, frames]
  | cons frame rest ih =>
    obtain ⟨payload, isBinary⟩ := frame
    cases isBinary with
    | true => simp [cutFrom, ih, binaryFrame]
    | false => simp [cutFrom, ih, frames, textFrame]

/-- The segments of a stream that begins with a text frame are the stream. -/
theorem cut_join {frame : Frame} (hfirst : frame.isBinary = false) (rest : List Frame) :
    (cut (frame :: rest)).flatMap frames = frame :: rest := by
  obtain ⟨payload, isBinary⟩ := frame
  simp only at hfirst
  subst hfirst
  exact cutFrom_join payload [] rest

end Segment

/-- A segment, in any reachable state. -/
theorem decodeAll_segment {parser : JsonParser} (hr : Reachable T parser) (out : Packet)
    (g : Segment) :
    ∃ out' parser', decodeAll T parser out g.frames = .ok (g.packets T, out', parser') := by
  have hd := fun out => decode_text hr g.text out
  rcases decodeText_cases T g.text with ⟨p, -, hp⟩ | ⟨p, hp, hpending⟩ | hnothing
  · refine ⟨p, {}, ?_⟩
    rw [Segment.frames, decodeAll_cons (hd out) (by rw [hp]; exact decodeAll_surplus g.run p)]
    simp [Segment.packets, hp]
  · obtain ⟨out', parser', hrun⟩ :=
      decodeAll_attachments (T := T) hp g.run [] out hp.some_attachment
    refine ⟨out', parser', ?_⟩
    rw [Segment.frames, decodeAll_cons (hd out) (by rw [hpending]; exact hrun)]
    simp [Segment.packets, hpending]
  · refine ⟨out, {}, ?_⟩
    rw [Segment.frames,
      decodeAll_cons (hd out) (by rw [hnothing]; exact decodeAll_surplus g.run out)]
    simp [Segment.packets, hnothing]

theorem decodeAll_segments {parser : JsonParser} (hr : Reachable T parser) (out : Packet)
    (segments : List Segment) :
    ∃ out' parser', decodeAll T parser out (segments.flatMap Segment.frames)
      = .ok (segments.flatMap (Segment.packets T), out', parser') := by
  induction segments generalizing parser out with
  | nil => exact ⟨out, parser, rfl⟩
  | cons g segments ih =>
    obtain ⟨out₁, parser₁, hfirst⟩ := decodeAll_segment hr out g
    obtain ⟨out', parser', hrest⟩ := ih (decodeAll_reachable hr hfirst) out₁
    refine ⟨out', parser', ?_⟩
    rw [List.flatMap_cons, List.flatMap_cons]
    exact decodeAll_append hfirst hrest

/-- **Streams.** Whatever the decoder has seen before, the packets of a
stream that begins with a text frame are the packets of its segments. -/
theorem decodeAll_stream (T : JsonText) (parser : JsonParser) (hr : Reachable T parser)
    (out : Packet) (first : Frame) (hfirst : first.isBinary = false) (rest : List Frame) :
    (Segment.cut (first :: rest)).flatMap Segment.frames = first :: rest ∧
    ∃ out' parser', decodeAll T parser out (first :: rest)
      = .ok ((Segment.cut (first :: rest)).flatMap (Segment.packets T), out', parser') := by
  have hjoin := Segment.cut_join hfirst rest
  refine ⟨hjoin, ?_⟩
  have hsegments := decodeAll_segments hr out (Segment.cut (first :: rest))
  rw [hjoin] at hsegments
  exact hsegments

/-- A header without the placeholder it announces, its attachment, and an
event with a binary frame nobody waits for. -/
theorem decodeAll_stream_malformed :
    ∃ out' parser', decodeAll ReferenceText.referenceText {} {} (textFrame (ascii "51-[]") ::
        [binaryFrame [1], textFrame (ascii "2[\"b\"]"), binaryFrame [2]])
      = .ok ([{ data := .arr [.str (ascii "b")] }], out', parser') := by
  have hheader : decodeHeader ReferenceText.referenceText (ascii "51-[]")
      = some { type := .binaryEvent, data := .arr [], attachments := 1 } := rfl
  have hevent : decodeHeader ReferenceText.referenceText (ascii "2[\"b\"]")
      = some { data := .arr [.str (ascii "b")] } := rfl
  have hvalid : hasValidPlaceholders (.arr []) 1 = false := rfl
  have hpackets : (Segment.cut (textFrame (ascii "51-[]") ::
      [binaryFrame [1], textFrame (ascii "2[\"b\"]"), binaryFrame [2]])).flatMap
      (Segment.packets ReferenceText.referenceText) = [{ data := .arr [.str (ascii "b")] }] := by
    simp [textFrame, binaryFrame, Segment.cut, Segment.cutFrom, Segment.packets, decodeText,
      hheader, hevent, hvalid, PacketType.isBinary]
  have h := (decodeAll_stream ReferenceText.referenceText {} .fresh {} (textFrame (ascii "51-[]"))
    rfl [binaryFrame [1], textFrame (ascii "2[\"b\"]"), binaryFrame [2]]).2
  rw [hpackets] at h
  exact h

end Sioxx.JsonParser
