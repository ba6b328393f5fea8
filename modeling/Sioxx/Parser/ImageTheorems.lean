/-
Sioxx.Parser.ImageTheorems — what the text decoder returns, it can send
again.

The decoder accepts more than the encoder writes: the root namespace
spelled out, leading zeros, a namespace without its comma, placeholders
numbered in any order. `reencode_decoded` says that nothing of this
survives in the packet: encoding it and decoding the frames gives the
same packet.

The proof describes the image of the decoder (`Accepted`). The header
fields are read off their spelling (`NspField.rooted`, `IdField.fits`,
`decodeHeader_headed`); for the payload one induction over the tree
(`fill_settled`) says that filling in a header that passed the check
leaves as many binary values as placeholders were counted and no
placeholder. An accepted packet is `Encodable` and is its own
`received` form, and the round trip of the encoder does the rest.

`JsonText.Strict` has what is used of the JSON library beyond
`JsonText.Lawful`: a parse result can be printed again, and only a
non-negative number is printed with a digit in front.
-/
import Sioxx.Parser.StreamTheorems

namespace Sioxx

open Lib Json

/-- A bare number printed without a sign. -/
def Json.nonnegativeNumber : Json → Bool
  | .int i => decide (0 ≤ i)
  | .float bits => bits >>> 63 == 0
  | _ => false

/-- Documented behaviour of the JSON library that concerns arbitrary
input. -/
structure JsonText.Strict (T : JsonText) : Prop where
  /-- A text is refused if a string in it is not UTF-8 or a number is out
  of range, and no JSON text denotes a binary value. -/
  parse_dumpable : ∀ t v, T.parse t = some v → v.dumpable = true
  dump_digit : ∀ v b t, T.dump v = .ok (b :: t) → isDigit b = true → v.nonnegativeNumber = true

namespace JsonParser

/-! ## The fields of a header -/

theorem NspField.rooted {rest n nsp : Bytes} (h : NspField rest n nsp) :
    nsp.head? = some (byteOf '/') ∧ byteOf ',' ∉ nsp := by
  cases h with
  | absent => exact ⟨rfl, by decide⟩
  | comma hslash hcomma => exact ⟨hslash, hcomma⟩
  | toEnd hslash hcomma => exact ⟨hslash, hcomma⟩

theorem IdField.fits {rest ds : Bytes} {id : Int} (h : IdField rest ds id) :
    -1 ≤ id ∧ id ≤ intMax := by
  cases h with
  | absent => decide
  | digits _ _ _ hfit => omega

/-- What every header says, whichever way it is spelled. -/
structure Headed (p : Packet) : Prop where
  nsp : p.nsp.head? = some (byteOf '/') ∧ byteOf ',' ∉ p.nsp
  id : -1 ≤ p.id ∧ p.id ≤ intMax
  data : p.data.dumpable = true

variable {T : JsonText}

theorem decodeHeader_headed (hs : T.Strict) {payload : Bytes} {p : Packet}
    (h : decodeHeader T payload = some p) : Headed p := by
  obtain ⟨f, -, hf⟩ := (decodeHeader_iff T payload p).mp h
  refine ⟨hf.nsp.rooted, hf.id.fits, ?_⟩
  rcases hf.json.value with hnull | hparse
  · rw [hnull]
    rfl
  · exact hs.parse_dumpable _ _ hparse

/-! ## The payload after filling in -/

theorem fillMembers_keys (attachments : List Bytes) (members : List (Bytes × Json)) :
    (fillMembers attachments members).map (·.1) = members.map (·.1) := by
  induction members with
  | nil => rfl
  | cons member rest ih => simp [fillMembers, ih]

theorem lookup_fillMembers (attachments : List Bytes) (key : Bytes)
    (members : List (Bytes × Json)) :
    lookup key (fillMembers attachments members) = (lookup key members).map (fill attachments) := by
  induction members with
  | nil => rfl
  | cons member rest ih =>
    simp only [fillMembers, lookup]
    split
    · rfl
    · exact ih

theorem fill_bool {attachments : List Bytes} {v : Json} {b : Bool}
    (h : fill attachments v = .bool b) : v = .bool b := by
  cases v with
  | obj members =>
    rw [fill] at h
    split at h <;> cases h
  | bool b' => simpa [fill] using h
  | _ => simp [fill] at h

/-- Filling in makes no placeholder. -/
theorem isBinaryPlaceholder_fillMembers (attachments : List Bytes)
    {members : List (Bytes × Json)} (h : isBinaryPlaceholder (.obj members) = false) :
    isBinaryPlaceholder (.obj (fillMembers attachments members)) = false := by
  simp only [isBinaryPlaceholder, lookup_fillMembers] at h ⊢
  cases hl : lookup placeholderKey members with
  | none => rfl
  | some v =>
    rw [hl] at h
    simp only [Option.map_some]
    split
    · rename_i b hb
      simp only [Option.some.injEq] at hb
      rw [fill_bool hb] at h
      exact h
    · rfl

/-- A value with nothing left to fill in that can be encoded. -/
def nodeSettled (v : Json) : Bool :=
  (nodeTextual v && nodeNoSubtype v) && nodeNoPlaceholder v

mutual

/-- The check counts a placeholder for every binary value that filling in
will make, and no placeholder is left. -/
theorem fill_settled (attachments : List Bytes) (n : Nat) :
    ∀ (v : Json) (indices indices' : List Nat), v.everyNode nodeTextual = true →
    v.binaryCount = 0 → collectPlaceholderIndices n v indices = some indices' →
    (fill attachments v).everyNode nodeSettled = true ∧
      indices'.length = indices.length + (fill attachments v).binaryCount
  | .arr items, indices, indices', htext, hnone, h => by
      simp only [everyNode, Bool.and_eq_true] at htext
      rw [binaryCount] at hnone
      rw [collectPlaceholderIndices] at h
      obtain ⟨hrest, hlen⟩ :=
        fill_settledItems attachments n items indices indices' htext.2 hnone h
      simp only [fill, everyNode, binaryCount, Bool.and_eq_true]
      exact ⟨⟨rfl, hrest⟩, hlen⟩
  | .obj members, indices, indices', htext, hnone, h => by
      simp only [everyNode, Bool.and_eq_true] at htext
      rw [binaryCount] at hnone
      rw [collectPlaceholderIndices] at h
      cases hplace : isBinaryPlaceholder (.obj members) with
      | false =>
        simp only [hplace, Bool.false_eq_true, if_false] at h
        obtain ⟨hrest, hlen⟩ :=
          fill_settledMembers attachments n members indices indices' htext.2 hnone h
        have hnode : nodeTextual (.obj (fillMembers attachments members)) = true := by
          rw [nodeTextual_keys (fillMembers_keys attachments members)]
          exact htext.1
        have hno := isBinaryPlaceholder_fillMembers attachments hplace
        simp only [fill, hplace, everyNode, binaryCount, Bool.and_eq_true]
        exact ⟨⟨by simp [nodeSettled, hnode, nodeNoSubtype, nodeNoPlaceholder, hno], hrest⟩, hlen⟩
      | true =>
        cases hread : readPlaceholderIndex (.obj members) with
        | none => simp [hplace, hread] at h
        | some index =>
          simp only [hplace, if_true, hread] at h
          split at h
          · cases h
          · split at h
            · cases h
            · cases h
              simp only [fill, hplace, hread, everyNode, binaryCount]
              exact ⟨rfl, by simp⟩
  | .binary _ _, _, _, _, hnone, _ => by simp [binaryCount] at hnone
  | .null, _, _, htext, _, h | .bool _, _, _, htext, _, h | .int _, _, _, htext, _, h
  | .float _, _, _, htext, _, h | .str _, _, _, htext, _, h => by
      cases h
      simp only [everyNode] at htext
      simp [fill, everyNode, nodeSettled, htext, nodeNoSubtype, nodeNoPlaceholder,
        isBinaryPlaceholder, binaryCount]

theorem fill_settledItems (attachments : List Bytes) (n : Nat) :
    ∀ (items : List Json) (indices indices' : List Nat), everyItem nodeTextual items = true →
    itemsBinaryCount items = 0 → collectItems n items indices = some indices' →
    everyItem nodeSettled (fillItems attachments items) = true ∧
      indices'.length = indices.length + itemsBinaryCount (fillItems attachments items)
  | [], _, _, _, _, h => by
      cases h
      exact ⟨rfl, rfl⟩
  | v :: rest, indices, indices', htext, hnone, h => by
      simp only [everyItem, Bool.and_eq_true] at htext
      simp only [itemsBinaryCount, Nat.add_eq_zero_iff] at hnone
      rw [collectItems] at h
      split at h
      · cases h
      · rename_i mid hmid
        obtain ⟨hv, hlen⟩ := fill_settled attachments n v indices mid htext.1 hnone.1 hmid
        obtain ⟨hrest, hlen'⟩ :=
          fill_settledItems attachments n rest mid indices' htext.2 hnone.2 h
        simp only [fillItems, everyItem, itemsBinaryCount, hv, hrest]
        exact ⟨rfl, by omega⟩

theorem fill_settledMembers (attachments : List Bytes) (n : Nat) :
    ∀ (members : List (Bytes × Json)) (indices indices' : List Nat),
    everyMember nodeTextual members = true → membersBinaryCount members = 0 →
    collectMembers n members indices = some indices' →
    everyMember nodeSettled (fillMembers attachments members) = true ∧
      indices'.length = indices.length + membersBinaryCount (fillMembers attachments members)
  | [], _, _, _, _, h => by
      cases h
      exact ⟨rfl, rfl⟩
  | (k, v) :: rest, indices, indices', htext, hnone, h => by
      simp only [everyMember, Bool.and_eq_true] at htext
      simp only [membersBinaryCount, Nat.add_eq_zero_iff] at hnone
      rw [collectMembers] at h
      split at h
      · cases h
      · rename_i mid hmid
        obtain ⟨hv, hlen⟩ := fill_settled attachments n v indices mid htext.1 hnone.1 hmid
        obtain ⟨hrest, hlen'⟩ :=
          fill_settledMembers attachments n rest mid indices' htext.2 hnone.2 h
        simp only [fillMembers, everyMember, membersBinaryCount, hv, hrest]
        exact ⟨rfl, by omega⟩

end

/-! ## The image of the decoder -/

/-- A packet the decoder can return. -/
structure Accepted (p : Packet) : Prop where
  nsp : p.nsp.head? = some (byteOf '/') ∧ byteOf ',' ∉ p.nsp
  id : -1 ≤ p.id ∧ p.id ≤ intMax
  textual : p.data.everyNode nodeTextual = true
  noSubtype : p.data.everyNode nodeNoSubtype = true
  placeholders : p.data.binaryCount = 0 ∨ p.data.everyNode nodeNoPlaceholder = true
  count : p.data.binaryCount = p.attachments
  type : p.type.isBinary = true ↔ 1 ≤ p.attachments
  fits : p.attachments ≤ intMax

theorem noSubtype_of_noBinary (v : Json) (h : v.everyNode nodeNoBinary = true) :
    v.everyNode nodeNoSubtype = true := by
  have hnodes : ∀ n, nodeNoBinary n = (nodeNoBinary n && nodeNoSubtype n) := by
    intro n
    cases n <;> rfl
  rw [show nodeNoBinary = fun n => nodeNoBinary n && nodeNoSubtype n from funext hnodes,
    everyNode_and, Bool.and_eq_true] at h
  exact h.2

theorem Headed.accepted_plain {p : Packet} (h : Headed p) (hplain : p.type.isBinary = false)
    (hzero : p.attachments = 0) : Accepted p := by
  have hdata := h.data
  simp only [dumpable, Bool.and_eq_true] at hdata
  have hnone := (noBinary_iff_count p.data).mp hdata.2
  refine ⟨h.nsp, h.id, hdata.1, noSubtype_of_noBinary p.data hdata.2, .inl hnone, ?_, ?_, ?_⟩
  · rw [hnone, hzero]
  · simp [hplain, hzero]
  · simp [hzero]

theorem Headed.accepted_filled {p : Packet} (h : Headed p) (ha : Announces p)
    (attachments : List Bytes) : Accepted { p with data := fill attachments p.data } := by
  have hdata := h.data
  simp only [dumpable, Bool.and_eq_true] at hdata
  have hvalid := ha.valid
  unfold hasValidPlaceholders at hvalid
  split at hvalid
  · cases hvalid
  · rename_i indices hcollect
    obtain ⟨hsettled, hlen⟩ := fill_settled attachments p.attachments p.data [] indices hdata.1
      ((noBinary_iff_count p.data).mp hdata.2) hcollect
    have hcount : indices.length = p.attachments := by simpa using hvalid
    rw [show nodeSettled = fun n => (fun m => nodeTextual m && nodeNoSubtype m) n &&
      nodeNoPlaceholder n from rfl, everyNode_and, everyNode_and] at hsettled
    simp only [Bool.and_eq_true] at hsettled
    refine ⟨h.nsp, h.id, hsettled.1.1, hsettled.1.2, .inr hsettled.2, ?_, ?_, ha.fits⟩
    · simp only [List.length_nil, Nat.zero_add] at hlen
      exact hlen.symm.trans hcount
    · exact ⟨fun _ => ha.some_attachment, fun _ => ha.binary⟩

/-- The pending header of a parser, if there is one. -/
structure Expecting (parser : JsonParser) : Prop where
  waiting : Waiting parser
  headed : ∀ p, parser.pendingBinaryPacket = some p → Headed p

theorem expecting_idle : Expecting {} := ⟨waiting_idle, fun _ h => by cases h⟩

/-- A text frame: a whole packet, a header, or nothing. -/
theorem decodeText_accepted (hs : T.Strict) (payload : Bytes) (out : Packet) :
    Expecting (decodeText T {} payload out).parser ∧
      ((decodeText T {} payload out).complete = true →
        Accepted (decodeText T {} payload out).out) := by
  cases hheader : decodeHeader T payload with
  | none =>
    simp only [decodeText, hheader]
    exact ⟨expecting_idle, by simp⟩
  | some p =>
    have hp := decodeHeader_headed hs hheader
    cases hbin : p.type.isBinary with
    | false =>
      simp only [decodeText, hheader, hbin, Bool.false_eq_true, if_false]
      exact ⟨expecting_idle, fun _ => hp.accepted_plain hbin (decodeHeader_plain hheader hbin)⟩
    | true =>
      cases hvalid : hasValidPlaceholders p.data p.attachments with
      | false =>
        simp only [decodeText, hheader, hbin, hvalid, Bool.false_eq_true, if_true, if_false]
        exact ⟨expecting_idle, by simp⟩
      | true =>
        obtain ⟨hone, hfits⟩ := decodeHeader_attachments hheader hbin
        simp only [decodeText, hheader, hbin, hvalid, if_true]
        refine ⟨⟨⟨by simp, fun q hq => ?_⟩, fun q hq => ?_⟩, by simp⟩
        · cases hq
          exact ⟨⟨hbin, hone, hfits, hvalid⟩, hone⟩
        · cases hq
          exact hp

/-- One call of `decode`. -/
theorem decode_accepted (hs : T.Strict) {parser : JsonParser} (hparser : Expecting parser)
    {payload : Bytes} {isBinary : Bool} {out : Packet} {d : Decoded}
    (hd : decode T parser payload isBinary out = .ok d) :
    Expecting d.parser ∧ (d.complete = true → Accepted d.out) := by
  cases isBinary with
  | false =>
    rw [hparser.waiting.decode_text T] at hd
    cases hd
    exact decodeText_accepted hs payload out
  | true =>
    obtain ⟨pending, arrived⟩ := parser
    cases pending with
    | none =>
      cases hd
      exact ⟨hparser, by simp⟩
    | some p =>
      obtain ⟨ha, hmissing⟩ : Announces p ∧ arrived.length < p.attachments :=
        hparser.waiting.header p rfl
      have hp : Headed p := hparser.headed p rfl
      by_cases hmore : (arrived ++ [payload]).length < p.attachments
      · rw [decode_attachment T out hmore] at hd
        cases hd
        refine ⟨⟨⟨by simp, fun q hq => ?_⟩, fun q hq => ?_⟩, by simp⟩
        · cases hq
          exact ⟨ha, hmore⟩
        · cases hq
          exact hp
      · have hlen : (arrived ++ [payload]).length = p.attachments := by
          simp only [List.length_append, List.length_singleton] at hmore ⊢
          omega
        rw [decode_last T ha out hlen] at hd
        cases hd
        exact ⟨expecting_idle, fun _ => hp.accepted_filled ha _⟩

/-- Frames of which the last completes a packet. -/
theorem feed_accepted (hs : T.Strict) {frames : List Frame} {parser parser' : JsonParser}
    {out p : Packet} {results : List Bool} (hparser : Expecting parser)
    (h : feed T parser out frames = .ok (results ++ [true], p, parser')) : Accepted p := by
  induction frames generalizing parser out results with
  | nil => simp [feed] at h
  | cons frame frames ih =>
    rw [feed] at h
    split at h
    · cases h
    · rename_i d hd
      obtain ⟨hnext, hcomplete⟩ := decode_accepted hs hparser hd
      split at h
      · cases h
      · rename_i rest out' last hrest
        simp only [Except.ok.injEq, Prod.mk.injEq] at h
        obtain ⟨hresults, rfl, rfl⟩ := h
        cases results with
        | cons r results =>
          simp only [List.cons_append, List.cons.injEq] at hresults
          obtain ⟨-, rfl⟩ := hresults
          exact ih hnext hrest
        | nil =>
          -- the last frame is the only one
          simp only [List.nil_append, List.cons.injEq] at hresults
          obtain ⟨hlast, rfl⟩ := hresults
          cases frames with
          | nil =>
            cases hrest
            exact hcomplete hlast
          | cons next frames =>
            rw [feed] at hrest
            split at hrest
            · cases hrest
            · split at hrest
              · cases hrest
              · cases hrest

/-! ## Encoding an accepted packet -/

theorem Accepted.encodable (hs : T.Strict) {p : Packet} (hp : Accepted p)
    (hnumber : p.data.nonnegativeNumber = false) : Encodable T p where
  binary := by
    by_cases hzero : p.data.binaryCount = 0
    · exact .inr hzero
    · have hbin : p.type.isBinary = true := hp.type.mpr (by have := hp.count; omega)
      left
      cases htype : p.type <;> simp [htype, PacketType.isBinary, PacketType.carriesBinary] at hbin ⊢
  nsp := .inr hp.nsp
  id := hp.id
  text := by
    right
    intro t ht b hb
    cases t with
    | nil => simp at hb
    | cons c t =>
      rw [List.head?_cons, Option.mem_some_iff] at hb
      subst hb
      rw [Bool.eq_false_iff]
      intro hdigit
      rw [hs.dump_digit _ _ _ ht hdigit] at hnumber
      cases hnumber
  textual := hp.textual
  noSubtype := hp.noSubtype
  placeholders := hp.placeholders

/-- An accepted packet is already in the form it is received in. -/
theorem Accepted.received_eq {p : Packet} (hp : Accepted p) : received p = p := by
  have hnsp : rootedNsp p.nsp = p.nsp := by
    have hne : p.nsp ≠ [] := by
      intro hnil
      have := hp.nsp.1
      simp [hnil] at this
    rw [rootedNsp, if_neg hne]
  have htype : binaryVariant p.type (decide (p.data.binaryCount > 0)) = p.type := by
    have h := hp.type
    rw [← hp.count] at h
    by_cases hzero : p.data.binaryCount = 0
    · rw [hzero] at h ⊢
      cases ht : p.type <;> simp [ht, PacketType.isBinary, binaryVariant] at h ⊢
    · have hbin := h.mpr (by omega)
      have hpos : decide (p.data.binaryCount > 0) = true := by
        simp only [decide_eq_true_eq]
        omega
      rw [hpos]
      cases ht : p.type <;> simp [ht, PacketType.isBinary, binaryVariant] at hbin ⊢
  rw [received, htype, hnsp, hp.count]

/-- **Encoding again.** Whatever frames led the decoder to return `true`
with a packet that is no bare number, the packet has a rooted namespace
without a comma and an id in the range of an `int`, and its own frames
decode to the same packet. -/
theorem reencode_decoded (T : JsonText) (hT : T.Lawful) (hs : T.Strict) (frames : List Frame)
    (out p : Packet) (results : List Bool) (parser : JsonParser)
    (h : feed T {} out frames = .ok (results ++ [true], p, parser))
    (hnumber : p.data.nonnegativeNumber = false) :
    (p.nsp.head? = some (byteOf '/') ∧ byteOf ',' ∉ p.nsp) ∧ (-1 ≤ p.id ∧ p.id ≤ intMax) ∧
    ∃ frames', encode T p = .ok frames' ∧ ∀ out',
      feed T {} out' frames' = .ok (List.replicate p.attachments false ++ [true], p, {}) := by
  have hp : Accepted p := feed_accepted hs expecting_idle h
  have hcount : p.data.binaryCount ≤ intMax := by
    rw [hp.count]
    exact hp.fits
  have hencode := fun out' =>
    feed_encode hT (hp.encodable hs hnumber) hcount Reachable.fresh out'
  rw [hp.received_eq, hp.count] at hencode
  obtain ⟨frames', hframes, -, -⟩ := hencode out
  refine ⟨hp.nsp, hp.id, frames', hframes, fun out' => ?_⟩
  obtain ⟨frames'', hframes', -, hfeed⟩ := hencode out'
  rw [hframes] at hframes'
  cases hframes'
  exact hfeed

/-! ## A library that meets the laws -/

/-- The reference printer and reader, with a sign in front of a negative
double and with everything refused that could not be printed again. -/
def strictText : JsonText where
  dump
    | .float bits => .ok ((if bits >>> 63 == 0 then [] else [byteOf '-'])
        ++ ReferenceText.print (.float bits))
    | v => ReferenceText.referenceText.dump v
  parse text := (ReferenceText.referenceText.parse text).filter Json.dumpable

theorem isDigit_print {v : Json} {b : UInt8} {t : Bytes} (h : ReferenceText.print v = b :: t)
    (hdigit : isDigit b = true) : (∃ i, v = .int i ∧ 0 ≤ i) ∨ ∃ bits, v = .float bits := by
  have hother : ∀ c : UInt8, isDigit c = false → b ≠ c := by
    rintro c hc rfl
    rw [hdigit] at hc
    cases hc
  cases v with
  | int i =>
    simp only [ReferenceText.print, ReferenceText.printInt] at h
    split at h
    · simp only [List.cons.injEq] at h
      exact absurd h.1.symm (hother _ (by decide))
    · exact .inl ⟨i, rfl, by omega⟩
  | float bits => exact .inr ⟨bits, rfl⟩
  | null => exact absurd (List.cons.inj h).1.symm (hother _ (by decide))
  | bool b' => cases b' <;> exact absurd (List.cons.inj h).1.symm (hother _ (by decide))
  | str s => exact absurd (List.cons.inj h).1.symm (hother _ (by decide))
  | arr items => exact absurd (List.cons.inj h).1.symm (hother _ (by decide))
  | obj members => exact absurd (List.cons.inj h).1.symm (hother _ (by decide))
  | binary bytes subtype =>
    exact absurd (List.cons.inj h).1.symm (hother (byteOf '{') (by decide))

theorem strictText_dump {v : Json} (hv : ∀ bits, v ≠ .float bits) :
    strictText.dump v = ReferenceText.referenceText.dump v := by
  cases v with
  | float bits => exact absurd rfl (hv bits)
  | _ => rfl

theorem strictText_strict : strictText.Strict where
  parse_dumpable t v h := (Option.filter_eq_some_iff.mp h).2
  dump_digit v b t h hdigit := by
    by_cases hfloat : ∃ bits, v = .float bits
    · obtain ⟨bits, rfl⟩ := hfloat
      simp only [strictText, Except.ok.injEq] at h
      split at h
      · assumption
      · simp only [List.singleton_append, List.cons.injEq] at h
        rw [← h.1] at hdigit
        exact absurd hdigit (by decide)
    · rw [strictText_dump (fun bits hv => hfloat ⟨bits, hv⟩)] at h
      simp only [ReferenceText.referenceText] at h
      split at h
      · simp only [Except.ok.injEq] at h
        rcases isDigit_print h hdigit with ⟨i, rfl, hi⟩ | hf
        · simpa [nonnegativeNumber] using hi
        · exact absurd hf hfloat
      · cases h

/-- A negative double is read back with its sign. -/
theorem parse_signed (bits : UInt64) :
    ReferenceText.referenceText.parse (byteOf '-' :: ReferenceText.print (.float bits))
      = some (.float bits) := by
  have hread := ReferenceText.readNumber_float true bits []
  simp only [List.append_nil] at hread
  have hvalue : ∀ fuel, ReferenceText.readValue (fuel + 1)
      (byteOf '-' :: ReferenceText.print (.float bits)) = some (.float bits, []) := by
    intro fuel
    have hsign : byteOf '-' ≠ byteOf 'n' ∧ byteOf '-' ≠ byteOf 't' ∧ byteOf '-' ≠ byteOf 'f' ∧
        byteOf '-' ≠ byteOf '"' ∧ byteOf '-' ≠ byteOf '[' ∧ byteOf '-' ≠ byteOf '{' := by decide
    obtain ⟨hn, ht, hf, hs, ha, ho⟩ := hsign
    rw [ReferenceText.readValue, if_neg hn, if_neg ht, if_neg hf, if_neg hs, if_neg ha, if_neg ho,
      if_pos rfl]
    exact hread
  simp only [ReferenceText.referenceText, List.length_cons, hvalue]

theorem strictText_lawful : strictText.Lawful where
  dump_total v hv := by
    cases v with
    | float bits => exact ⟨_, rfl⟩
    | _ => exact ReferenceText.referenceText_lawful.dump_total _ hv
  parse_dump v t hv ht := by
    refine Option.filter_eq_some_iff.mpr ⟨?_, hv⟩
    by_cases hfloat : ∃ bits, v = .float bits
    · obtain ⟨bits, rfl⟩ := hfloat
      have hplain : ReferenceText.referenceText.parse (ReferenceText.print (.float bits))
          = some (.float bits) := ReferenceText.referenceText_lawful.parse_dump _ _ hv rfl
      simp only [strictText, Except.ok.injEq] at ht
      subst ht
      split
      · exact hplain
      · exact parse_signed bits
    · rw [strictText_dump (fun bits hv => hfloat ⟨bits, hv⟩)] at ht
      exact ReferenceText.referenceText_lawful.parse_dump v t hv ht
  dump_head v t ht := by
    by_cases hfloat : ∃ bits, v = .float bits
    · obtain ⟨bits, rfl⟩ := hfloat
      simp only [strictText, Except.ok.injEq] at ht
      subst ht
      split
      · exact ReferenceText.referenceText_lawful.dump_head (.float bits) _ rfl
      · exact ⟨_, _, rfl, by decide⟩
    · rw [strictText_dump (fun bits hv => hfloat ⟨bits, hv⟩)] at ht
      exact ReferenceText.referenceText_lawful.dump_head v t ht
  dump_arr := ReferenceText.referenceText_lawful.dump_arr
  dump_obj := ReferenceText.referenceText_lawful.dump_obj

def respelledData : Json := .arr [placeholder 1, placeholder 0]

/-- The root namespace spelled out, an id with leading zeros, and two
placeholders in descending order. -/
def respelled : Bytes := ascii "52-/,007" ++ ReferenceText.print respelledData

def respelledPacket : Packet where
  type := .binaryEvent
  id := 7
  data := .arr [.binary [2] none, .binary [1] none]
  attachments := 2

theorem decodeHeader_respelled : decodeHeader strictText respelled
    = some { type := .binaryEvent, id := 7, data := respelledData, attachments := 2 } := by
  have hattachments : decodeAttachments respelled .binaryEvent 1 = some (2, 3) := by rfl
  have hnsp : decodeNsp respelled 3 = (ascii "/", 5) := by rfl
  have hid : decodeId respelled 5 = some (7, 8) := by rfl
  have hdata : decodeData strictText respelled 8 = some respelledData := by
    have hdrop : respelled.drop 8 = ReferenceText.print respelledData := by rfl
    have hlong : 8 < respelled.length := by decide
    rw [decodeData, if_pos hlong, hdrop]
    exact strictText_lawful.parse_dump respelledData _ (by decide) rfl
  have hfirst : respelled[0]? = some (byteOf '5') := rfl
  have htype : PacketType.ofDigit (digitValue (byteOf '5')) = some .binaryEvent := rfl
  have hdigit : isDigit (byteOf '5') = true := rfl
  simp only [decodeHeader, hfirst, Option.bind_eq_bind, Option.bind_some, hdigit, htype,
    Bool.not_true, Bool.false_eq_true, if_false, hattachments, hnsp, hid, hdata, pure]

theorem feed_respelled :
    feed strictText {} {} [⟨respelled, false⟩, ⟨[1], true⟩, ⟨[2], true⟩]
      = .ok ([false, false] ++ [true], respelledPacket, {}) := by
  have hvalid : hasValidPlaceholders respelledData 2 = true := rfl
  simp only [feed, decode, decodeText, decodeHeader_respelled, PacketType.isBinary, hvalid]
  rfl

theorem reencode_decoded_respelled :
    ∃ frames', encode strictText respelledPacket = .ok frames' ∧ ∀ out',
      feed strictText {} out' frames'
        = .ok (List.replicate 2 false ++ [true], respelledPacket, {}) :=
  (reencode_decoded strictText strictText_lawful strictText_strict
    [⟨respelled, false⟩, ⟨[1], true⟩, ⟨[2], true⟩] {} respelledPacket [false, false] {}
    feed_respelled rfl).2.2

end JsonParser

end Sioxx
