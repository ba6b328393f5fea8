/-
Sioxx.Parser.DecoderTheorems — the state of the text decoder between calls.

A binary packet is decoded in several calls: the header is checked when it
arrives, and its placeholders are followed when the last attachment does,
by another recursion that checks nothing. `decoder_invariant` is what the
first leaves for the second: the outermost placeholders of a pending
header are numbered `0 .. n-1`, each number once, and fewer than `n`
attachments are there.

The check is that the list of these numbers is a permutation
(`hasValidPlaceholders_claimed`). What `reconstruct_binary` reads is the
same list, although it reads the numbers in another way
(`consumed_of_valid`).
-/
import Sioxx.Parser.CollisionTheorems
import Sioxx.Parser.ImageTheorems

namespace Sioxx.JsonParser

open Lib Json

/-! ## What the reconstruction reads -/

mutual

/-- The numbers `reconstruct_binary` takes from the outermost placeholders,
in its order; `none` where `get<size_t>()` would throw. -/
def consumed : Json → List (Option Nat)
  | .arr items => consumedItems items
  | .obj members =>
    if isBinaryPlaceholder (.obj members) then [getIndex (.obj members)]
    else consumedMembers members
  | _ => []

def consumedItems : List Json → List (Option Nat)
  | [] => []
  | v :: rest => consumed v ++ consumedItems rest

def consumedMembers : List (Bytes × Json) → List (Option Nat)
  | [] => []
  | (_, v) :: rest => consumed v ++ consumedMembers rest

end

mutual

/-- It reads the numbers that were checked, if they are small enough for
`size_t`. -/
theorem consumed_eq_claimed : ∀ v : Json, (∀ o ∈ claimed v, ∃ i, o = some i ∧ i < 2 ^ 64) →
    consumed v = claimed v
  | .arr items, h => consumed_eq_claimedItems items h
  | .obj members, h => by
      rw [claimed] at h
      rw [consumed, claimed]
      split
      · rename_i hplace
        rw [if_pos hplace] at h
        obtain ⟨index, hread, hsmall⟩ := h _ (List.mem_singleton.mpr rfl)
        rw [hread, getIndex_of_read hread hsmall]
      · rename_i hplain
        rw [if_neg hplain] at h
        exact consumed_eq_claimedMembers members h
  | .null, _ | .bool _, _ | .int _, _ | .float _, _ | .str _, _ | .binary _ _, _ => rfl

theorem consumed_eq_claimedItems : ∀ items : List Json,
    (∀ o ∈ claimedItems items, ∃ i, o = some i ∧ i < 2 ^ 64) →
    consumedItems items = claimedItems items
  | [], _ => rfl
  | v :: rest, h => by
      rw [claimedItems] at h
      rw [consumedItems, claimedItems,
        consumed_eq_claimed v fun o ho => h o (List.mem_append_left _ ho),
        consumed_eq_claimedItems rest fun o ho => h o (List.mem_append_right _ ho)]

theorem consumed_eq_claimedMembers : ∀ members : List (Bytes × Json),
    (∀ o ∈ claimedMembers members, ∃ i, o = some i ∧ i < 2 ^ 64) →
    consumedMembers members = claimedMembers members
  | [], _ => rfl
  | (_, v) :: rest, h => by
      rw [claimedMembers] at h
      rw [consumedMembers, claimedMembers,
        consumed_eq_claimed v fun o ho => h o (List.mem_append_left _ ho),
        consumed_eq_claimedMembers rest fun o ho => h o (List.mem_append_right _ ho)]

end

theorem consumed_of_valid {v : Json} {n : Nat} (hfit : n ≤ intMax) (h : Numbers n (claimed v)) :
    Numbers n (consumed v) := by
  have hsmall : ∀ o ∈ claimed v, ∃ i, o = some i ∧ i < 2 ^ 64 := by
    intro o ho
    obtain ⟨i, hi, rfl⟩ := List.mem_map.mp (h.mem_iff.mp ho)
    have hlt := List.mem_range.mp hi
    refine ⟨i, rfl, ?_⟩
    simp only [intMax] at hfit
    omega
  rw [consumed_eq_claimed v hsmall]
  exact h

/-! ## Every call -/

variable {T : JsonText} {parser : JsonParser}

/-- A call that returns `false` has not written to its destination, and no
call throws. -/
theorem Waiting.decode_ok (hw : Waiting parser) (payload : Bytes) (isBinary : Bool)
    (out : Packet) : ∃ d, decode T parser payload isBinary out = .ok d ∧ Waiting d.parser ∧
      (d.complete = false → d.out = out) := by
  cases isBinary with
  | false =>
    refine ⟨_, hw.decode_text T payload out, ?_⟩
    rcases decodeText_cases T payload with ⟨p, -, hp⟩ | ⟨p, hp, hpending⟩ | hnothing
    · rw [hp]
      exact ⟨waiting_idle, by simp⟩
    · rw [hpending]
      refine ⟨⟨by simp, fun q hq => ?_⟩, fun _ => rfl⟩
      cases hq
      exact ⟨hp, hp.some_attachment⟩
    · rw [hnothing]
      exact ⟨waiting_idle, fun _ => rfl⟩
  | true =>
    obtain ⟨pending, arrived⟩ := parser
    cases pending with
    | none => exact ⟨_, rfl, hw, fun _ => rfl⟩
    | some p =>
      obtain ⟨hp, hmissing⟩ : Announces p ∧ arrived.length < p.attachments := hw.header p rfl
      by_cases hmore : (arrived ++ [payload]).length < p.attachments
      · refine ⟨_, decode_attachment T out hmore, ⟨by simp, fun q hq => ?_⟩, fun _ => rfl⟩
        cases hq
        exact ⟨hp, hmore⟩
      · have hlen : (arrived ++ [payload]).length = p.attachments := by
          simp only [List.length_append, List.length_singleton] at hmore ⊢
          omega
        exact ⟨_, decode_last T hp out hlen, waiting_idle, by simp⟩

theorem Reachable.waiting (h : Reachable T parser) : Waiting parser := by
  induction h with
  | fresh => exact waiting_idle
  | @decode parser payload isBinary out d _ hd ih =>
    obtain ⟨d', hd', hnext, -⟩ := ih.decode_ok (T := T) payload isBinary out
    rw [hd] at hd'
    cases hd'
    exact hnext

/-! ## Every reachable state -/

/-- A header that waits, with the attachments that have arrived. -/
structure PendingHeader (p : Packet) (arrived : List Bytes) : Prop where
  type : p.type = .binaryEvent ∨ p.type = .binaryAck
  some_attachment : 1 ≤ p.attachments
  missing : arrived.length < p.attachments
  numbers : Numbers p.attachments (claimed p.data)

/-- Nothing is pending, or a header with all its placeholders and not all
its attachments. -/
def Consistent (parser : JsonParser) : Prop :=
  (parser.pendingBinaryPacket = none ∧ parser.pendingAttachments = []) ∨
    ∃ p, parser.pendingBinaryPacket = some p ∧ PendingHeader p parser.pendingAttachments

theorem Waiting.consistent (hw : Waiting parser) : Consistent parser := by
  cases hpending : parser.pendingBinaryPacket with
  | none => exact .inl ⟨hpending, hw.idle hpending⟩
  | some p =>
    obtain ⟨hp, hmissing⟩ := hw.header p hpending
    refine .inr ⟨p, hpending, ?_, hp.some_attachment, hmissing,
      (hasValidPlaceholders_claimed _ _).mp hp.valid⟩
    have hbin := hp.binary
    cases htype : p.type <;> simp [htype, PacketType.isBinary] at hbin ⊢

/-- **The decoder between calls.** In every state that any calls lead to,
the state is consistent, no call throws, and once the attachments of the
pending header are complete `reconstruct_binary` succeeds and reads each of
them once. -/
theorem decoder_invariant (T : JsonText) (parser : JsonParser) (h : Reachable T parser) :
    Consistent parser ∧
    (∀ payload isBinary out, ∃ d, decode T parser payload isBinary out = .ok d) ∧
    ∀ p attachments, parser.pendingBinaryPacket = some p → attachments.length = p.attachments →
      (∃ data, reconstructBinary attachments p.data = .ok data) ∧
        Numbers attachments.length (consumed p.data) := by
  have hw := h.waiting
  refine ⟨hw.consistent, fun payload isBinary out => ?_, fun p attachments hpending hlen => ?_⟩
  · obtain ⟨d, hd, -⟩ := hw.decode_ok payload isBinary out
    exact ⟨d, hd⟩
  · obtain ⟨hp, -⟩ := hw.header p hpending
    have hfits := hp.fits
    have hvalid := hp.valid
    rw [← hlen] at hfits hvalid
    have hsize : attachments.length ≤ 2 ^ 64 := by
      simp only [intMax] at hfits
      omega
    exact ⟨⟨_, reconstruct_of_valid hsize hvalid⟩,
      consumed_of_valid hfits ((hasValidPlaceholders_claimed _ _).mp hvalid)⟩

/-- The header of `respelled` has arrived, and one of its attachments. -/
def respelledPending : JsonParser where
  pendingBinaryPacket :=
    some { type := .binaryEvent, id := 7, data := respelledData, attachments := 2 }
  pendingAttachments := [[1]]

theorem reachable_respelledPending : Reachable strictText respelledPending := by
  have hvalid : hasValidPlaceholders respelledData 2 = true := rfl
  have hheader : decode strictText {} respelled false {} = .ok ⟨false, {},
      { respelledPending with pendingAttachments := [] }⟩ := by
    simp only [decode, decodeText, decodeHeader_respelled, PacketType.isBinary, hvalid]
    rfl
  have hattachment : decode strictText { respelledPending with pendingAttachments := [] } [1] true
      {} = .ok ⟨false, {}, respelledPending⟩ := rfl
  exact (Reachable.fresh.decode hheader).decode hattachment

theorem decoder_invariant_respelledPending : Consistent respelledPending ∧
    Numbers 2 (consumed respelledData) := by
  obtain ⟨hstate, -, hreads⟩ :=
    decoder_invariant strictText respelledPending reachable_respelledPending
  exact ⟨hstate, (hreads _ [[1], [2]] rfl rfl).2⟩

/-! ## What a fresh parser accepts -/

/-- The frame makes a whole packet, or a header that waits. -/
def Accepts (T : JsonText) (payload : Bytes) : Prop :=
  ∀ out, ∃ d, decode T {} payload false out = .ok d ∧
    (d.complete = true ∨ d.parser.pendingBinaryPacket ≠ none)

/-- The fields of a frame in the grammar, and the packet they stand for. -/
structure Grammatical (T : JsonText) (f : Fields) (p : Packet) : Prop extends Spells T f p where
  placeholders : p.type.isBinary = true → Numbers p.attachments (claimed p.data)

theorem Grammatical.decode {f : Fields} {p : Packet} (h : Grammatical T f p) (out : Packet) :
    decode T {} f.text false out
      = .ok (if p.type.isBinary then ⟨false, out, ⟨some p, []⟩⟩ else ⟨true, p, {}⟩) := by
  have hheader := (decodeHeader_iff T f.text p).mpr ⟨f, rfl, h.toSpells⟩
  simp only [JsonParser.decode, Bool.false_eq_true, if_false, decodeText, hheader]
  split
  · rename_i hbin
    rw [if_pos ((hasValidPlaceholders_claimed _ _).mpr (h.placeholders hbin))]
  · rfl

theorem grammatical_of_accepts {payload : Bytes} (h : Accepts T payload) :
    ∃ f p, f.text = payload ∧ Grammatical T f p := by
  obtain ⟨d, hd, haccepted⟩ := h {}
  simp only [JsonParser.decode, Bool.false_eq_true, if_false, Except.ok.injEq] at hd
  subst hd
  unfold decodeText at haccepted
  split at haccepted
  · simp at haccepted
  · rename_i p hheader
    obtain ⟨f, htext, hf⟩ := (decodeHeader_iff T payload p).mp hheader
    refine ⟨f, p, htext, hf, fun hbin => ?_⟩
    rw [if_pos hbin] at haccepted
    split at haccepted
    · rename_i hvalid
      exact (hasValidPlaceholders_claimed _ _).mp hvalid
    · simp at haccepted

/-- **The decoder accepts its grammar.** A fresh parser accepts a text frame
exactly if it can be cut into fields of the grammar. It can be cut in one
way only, and the packet is the one the fields stand for. -/
theorem accepts_iff_grammatical (T : JsonText) (payload : Bytes) :
    (Accepts T payload ↔ ∃ f p, f.text = payload ∧ Grammatical T f p) ∧
    (∀ f p f' p', (f.text = payload ∧ Grammatical T f p) →
      (f'.text = payload ∧ Grammatical T f' p') → f = f' ∧ p = p') ∧
    ∀ f p out, (f.text = payload ∧ Grammatical T f p) → decode T {} payload false out
      = .ok (if p.type.isBinary then ⟨false, out, ⟨some p, []⟩⟩ else ⟨true, p, {}⟩) := by
  refine ⟨⟨grammatical_of_accepts, ?_⟩, ?_, ?_⟩
  · rintro ⟨f, p, rfl, h⟩ out
    refine ⟨_, h.decode out, ?_⟩
    split
    · exact .inr (by simp)
    · exact .inl rfl
  · rintro f p f' p' ⟨rfl, h⟩ ⟨htext, h'⟩
    exact h.toSpells.unique h'.toSpells htext.symm
  · rintro f p out ⟨rfl, h⟩
    exact h.decode out

end Sioxx.JsonParser
