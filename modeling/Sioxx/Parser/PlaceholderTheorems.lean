/-
Sioxx.Parser.PlaceholderTheorems — moving binary values out of a payload
and back.

`deconstruct_binary` numbers the binary values in the order of its
traversal. The decoder makes two traversals of its own: one that collects
the numbers and checks them (`collect_placeholder_indices`) and one that
puts the attachments back (`reconstruct_binary`). All three stop at a
placeholder, so they agree as long as the payload has no object that looks
like one (`nodeNoPlaceholder`).

The attachment list only grows during the traversal. Each statement is
therefore about a value deconstructed onto the attachments found so far,
and the induction threads the list through items and members:

* `deconstructBinary_length` — one attachment per binary value,
* `collect_deconstruct` — the numbers found so far are `0 .. k-1` before
  and `0 .. k'-1` after,
* `reconstruct_deconstruct` — against any list that extends the one the
  traversal ends with, the original value comes back.
-/
import Sioxx.Parser.JsonParser

namespace Sioxx.JsonParser

open Lib Json

/-- No object here that the decoder would take for a placeholder. -/
def nodeNoPlaceholder (v : Json) : Bool := !isBinaryPlaceholder v

/-! ## The attachment list -/

mutual

theorem deconstructBinary_length : ∀ (v : Json) (atts : List Bytes),
    (deconstructBinary v atts).2.length = atts.length + v.binaryCount
  | .binary _ _, atts => by simp [deconstructBinary, binaryCount]
  | .arr items, atts => by simp [deconstructBinary, binaryCount, deconstructItems_length items]
  | .obj members, atts => by
      simp [deconstructBinary, binaryCount, deconstructMembers_length members]
  | .null, _ | .bool _, _ | .int _, _ | .float _, _ | .str _, _ => by
      simp [deconstructBinary, binaryCount]

theorem deconstructItems_length : ∀ (items : List Json) (atts : List Bytes),
    (deconstructItems items atts).2.length = atts.length + itemsBinaryCount items
  | [], _ => by simp [deconstructItems, itemsBinaryCount]
  | v :: rest, atts => by
      simp only [deconstructItems, itemsBinaryCount, deconstructItems_length rest,
        deconstructBinary_length v]
      omega

theorem deconstructMembers_length : ∀ (members : List (Bytes × Json)) (atts : List Bytes),
    (deconstructMembers members atts).2.length = atts.length + membersBinaryCount members
  | [], _ => by simp [deconstructMembers, membersBinaryCount]
  | (_, v) :: rest, atts => by
      simp only [deconstructMembers, membersBinaryCount, deconstructMembers_length rest,
        deconstructBinary_length v]
      omega

end

mutual

theorem deconstructBinary_extends : ∀ (v : Json) (atts : List Bytes),
    atts <+: (deconstructBinary v atts).2
  | .binary _ _, atts => by simp [deconstructBinary]
  | .arr items, atts => by simpa [deconstructBinary] using deconstructItems_extends items atts
  | .obj members, atts => by
      simpa [deconstructBinary] using deconstructMembers_extends members atts
  | .null, _ | .bool _, _ | .int _, _ | .float _, _ | .str _, _ => by
      simp [deconstructBinary]

theorem deconstructItems_extends : ∀ (items : List Json) (atts : List Bytes),
    atts <+: (deconstructItems items atts).2
  | [], _ => by simp [deconstructItems]
  | v :: rest, atts => (deconstructBinary_extends v atts).trans
      (deconstructItems_extends rest (deconstructBinary v atts).2)

theorem deconstructMembers_extends : ∀ (members : List (Bytes × Json)) (atts : List Bytes),
    atts <+: (deconstructMembers members atts).2
  | [], _ => by simp [deconstructMembers]
  | (_, v) :: rest, atts => (deconstructBinary_extends v atts).trans
      (deconstructMembers_extends rest (deconstructBinary v atts).2)

end

mutual

/-- Without binary values nothing is moved out. -/
theorem deconstructBinary_none : ∀ (v : Json) (atts : List Bytes),
    v.binaryCount = 0 → deconstructBinary v atts = (v, atts)
  | .binary _ _, _, h => by simp [binaryCount] at h
  | .arr items, atts, h => by
      simp only [binaryCount] at h
      simp [deconstructBinary, deconstructItems_none items atts h]
  | .obj members, atts, h => by
      simp only [binaryCount] at h
      simp [deconstructBinary, deconstructMembers_none members atts h]
  | .null, _, _ | .bool _, _, _ | .int _, _, _ | .float _, _, _ | .str _, _, _ => by
      simp [deconstructBinary]

theorem deconstructItems_none : ∀ (items : List Json) (atts : List Bytes),
    itemsBinaryCount items = 0 → deconstructItems items atts = (items, atts)
  | [], _, _ => rfl
  | v :: rest, atts, h => by
      simp only [itemsBinaryCount, Nat.add_eq_zero_iff] at h
      simp [deconstructItems, deconstructBinary_none v atts h.1,
        deconstructItems_none rest atts h.2]

theorem deconstructMembers_none : ∀ (members : List (Bytes × Json)) (atts : List Bytes),
    membersBinaryCount members = 0 → deconstructMembers members atts = (members, atts)
  | [], _, _ => rfl
  | (k, v) :: rest, atts, h => by
      simp only [membersBinaryCount, Nat.add_eq_zero_iff] at h
      simp [deconstructMembers, deconstructBinary_none v atts h.1,
        deconstructMembers_none rest atts h.2]

end

/-! ## The payload after the traversal -/

/-- Only a boolean is turned into a boolean. -/
theorem deconstructBinary_bool_iff (v : Json) (atts : List Bytes) (b : Bool) :
    (deconstructBinary v atts).1 = .bool b ↔ v = .bool b := by
  cases v <;> simp [deconstructBinary, placeholder]

/-- An object is a placeholder after the traversal exactly if it was one
before: the traversal keeps keys, and makes no boolean. -/
theorem isBinaryPlaceholder_deconstruct (members : List (Bytes × Json)) (atts : List Bytes) :
    isBinaryPlaceholder (.obj (deconstructMembers members atts).1)
      = isBinaryPlaceholder (.obj members) := by
  have hlookup : ∀ (key : Bytes) (ms : List (Bytes × Json)) (atts : List Bytes) (b : Bool),
      lookup key (deconstructMembers ms atts).1 = some (.bool b) ↔
        lookup key ms = some (.bool b) := by
    intro key ms
    induction ms with
    | nil => simp [deconstructMembers, lookup]
    | cons m rest ih =>
      obtain ⟨k, v⟩ := m
      intro atts b
      simp only [deconstructMembers, lookup]
      split
      · simp [deconstructBinary_bool_iff]
      · exact ih _ b
  have key : ∀ ms : List (Bytes × Json), isBinaryPlaceholder (.obj ms) = true ↔
      lookup placeholderKey ms = some (.bool true) := by
    intro ms
    simp only [isBinaryPlaceholder]
    cases hl : lookup placeholderKey ms with
    | none => simp
    | some v => cases v <;> simp
  rw [Bool.eq_iff_iff, key, key, hlookup]

theorem deconstructMembers_keys : ∀ (members : List (Bytes × Json)) (atts : List Bytes),
    (deconstructMembers members atts).1.map (·.1) = members.map (·.1)
  | [], _ => rfl
  | (k, v) :: rest, atts => by
      simp [deconstructMembers, deconstructMembers_keys rest]

theorem isBinaryPlaceholder_placeholder (n : Nat) :
    isBinaryPlaceholder (placeholder n) = true := by
  simp [isBinaryPlaceholder, placeholder, lookup]

theorem lookup_num_placeholder (n : Nat) :
    lookup numKey [(placeholderKey, .bool true), (numKey, .int (n : Int))] = some (.int n) := by
  have : placeholderKey ≠ numKey := by decide
  simp [lookup, this]

mutual

/-- No binary value is left. -/
theorem noBinary_deconstruct : ∀ (v : Json) (atts : List Bytes),
    (deconstructBinary v atts).1.everyNode nodeNoBinary = true
  | .binary _ _, _ => by
      simp [deconstructBinary, placeholder, everyNode, everyMember, nodeNoBinary]
  | .arr items, atts => by
      simp [deconstructBinary, everyNode, nodeNoBinary, noBinary_deconstructItems items]
  | .obj members, atts => by
      simp [deconstructBinary, everyNode, nodeNoBinary, noBinary_deconstructMembers members]
  | .null, _ | .bool _, _ | .int _, _ | .float _, _ | .str _, _ => by
      simp [deconstructBinary, everyNode, nodeNoBinary]

theorem noBinary_deconstructItems : ∀ (items : List Json) (atts : List Bytes),
    everyItem nodeNoBinary (deconstructItems items atts).1 = true
  | [], _ => rfl
  | v :: rest, atts => by
      simp [deconstructItems, everyItem, noBinary_deconstruct v,
        noBinary_deconstructItems rest]

theorem noBinary_deconstructMembers : ∀ (members : List (Bytes × Json)) (atts : List Bytes),
    everyMember nodeNoBinary (deconstructMembers members atts).1 = true
  | [], _ => rfl
  | (_, v) :: rest, atts => by
      simp [deconstructMembers, everyMember, noBinary_deconstruct v,
        noBinary_deconstructMembers rest]

end

/-- A placeholder is text: its keys are in order and its number is one a
64-bit integer holds. -/
theorem textual_placeholder {n : Nat} (h : n < 2 ^ 64) :
    (placeholder n).everyNode nodeTextual = true := by
  have hkeys : nodeTextual (placeholder n) = nodeTextual (placeholder 0) := rfl
  have h0 : nodeTextual (placeholder 0) = true := by decide
  have hint : nodeTextual (.int (n : Int)) = true := by
    simp only [nodeTextual, nodeRepresentable, nodeUtf8, nodeFinite]
    simp only [Bool.and_true, decide_eq_true_eq]
    omega
  have hb : nodeTextual (.bool true) = true := rfl
  rw [h0] at hkeys
  simp only [placeholder] at hkeys ⊢
  simp [everyNode, everyMember, hint, hb, hkeys]

/-- The node test of an object reads its keys only. -/
theorem nodeTextual_keys {ms ms' : List (Bytes × Json)} (h : ms'.map (·.1) = ms.map (·.1)) :
    nodeTextual (.obj ms') = nodeTextual (.obj ms) := by
  have hall : ∀ ms : List (Bytes × Json),
      ms.all (fun m => utf8 m.1) = (ms.map (·.1)).all utf8 := by
    intro ms
    simp [List.all_map, Function.comp_def]
  simp only [nodeTextual, nodeRepresentable, nodeUtf8, nodeFinite, hall, h]

mutual

theorem textual_deconstruct : ∀ (v : Json) (atts : List Bytes),
    v.everyNode nodeTextual = true → atts.length + v.binaryCount ≤ 2 ^ 64 →
    (deconstructBinary v atts).1.everyNode nodeTextual = true
  | .binary _ _, atts, _, hlen => by
      simp only [binaryCount] at hlen
      exact textual_placeholder (by omega)
  | .arr items, atts, h, hlen => by
      simp only [everyNode, Bool.and_eq_true] at h
      simp only [deconstructBinary, everyNode, Bool.and_eq_true]
      exact ⟨rfl, textual_deconstructItems items atts h.2 hlen⟩
  | .obj members, atts, h, hlen => by
      simp only [everyNode, Bool.and_eq_true] at h
      simp only [deconstructBinary, everyNode, Bool.and_eq_true]
      refine ⟨?_, textual_deconstructMembers members atts h.2 hlen⟩
      rw [nodeTextual_keys (deconstructMembers_keys members atts)]
      exact h.1
  | .null, _, h, _ | .bool _, _, h, _ | .int _, _, h, _ | .float _, _, h, _
  | .str _, _, h, _ => by simpa [deconstructBinary] using h

theorem textual_deconstructItems : ∀ (items : List Json) (atts : List Bytes),
    everyItem nodeTextual items = true → atts.length + itemsBinaryCount items ≤ 2 ^ 64 →
    everyItem nodeTextual (deconstructItems items atts).1 = true
  | [], _, _, _ => rfl
  | v :: rest, atts, h, hlen => by
      simp only [everyItem, Bool.and_eq_true] at h
      simp only [itemsBinaryCount] at hlen
      simp only [deconstructItems, everyItem, Bool.and_eq_true]
      exact ⟨textual_deconstruct v atts h.1 (by omega),
        textual_deconstructItems rest _ h.2 (by rw [deconstructBinary_length]; omega)⟩

theorem textual_deconstructMembers : ∀ (members : List (Bytes × Json)) (atts : List Bytes),
    everyMember nodeTextual members = true →
    atts.length + membersBinaryCount members ≤ 2 ^ 64 →
    everyMember nodeTextual (deconstructMembers members atts).1 = true
  | [], _, _, _ => rfl
  | (_, v) :: rest, atts, h, hlen => by
      simp only [everyMember, Bool.and_eq_true] at h
      simp only [membersBinaryCount] at hlen
      simp only [deconstructMembers, everyMember, Bool.and_eq_true]
      exact ⟨textual_deconstruct v atts h.1 (by omega),
        textual_deconstructMembers rest _ h.2 (by rw [deconstructBinary_length]; omega)⟩

end

/-! ## Collecting the numbers -/

mutual

/-- The decoder's first traversal finds the numbers the encoder gave out,
in the same order. -/
theorem collect_deconstruct (n : Nat) : ∀ (v : Json) (atts : List Bytes),
    v.everyNode nodeNoPlaceholder = true → (deconstructBinary v atts).2.length ≤ n →
    collectPlaceholderIndices n (deconstructBinary v atts).1 (List.range atts.length)
      = some (List.range (deconstructBinary v atts).2.length)
  | .binary bytes subtype, atts, _, hn => by
      have hlt : ¬ atts.length ≥ n := by
        rw [deconstructBinary_length] at hn; simp only [binaryCount] at hn; omega
      have hread : readPlaceholderIndex (placeholder atts.length) = some atts.length := by
        simp [readPlaceholderIndex, placeholder, lookup_num_placeholder]
      have hp := isBinaryPlaceholder_placeholder atts.length
      simp only [deconstructBinary, placeholder] at hread hp ⊢
      simp [collectPlaceholderIndices, hread, hp, hlt, List.range_succ]
  | .arr items, atts, h, hn => by
      simp only [everyNode, Bool.and_eq_true] at h
      exact collect_deconstructItems n items atts h.2 hn
  | .obj members, atts, h, hn => by
      simp only [everyNode, Bool.and_eq_true] at h
      have hp := isBinaryPlaceholder_deconstruct members atts
      rw [show isBinaryPlaceholder (.obj members) = false by
        simpa [nodeNoPlaceholder] using h.1] at hp
      simp only [deconstructBinary, collectPlaceholderIndices, hp]
      exact collect_deconstructMembers n members atts h.2 hn
  | .null, _, _, _ | .bool _, _, _, _ | .int _, _, _, _ | .float _, _, _, _
  | .str _, _, _, _ => by simp [deconstructBinary, collectPlaceholderIndices]

theorem collect_deconstructItems (n : Nat) : ∀ (items : List Json) (atts : List Bytes),
    everyItem nodeNoPlaceholder items = true → (deconstructItems items atts).2.length ≤ n →
    collectItems n (deconstructItems items atts).1 (List.range atts.length)
      = some (List.range (deconstructItems items atts).2.length)
  | [], _, _, _ => rfl
  | v :: rest, atts, h, hn => by
      simp only [everyItem, Bool.and_eq_true] at h
      have hgrow := (deconstructItems_extends rest (deconstructBinary v atts).2).length_le
      simp only [deconstructItems] at hn ⊢
      rw [collectItems, collect_deconstruct n v atts h.1 (by omega)]
      exact collect_deconstructItems n rest _ h.2 hn

theorem collect_deconstructMembers (n : Nat) :
    ∀ (members : List (Bytes × Json)) (atts : List Bytes),
    everyMember nodeNoPlaceholder members = true →
    (deconstructMembers members atts).2.length ≤ n →
    collectMembers n (deconstructMembers members atts).1 (List.range atts.length)
      = some (List.range (deconstructMembers members atts).2.length)
  | [], _, _, _ => rfl
  | (k, v) :: rest, atts, h, hn => by
      simp only [everyMember, Bool.and_eq_true] at h
      have hgrow := (deconstructMembers_extends rest (deconstructBinary v atts).2).length_le
      simp only [deconstructMembers] at hn ⊢
      rw [collectMembers, collect_deconstruct n v atts h.1 (by omega)]
      exact collect_deconstructMembers n rest _ h.2 hn

end

/-- The header of a payload the encoder took apart passes the check. -/
theorem hasValidPlaceholders_deconstruct (v : Json)
    (h : v.everyNode nodeNoPlaceholder = true) :
    hasValidPlaceholders (deconstructBinary v []).1 v.binaryCount = true := by
  have hlen := deconstructBinary_length v []
  have hc := collect_deconstruct v.binaryCount v [] h (by simp [hlen])
  simp only [List.length_nil, List.range_zero] at hc
  simp [hasValidPlaceholders, hc, hlen]

/-! ## Putting the attachments back -/

mutual

theorem reconstruct_deconstruct (all : List Bytes) (hall : all.length ≤ 2 ^ 64) :
    ∀ (v : Json) (atts : List Bytes),
    v.everyNode nodeNoPlaceholder = true → v.everyNode nodeNoSubtype = true →
    (deconstructBinary v atts).2 <+: all →
    reconstructBinary all (deconstructBinary v atts).1 = .ok v
  | .binary bytes (some _), _, _, hs, _ => by simp [everyNode, nodeNoSubtype] at hs
  | .binary bytes none, atts, _, _, hpre => by
      simp only [deconstructBinary] at hpre
      obtain ⟨tail, htail⟩ := hpre
      have hlt : atts.length < 2 ^ 64 := by
        have hlen := congrArg List.length htail
        simp only [List.length_append, List.length_singleton] at hlen
        omega
      have hidx : getIndex (placeholder atts.length) = some atts.length := by
        simp only [getIndex, placeholder, lookup_num_placeholder, Option.some.injEq]
        omega
      have hget : all[atts.length]? = some bytes := by simp [← htail]
      have hp := isBinaryPlaceholder_placeholder atts.length
      simp only [deconstructBinary, placeholder] at hidx hp ⊢
      simp [reconstructBinary, hp, hidx, hget]
  | .arr items, atts, h, hs, hpre => by
      simp only [everyNode, Bool.and_eq_true] at h hs
      simp only [deconstructBinary, reconstructBinary] at hpre ⊢
      rw [reconstruct_deconstructItems all hall items atts h.2 hs.2 hpre]
      rfl
  | .obj members, atts, h, hs, hpre => by
      simp only [everyNode, Bool.and_eq_true] at h hs
      have hp := isBinaryPlaceholder_deconstruct members atts
      rw [show isBinaryPlaceholder (.obj members) = false by
        simpa [nodeNoPlaceholder] using h.1] at hp
      simp only [deconstructBinary] at hpre ⊢
      simp only [reconstructBinary, hp]
      rw [reconstruct_deconstructMembers all hall members atts h.2 hs.2 hpre]
      rfl
  | .null, _, _, _, _ | .bool _, _, _, _, _ | .int _, _, _, _, _ | .float _, _, _, _, _
  | .str _, _, _, _, _ => by simp [deconstructBinary, reconstructBinary]

theorem reconstruct_deconstructItems (all : List Bytes) (hall : all.length ≤ 2 ^ 64) :
    ∀ (items : List Json) (atts : List Bytes),
    everyItem nodeNoPlaceholder items = true → everyItem nodeNoSubtype items = true →
    (deconstructItems items atts).2 <+: all →
    reconstructItems all (deconstructItems items atts).1 = .ok items
  | [], _, _, _, _ => rfl
  | v :: rest, atts, h, hs, hpre => by
      simp only [everyItem, Bool.and_eq_true] at h hs
      simp only [deconstructItems] at hpre ⊢
      have hv := reconstruct_deconstruct all hall v atts h.1 hs.1
        ((deconstructItems_extends rest _).trans hpre)
      have hrest := reconstruct_deconstructItems all hall rest _ h.2 hs.2 hpre
      simp only [reconstructItems, hv, hrest]
      rfl

theorem reconstruct_deconstructMembers (all : List Bytes) (hall : all.length ≤ 2 ^ 64) :
    ∀ (members : List (Bytes × Json)) (atts : List Bytes),
    everyMember nodeNoPlaceholder members = true →
    everyMember nodeNoSubtype members = true →
    (deconstructMembers members atts).2 <+: all →
    reconstructMembers all (deconstructMembers members atts).1 = .ok members
  | [], _, _, _, _ => rfl
  | (k, v) :: rest, atts, h, hs, hpre => by
      simp only [everyMember, Bool.and_eq_true] at h hs
      simp only [deconstructMembers] at hpre ⊢
      have hv := reconstruct_deconstruct all hall v atts h.1 hs.1
        ((deconstructMembers_extends rest _).trans hpre)
      have hrest := reconstruct_deconstructMembers all hall rest _ h.2 hs.2 hpre
      simp only [reconstructMembers, hv, hrest]
      rfl

end

end Sioxx.JsonParser
