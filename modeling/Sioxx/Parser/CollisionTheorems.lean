/-
Sioxx.Parser.CollisionTheorems — payloads with objects that look like
placeholders.

An application may send an object with a boolean-true `"_placeholder"`.
`deconstruct_binary` goes into such an object and numbers the binary
values in it like any other; the decoder takes the object itself for a
placeholder and does not look inside. So the numbers the decoder meets are
those of the binary values outside these objects, and the `"num"`s of the
outermost of these objects. Its check passes when all of them together
are `0 .. n-1`, that is, when the `"num"`s are just the numbers of the
binary values it does not see.

`neverDifferent_iff`: that is the only case in which a packet arrives
with another payload than was sent. In every other case the payload
arrives as it was, or the header is refused.

* `collect_claimed`, `hasValidPlaceholders_claimed`: collecting the
  numbers of a payload is admitting the list of them (`claimed`) one by
  one, and the check is that this list is a permutation of `0 .. n-1`.
* `claimed_hidden` is the bookkeeping: what is met and what is hidden is
  what was given out and what is claimed. `hasValidPlaceholders_iff` reads
  the check of an encoded payload off it.
* `claimed_of_reconstruct`: with such an object in the payload the
  decoder never gives the payload back, because it puts a binary value in
  the place of the object.
-/
import Mathlib.Algebra.Order.Group.Multiset
import Mathlib.Tactic.Abel
import Sioxx.Parser.StreamTheorems

namespace Sioxx.JsonParser

open Lib Json

/-! ## What the decoder meets and what it does not see -/

mutual

/-- The numbers of the binary values inside objects that look like
placeholders, when `k` binary values stand before. -/
def hidden : Json → Nat → List Nat
  | .arr items, k => hiddenItems items k
  | .obj members, k =>
    if isBinaryPlaceholder (.obj members) then List.range' k (membersBinaryCount members)
    else hiddenMembers members k
  | _, _ => []

def hiddenItems : List Json → Nat → List Nat
  | [], _ => []
  | v :: rest, k => hidden v k ++ hiddenItems rest (k + v.binaryCount)

def hiddenMembers : List (Bytes × Json) → Nat → List Nat
  | [], _ => []
  | (_, v) :: rest, k => hidden v k ++ hiddenMembers rest (k + v.binaryCount)

end

mutual

/-- The `"num"`s of the outermost of these objects; `none` for one without
a non-negative integer there. -/
def claimed : Json → List (Option Nat)
  | .arr items => claimedItems items
  | .obj members =>
    if isBinaryPlaceholder (.obj members) then [readPlaceholderIndex (.obj members)]
    else claimedMembers members
  | _ => []

def claimedItems : List Json → List (Option Nat)
  | [] => []
  | v :: rest => claimed v ++ claimedItems rest

def claimedMembers : List (Bytes × Json) → List (Option Nat)
  | [] => []
  | (_, v) :: rest => claimed v ++ claimedMembers rest

end

/-- There are such objects, and their `"num"`s are, each once, the numbers
of the binary values inside them. -/
def Collides (v : Json) : Prop :=
  claimed v ≠ [] ∧ (claimed v).Perm ((hidden v 0).map some)

instance (v : Json) : Decidable (Collides v) := inferInstanceAs (Decidable (_ ∧ _))

mutual

/-- The numbers the decoder meets, in its order. -/
def visited : Json → Nat → List (Option Nat)
  | .binary _ _, k => [some k]
  | .arr items, k => visitedItems items k
  | .obj members, k =>
    if isBinaryPlaceholder (.obj members) then [readPlaceholderIndex (.obj members)]
    else visitedMembers members k
  | _, _ => []

def visitedItems : List Json → Nat → List (Option Nat)
  | [], _ => []
  | v :: rest, k => visited v k ++ visitedItems rest (k + v.binaryCount)

def visitedMembers : List (Bytes × Json) → Nat → List (Option Nat)
  | [], _ => []
  | (_, v) :: rest, k => visited v k ++ visitedMembers rest (k + v.binaryCount)

end

/-- The numbers given out from `k` on. -/
def given (k n : Nat) : List (Option Nat) := (List.range' k n).map some

theorem given_add (k m n : Nat) : given k (m + n) = given k m ++ given (k + m) n := by
  rw [given, given, given, ← List.map_append, List.range'_append_1]

/-- One element of a container after another. -/
theorem count_cons {a a' b b' c c' d d' : Multiset (Option Nat)} (h : a + b = c + d)
    (h' : a' + b' = c' + d') : (a + a') + (b + b') = (c + c') + (d + d') := by
  have hadd : (a + b) + (a' + b') = (c + d) + (c' + d') := by rw [h, h']
  calc (a + a') + (b + b') = (a + b) + (a' + b') := by abel
    _ = (c + d) + (c' + d') := hadd
    _ = (c + c') + (d + d') := by abel

mutual

/-- What is met and what is hidden is what is given out and what is
claimed. -/
theorem claimed_hidden : ∀ (v : Json) (k : Nat),
    (visited v k : Multiset (Option Nat)) + ((hidden v k).map some : List (Option Nat))
      = (given k v.binaryCount : List (Option Nat)) + (claimed v : List (Option Nat))
  | .binary _ _, k => by simp [visited, hidden, claimed, given, binaryCount]
  | .arr items, k => by
      simp only [visited, hidden, claimed, binaryCount]
      exact claimed_hiddenItems items k
  | .obj members, k => by
      simp only [visited, hidden, claimed, binaryCount]
      split
      · exact add_comm _ _
      · exact claimed_hiddenMembers members k
  | .null, k => by simp [visited, hidden, claimed, given, binaryCount]
  | .bool _, k => by simp [visited, hidden, claimed, given, binaryCount]
  | .int _, k => by simp [visited, hidden, claimed, given, binaryCount]
  | .float _, k => by simp [visited, hidden, claimed, given, binaryCount]
  | .str _, k => by simp [visited, hidden, claimed, given, binaryCount]

theorem claimed_hiddenItems : ∀ (items : List Json) (k : Nat),
    (visitedItems items k : Multiset (Option Nat)) + ((hiddenItems items k).map some : List _)
      = (given k (itemsBinaryCount items) : List _) + (claimedItems items : List _)
  | [], k => by simp [visitedItems, hiddenItems, claimedItems, given, itemsBinaryCount]
  | v :: rest, k => by
      simp only [visitedItems, hiddenItems, claimedItems, itemsBinaryCount, given_add,
        List.map_append, ← Multiset.coe_add]
      exact count_cons (claimed_hidden v k) (claimed_hiddenItems rest (k + v.binaryCount))

theorem claimed_hiddenMembers : ∀ (members : List (Bytes × Json)) (k : Nat),
    (visitedMembers members k : Multiset (Option Nat))
        + ((hiddenMembers members k).map some : List _)
      = (given k (membersBinaryCount members) : List _) + (claimedMembers members : List _)
  | [], k => by simp [visitedMembers, hiddenMembers, claimedMembers, given, membersBinaryCount]
  | (_, v) :: rest, k => by
      simp only [visitedMembers, hiddenMembers, claimedMembers, membersBinaryCount, given_add,
        List.map_append, ← Multiset.coe_add]
      exact count_cons (claimed_hidden v k) (claimed_hiddenMembers rest (k + v.binaryCount))

end

mutual

theorem hidden_length_le : ∀ (v : Json) (k : Nat), (hidden v k).length ≤ v.binaryCount
  | .arr items, k => hiddenItems_length_le items k
  | .obj members, k => by
      simp only [hidden, binaryCount]
      split
      · simp
      · exact hiddenMembers_length_le members k
  | .null, _ | .bool _, _ | .int _, _ | .float _, _ | .str _, _ | .binary _ _, _ => by
      simp [hidden]

theorem hiddenItems_length_le : ∀ (items : List Json) (k : Nat),
    (hiddenItems items k).length ≤ itemsBinaryCount items
  | [], _ => by simp [hiddenItems]
  | v :: rest, k => by
      have hv := hidden_length_le v k
      have hrest := hiddenItems_length_le rest (k + v.binaryCount)
      simp only [hiddenItems, itemsBinaryCount, List.length_append]
      omega

theorem hiddenMembers_length_le : ∀ (members : List (Bytes × Json)) (k : Nat),
    (hiddenMembers members k).length ≤ membersBinaryCount members
  | [], _ => by simp [hiddenMembers]
  | (_, v) :: rest, k => by
      have hv := hidden_length_le v k
      have hrest := hiddenMembers_length_le rest (k + v.binaryCount)
      simp only [hiddenMembers, membersBinaryCount, List.length_append]
      omega

end

/-- A collision takes a binary value. -/
theorem Collides.binaryCount_ne_zero {v : Json} (h : Collides v) : v.binaryCount ≠ 0 := by
  obtain ⟨hclaimed, hperm⟩ := h
  intro hzero
  have hle := hidden_length_le v 0
  have hlen := hperm.length_eq
  rw [List.length_map] at hlen
  exact hclaimed (List.eq_nil_of_length_eq_zero (by omega))

/-! ## The decoder's check -/

/-- `collect_placeholder_indices` on the numbers alone. -/
def insertAll (n : Nat) : List (Option Nat) → List Nat → Option (List Nat)
  | [], indices => some indices
  | none :: _, _ => none
  | some index :: rest, indices =>
    if index ≥ n then none
    else if indices.contains index then none
    else insertAll n rest (indices ++ [index])

theorem insertAll_append (n : Nat) : ∀ (l l' : List (Option Nat)) (indices : List Nat),
    insertAll n (l ++ l') indices = (insertAll n l indices).bind (insertAll n l')
  | [], l', indices => rfl
  | none :: rest, l', indices => rfl
  | some index :: rest, l', indices => by
      simp only [List.cons_append, insertAll]
      split
      · rfl
      · split
        · rfl
        · exact insertAll_append n rest l' (indices ++ [index])

/-- The number under `"num"` is the same before and after the traversal: it
turns nothing else into a number. -/
theorem readPlaceholderIndex_deconstruct (members : List (Bytes × Json)) (atts : List Bytes) :
    readPlaceholderIndex (.obj (deconstructMembers members atts).1)
      = readPlaceholderIndex (.obj members) := by
  have hint : ∀ (v : Json) (atts : List Bytes) (i : Int),
      (deconstructBinary v atts).1 = .int i ↔ v = .int i := by
    intro v atts i
    cases v <;> simp [deconstructBinary, placeholder]
  have hlookup : ∀ (ms : List (Bytes × Json)) (atts : List Bytes) (i : Int),
      lookup numKey (deconstructMembers ms atts).1 = some (.int i) ↔
        lookup numKey ms = some (.int i) := by
    intro ms
    induction ms with
    | nil => simp [deconstructMembers, lookup]
    | cons m rest ih =>
      obtain ⟨k, v⟩ := m
      intro atts i
      simp only [deconstructMembers, lookup]
      split
      · simp [hint]
      · exact ih _ i
  have hread : ∀ (ms : List (Bytes × Json)) (index : Nat),
      readPlaceholderIndex (.obj ms) = some index ↔
        lookup numKey ms = some (.int index) := by
    intro ms index
    simp only [readPlaceholderIndex]
    cases hl : lookup numKey ms with
    | none => simp
    | some v =>
      cases v with
      | int i =>
        simp only [Option.some.injEq, Json.int.injEq]
        split
        · simp only [reduceCtorEq, false_iff]
          omega
        · simp only [Option.some.injEq]
          omega
      | _ => simp
  apply Option.ext
  intro index
  rw [hread, hread, hlookup]

mutual

/-- Collecting the numbers of a payload is admitting them one by one. -/
theorem collect_claimed (n : Nat) : ∀ (v : Json) (indices : List Nat),
    collectPlaceholderIndices n v indices = insertAll n (claimed v) indices
  | .arr items, indices => by
      rw [collectPlaceholderIndices, claimed]
      exact collect_claimedItems n items indices
  | .obj members, indices => by
      rw [collectPlaceholderIndices, claimed]
      split
      · cases readPlaceholderIndex (.obj members) with
        | none => rfl
        | some index => simp only [insertAll]
      · exact collect_claimedMembers n members indices
  | .null, _ | .bool _, _ | .int _, _ | .float _, _ | .str _, _ | .binary _ _, _ => by
      simp [collectPlaceholderIndices, claimed, insertAll]

theorem collect_claimedItems (n : Nat) : ∀ (items : List Json) (indices : List Nat),
    collectItems n items indices = insertAll n (claimedItems items) indices
  | [], _ => rfl
  | v :: rest, indices => by
      rw [collectItems, claimedItems, insertAll_append, collect_claimed n v indices]
      cases insertAll n (claimed v) indices with
      | none => rfl
      | some mid => exact collect_claimedItems n rest mid

theorem collect_claimedMembers (n : Nat) :
    ∀ (members : List (Bytes × Json)) (indices : List Nat),
    collectMembers n members indices = insertAll n (claimedMembers members) indices
  | [], _ => rfl
  | (_, v) :: rest, indices => by
      rw [collectMembers, claimedMembers, insertAll_append, collect_claimed n v indices]
      cases insertAll n (claimed v) indices with
      | none => rfl
      | some mid => exact collect_claimedMembers n rest mid

end

mutual

/-- What the decoder meets in a payload the encoder took apart. -/
theorem claimed_deconstruct : ∀ (v : Json) (atts : List Bytes),
    claimed (deconstructBinary v atts).1 = visited v atts.length
  | .binary bytes subtype, atts => by
      have hread : readPlaceholderIndex (placeholder atts.length) = some atts.length := by
        simp [readPlaceholderIndex, placeholder, lookup_num_placeholder]
      have hp := isBinaryPlaceholder_placeholder atts.length
      simp only [deconstructBinary, placeholder] at hread hp ⊢
      simp only [claimed, hread, hp, if_true, visited]
  | .arr items, atts => by
      simp only [deconstructBinary, claimed, visited]
      exact claimed_deconstructItems items atts
  | .obj members, atts => by
      have hp := isBinaryPlaceholder_deconstruct members atts
      simp only [deconstructBinary, claimed, visited, hp]
      split
      · rw [readPlaceholderIndex_deconstruct]
      · exact claimed_deconstructMembers members atts
  | .null, _ | .bool _, _ | .int _, _ | .float _, _ | .str _, _ => by
      simp [deconstructBinary, claimed, visited]

theorem claimed_deconstructItems : ∀ (items : List Json) (atts : List Bytes),
    claimedItems (deconstructItems items atts).1 = visitedItems items atts.length
  | [], _ => rfl
  | v :: rest, atts => by
      rw [deconstructItems, claimedItems, visitedItems, claimed_deconstruct v atts,
        claimed_deconstructItems rest, deconstructBinary_length]

theorem claimed_deconstructMembers : ∀ (members : List (Bytes × Json)) (atts : List Bytes),
    claimedMembers (deconstructMembers members atts).1 = visitedMembers members atts.length
  | [], _ => rfl
  | (_, v) :: rest, atts => by
      rw [deconstructMembers, claimedMembers, visitedMembers, claimed_deconstruct v atts,
        claimed_deconstructMembers rest, deconstructBinary_length]

end

/-- Numbers are admitted if they are there, small enough and new. -/
theorem insertAll_eq_some (n : Nat) : ∀ (l : List (Option Nat)) (indices indices' : List Nat),
    indices.Nodup →
    (insertAll n l indices = some indices' ↔ ∃ nums, l = nums.map some ∧ (∀ i ∈ nums, i < n) ∧
      (indices ++ nums).Nodup ∧ indices' = indices ++ nums)
  | [], indices, indices', hnodup => by
      constructor
      · intro h
        cases h
        exact ⟨[], rfl, by simp, by simpa using hnodup, by simp⟩
      · rintro ⟨nums, hnums, -, -, rfl⟩
        have hnil : nums = [] := by simpa using hnums.symm
        simp [insertAll, hnil]
  | none :: rest, indices, indices', _ => by
      constructor
      · intro h
        cases h
      · rintro ⟨nums, hnums, -⟩
        cases nums <;> simp at hnums
  | some index :: rest, indices, indices', hnodup => by
      simp only [insertAll]
      split
      · rename_i hbig
        constructor
        · intro h
          cases h
        · rintro ⟨nums, hnums, hlt, -⟩
          cases nums with
          | nil => simp at hnums
          | cons i nums =>
            simp only [List.map_cons, List.cons.injEq, Option.some.injEq] at hnums
            have := hlt i (by simp)
            omega
      · rename_i hsmall
        split
        · rename_i hold
          simp only [List.contains_iff_mem] at hold
          constructor
          · intro h
            cases h
          · rintro ⟨nums, hnums, -, hnew, -⟩
            cases nums with
            | nil => simp at hnums
            | cons i nums =>
              simp only [List.map_cons, List.cons.injEq, Option.some.injEq] at hnums
              have hdisjoint := (List.nodup_append.mp hnew).2.2 index hold i (by simp)
              exact absurd hnums.1 hdisjoint
        · rename_i hnew
          simp only [List.contains_iff_mem] at hnew
          have hnext : (indices ++ [index]).Nodup := by
            rw [List.nodup_append]
            refine ⟨hnodup, by simp, ?_⟩
            rintro a ha b hb rfl
            exact hnew (List.mem_singleton.mp hb ▸ ha)
          rw [insertAll_eq_some n rest (indices ++ [index]) indices' hnext]
          constructor
          · rintro ⟨nums, rfl, hlt, hnodup', rfl⟩
            refine ⟨index :: nums, rfl, ?_, by simpa using hnodup', by simp⟩
            simp only [List.mem_cons, forall_eq_or_imp]
            exact ⟨by omega, hlt⟩
          · rintro ⟨nums, hnums, hlt, hnodup', rfl⟩
            cases nums with
            | nil => simp at hnums
            | cons i nums =>
              simp only [List.map_cons, List.cons.injEq, Option.some.injEq] at hnums
              obtain ⟨rfl, rfl⟩ := hnums
              exact ⟨nums, rfl, fun i hi => hlt i (by simp [hi]), by simpa using hnodup', by simp⟩

/-- `n` different numbers below `n`, in some order. -/
theorem perm_range_iff {nums : List Nat} {n : Nat} :
    nums.Perm (List.range n) ↔ (∀ i ∈ nums, i < n) ∧ nums.Nodup ∧ nums.length = n := by
  constructor
  · intro h
    refine ⟨fun i hi => List.mem_range.mp (h.mem_iff.mp hi), ?_, by simpa using h.length_eq⟩
    exact h.nodup_iff.mpr List.nodup_range
  · rintro ⟨hlt, hnodup, hlen⟩
    have hsub : nums.Subperm (List.range n) :=
      List.subperm_of_subset hnodup fun i hi => List.mem_range.mpr (hlt i hi)
    exact hsub.perm_of_length_le (by simp [hlen])

/-- The numbers `0 .. n-1`, each once and in some order. -/
def Numbers (n : Nat) (l : List (Option Nat)) : Prop := l.Perm ((List.range n).map some)

instance (n : Nat) (l : List (Option Nat)) : Decidable (Numbers n l) :=
  inferInstanceAs (Decidable (l.Perm _))

theorem numbers_iff {n : Nat} {l : List (Option Nat)} :
    Numbers n l ↔ ∃ nums : List Nat, l = nums.map some ∧ nums.Perm (List.range n) := by
  constructor
  · intro h
    have hsome : ∀ o ∈ l, ∃ i, some i = o := by
      intro o ho
      obtain ⟨i, -, hi⟩ := List.mem_map.mp (h.mem_iff.mp ho)
      exact ⟨i, hi⟩
    obtain ⟨nums, rfl⟩ : ∃ nums : List Nat, nums.map some = l := by
      rw [← Set.mem_range, Set.range_list_map]
      exact hsome
    exact ⟨nums, rfl, (List.map_perm_map_iff (Option.some_injective Nat)).mp h⟩
  · rintro ⟨nums, rfl, hperm⟩
    exact hperm.map some

/-- **The check of a header**: the outermost placeholders are numbered
`0 .. n-1`. -/
theorem hasValidPlaceholders_claimed (v : Json) (n : Nat) :
    hasValidPlaceholders v n = true ↔ Numbers n (claimed v) := by
  rw [numbers_iff]
  unfold hasValidPlaceholders
  rw [collect_claimed]
  constructor
  · intro h
    split at h
    · cases h
    · rename_i indices hinsert
      obtain ⟨nums, hnums, hlt, hnodup, hindices⟩ :=
        (insertAll_eq_some n _ [] _ List.nodup_nil).mp hinsert
      rw [hindices] at h
      exact ⟨nums, hnums, perm_range_iff.mpr ⟨hlt, by simpa using hnodup, by simpa using h⟩⟩
  · rintro ⟨nums, hnums, hperm⟩
    obtain ⟨hlt, hnodup, hlen⟩ := perm_range_iff.mp hperm
    have hinsert := (insertAll_eq_some n (claimed v) [] nums List.nodup_nil).mpr
      ⟨nums, hnums, hlt, by simpa using hnodup, rfl⟩
    simp only [hinsert, hlen, beq_self_eq_true]

/-- The header of a payload the encoder took apart passes the check exactly
if the numbers claimed are the numbers hidden. -/
theorem hasValidPlaceholders_iff (v : Json) :
    hasValidPlaceholders (deconstructBinary v []).1 v.binaryCount = true ↔
      (claimed v).Perm ((hidden v 0).map some) := by
  have hcount := claimed_hidden v 0
  have hgiven : given 0 v.binaryCount = (List.range v.binaryCount).map some := by
    rw [given, List.range_eq_range']
  rw [hgiven] at hcount
  rw [hasValidPlaceholders_claimed, claimed_deconstruct, Numbers, ← Multiset.coe_eq_coe,
    ← Multiset.coe_eq_coe]
  constructor
  · intro hvisited
    rw [List.length_nil] at hvisited
    rw [hvisited] at hcount
    exact (add_left_cancel hcount).symm
  · intro hclaimed
    rw [hclaimed] at hcount
    exact add_right_cancel hcount

/-! ## What comes back -/

mutual

/-- With an object that looks like a placeholder in it, a payload does not
come back. -/
theorem claimed_of_reconstruct (all : List Bytes) : ∀ (v : Json) (atts : List Bytes),
    reconstructBinary all (deconstructBinary v atts).1 = .ok v → claimed v = []
  | .arr items, atts, h => by
      simp only [deconstructBinary, reconstructBinary] at h
      cases hitems : reconstructItems all (deconstructItems items atts).1 with
      | error e =>
        rw [hitems] at h
        cases h
      | ok items' =>
        rw [hitems] at h
        simp only [bind_pure_comp, Except.map, Functor.map, Except.ok.injEq, Json.arr.injEq] at h
        exact claimed_of_reconstructItems all items atts (h ▸ hitems)
  | .obj members, atts, h => by
      have hp := isBinaryPlaceholder_deconstruct members atts
      simp only [deconstructBinary, reconstructBinary, hp] at h
      simp only [claimed]
      split at h
      · -- a binary value has taken the place of the object
        split at h
        · cases h
        · split at h
          · cases h
          · cases h
      · rename_i hplain
        rw [if_neg hplain]
        cases hmembers : reconstructMembers all (deconstructMembers members atts).1 with
        | error e =>
          rw [hmembers] at h
          cases h
        | ok members' =>
          rw [hmembers] at h
          simp only [bind_pure_comp, Except.map, Functor.map, Except.ok.injEq, Json.obj.injEq] at h
          exact claimed_of_reconstructMembers all members atts (h ▸ hmembers)
  | .null, _, _ | .bool _, _, _ | .int _, _, _ | .float _, _, _ | .str _, _, _
  | .binary _ _, _, _ => by simp [claimed]

theorem claimed_of_reconstructItems (all : List Bytes) :
    ∀ (items : List Json) (atts : List Bytes),
    reconstructItems all (deconstructItems items atts).1 = .ok items → claimedItems items = []
  | [], _, _ => rfl
  | v :: rest, atts, h => by
      simp only [deconstructItems, reconstructItems] at h
      cases hv : reconstructBinary all (deconstructBinary v atts).1 with
      | error e =>
        rw [hv] at h
        cases h
      | ok v' =>
        cases hrest : reconstructItems all
            (deconstructItems rest (deconstructBinary v atts).2).1 with
        | error e =>
          rw [hv, hrest] at h
          cases h
        | ok rest' =>
          rw [hv, hrest] at h
          cases h
          rw [claimedItems, claimed_of_reconstruct all v atts hv,
            claimed_of_reconstructItems all rest _ hrest]
          rfl

theorem claimed_of_reconstructMembers (all : List Bytes) :
    ∀ (members : List (Bytes × Json)) (atts : List Bytes),
    reconstructMembers all (deconstructMembers members atts).1 = .ok members →
    claimedMembers members = []
  | [], _, _ => rfl
  | (k, v) :: rest, atts, h => by
      simp only [deconstructMembers, reconstructMembers] at h
      cases hv : reconstructBinary all (deconstructBinary v atts).1 with
      | error e =>
        rw [hv] at h
        cases h
      | ok v' =>
        cases hrest : reconstructMembers all
            (deconstructMembers rest (deconstructBinary v atts).2).1 with
        | error e =>
          rw [hv, hrest] at h
          cases h
        | ok rest' =>
          rw [hv, hrest] at h
          cases h
          rw [claimedMembers, claimed_of_reconstruct all v atts hv,
            claimed_of_reconstructMembers all rest _ hrest]
          rfl

end

mutual

/-- Nothing claimed means no such object at all. -/
theorem noPlaceholder_of_claimed : ∀ v : Json, claimed v = [] →
    v.everyNode nodeNoPlaceholder = true
  | .arr items, h => by
      simp only [everyNode, Bool.and_eq_true]
      exact ⟨rfl, noPlaceholder_of_claimedItems items h⟩
  | .obj members, h => by
      simp only [claimed] at h
      split at h
      · cases h
      · rename_i hplain
        simp only [everyNode, nodeNoPlaceholder, Bool.and_eq_true, Bool.not_eq_true']
        exact ⟨Bool.eq_false_iff.mpr hplain, noPlaceholder_of_claimedMembers members h⟩
  | .null, _ | .bool _, _ | .int _, _ | .float _, _ | .str _, _ | .binary _ _, _ => rfl

theorem noPlaceholder_of_claimedItems : ∀ items : List Json, claimedItems items = [] →
    everyItem nodeNoPlaceholder items = true
  | [], _ => rfl
  | v :: rest, h => by
      simp only [claimedItems, List.append_eq_nil_iff] at h
      simp only [everyItem, Bool.and_eq_true]
      exact ⟨noPlaceholder_of_claimed v h.1, noPlaceholder_of_claimedItems rest h.2⟩

theorem noPlaceholder_of_claimedMembers : ∀ members : List (Bytes × Json),
    claimedMembers members = [] → everyMember nodeNoPlaceholder members = true
  | [], _ => rfl
  | (_, v) :: rest, h => by
      simp only [claimedMembers, List.append_eq_nil_iff] at h
      simp only [everyMember, Bool.and_eq_true]
      exact ⟨noPlaceholder_of_claimed v h.1, noPlaceholder_of_claimedMembers rest h.2⟩

end

/-! ## Packets -/

/-- The frames of the packet, fed to a fresh parser, give packets with its
payload only. -/
def NeverDifferent (T : JsonText) (p : Packet) : Prop :=
  ∀ frames, encode T p = .ok frames → ∃ packets out parser,
    decodeAll T {} {} frames = .ok (packets, out, parser) ∧ ∀ q ∈ packets, q.data = p.data

/-- A negative id is not written. -/
theorem encode_negative_id {T : JsonText} {p : Packet} (h : p.id < 0) :
    encode T p = encode T { p with id := -1 } := by
  have hheader : ∀ type n, header type n p.nsp p.id = header type n p.nsp (-1) := by
    intro type n
    rw [header_eq, header_eq, writtenId, writtenId, if_neg (by omega), if_neg (by decide)]
  simp only [encode, hheader]

/-- The packets of a header and its attachments. -/
theorem decodeAll_written {T : JsonText} {p : Packet} {text : Bytes} (hp : Writable T p)
    (hcount : p.data.binaryCount ≤ intMax)
    (hheader : decodeHeader T text
      = some { received p with data := (deconstructBinary p.data []).1 }) :
    ∃ out parser, decodeAll T {} {} (⟨text, false⟩ ::
        (deconstructBinary p.data []).2.map (fun a => ⟨a, true⟩))
      = .ok (if p.data.binaryCount = 0 then [received p]
          else if hasValidPlaceholders (deconstructBinary p.data []).1 p.data.binaryCount then
            [{ received p with
              data := fill (deconstructBinary p.data []).2 (deconstructBinary p.data []).1 }]
          else [], out, parser) := by
  have hlen := deconstructBinary_length p.data []
  simp only [List.length_nil, Nat.zero_add] at hlen
  have hbinary := (normalizeType_eq (deconstructBinary p.data []).2
    (by rw [hlen]; exact hp.binary)).2
  rw [hlen] at hbinary
  by_cases hzero : p.data.binaryCount = 0
  · have hnone := deconstructBinary_none p.data [] hzero
    have hplain : (received p).type.isBinary = false := by
      rw [Bool.eq_false_iff]
      intro h
      have := hbinary.mp h
      omega
    simp only [hnone] at hheader ⊢
    have htext : decode T {} text false {} = .ok ⟨true, received p, {}⟩ := by
      simp only [decode, Bool.false_eq_true, if_false, decodeText, hheader]
      rw [if_neg (by simp [hplain])]
      rfl
    refine ⟨received p, {}, ?_⟩
    simp only [List.map_nil, decodeAll, htext, if_true, if_pos hzero]
  · have hbin : (received p).type.isBinary = true := hbinary.mpr (by omega)
    rw [if_neg hzero]
    cases hvalid : hasValidPlaceholders (deconstructBinary p.data []).1 p.data.binaryCount with
    | false =>
      have htext : decode T {} text false {} = .ok ⟨false, {}, {}⟩ := by
        simp only [decode, Bool.false_eq_true, if_false, decodeText, hheader, hbin, if_true]
        have hcounted : (received p).attachments = p.data.binaryCount := rfl
        rw [if_neg (by rw [hcounted, hvalid]; simp)]
      refine ⟨{}, {}, ?_⟩
      rw [if_neg (by simp)]
      exact decodeAll_cons (d := ⟨false, {}, {}⟩) htext (decodeAll_surplus _ _)
    | true =>
      have htext : decode T {} text false {} = .ok ⟨false, {},
          ⟨some { received p with data := (deconstructBinary p.data []).1 }, []⟩⟩ := by
        simp only [decode, Bool.false_eq_true, if_false, decodeText, hheader, hbin, if_true]
        rw [if_pos (by exact hvalid)]
      have hannounces : Announces { received p with data := (deconstructBinary p.data []).1 } :=
        ⟨hbin, by simp only [received]; omega, hcount, hvalid⟩
      obtain ⟨out, parser, hrest⟩ := decodeAll_attachments (T := T) hannounces
        (deconstructBinary p.data []).2 [] {} (by simp only [received, List.length_nil]; omega)
      refine ⟨out, parser, ?_⟩
      have hall : (deconstructBinary p.data []).2.take p.data.binaryCount
          = (deconstructBinary p.data []).2 := List.take_of_length_le (by omega)
      rw [decodeAll_cons htext hrest]
      simp [received, hlen, hall]

theorem neverDifferent_of_writable {T : JsonText} (hT : T.Lawful) {p : Packet}
    (hp : Writable T p) (hsubtype : p.data.everyNode nodeNoSubtype = true) :
    NeverDifferent T p ↔ ¬ Collides p.data ∨ p.data.binaryCount > intMax := by
  by_cases hmany : p.data.binaryCount > intMax
  · refine iff_of_true (fun frames hframes => ?_) (.inr hmany)
    rw [encode_tooMany hp hmany] at hframes
    cases hframes
  have hcount : p.data.binaryCount ≤ intMax := by omega
  obtain ⟨text, hframes, hheader⟩ := encode_frames hT hp hcount
  obtain ⟨out, parser, hdecode⟩ := decodeAll_written hp hcount hheader
  have hlen := deconstructBinary_length p.data []
  simp only [List.length_nil, Nat.zero_add] at hlen
  have hfit : (deconstructBinary p.data []).2.length ≤ 2 ^ 64 := by
    simp only [intMax] at hcount
    omega
  rw [or_iff_left hmany]
  constructor
  · -- after a collision the packet that arrives has another payload
    rintro hnever hcollides
    have hzero := hcollides.binaryCount_ne_zero
    obtain ⟨hclaimed, hperm⟩ := hcollides
    obtain ⟨packets, out', parser', hdecode', hdata⟩ := hnever _ hframes
    rw [hdecode'] at hdecode
    simp only [Except.ok.injEq, Prod.mk.injEq] at hdecode
    have hvalid := (hasValidPlaceholders_iff p.data).mpr hperm
    rw [if_neg hzero, if_pos hvalid] at hdecode
    have hequal : fill (deconstructBinary p.data []).2 (deconstructBinary p.data []).1 = p.data :=
      hdata _ (by rw [hdecode.1]; exact List.mem_singleton.mpr rfl)
    have hback := reconstruct_of_valid hfit (by rw [hlen]; exact hvalid)
    rw [hequal] at hback
    exact hclaimed (claimed_of_reconstruct _ p.data [] hback)
  · intro hnot frames hframes'
    rw [hframes] at hframes'
    cases hframes'
    refine ⟨_, out, parser, hdecode, fun q hq => ?_⟩
    split at hq
    · cases List.mem_singleton.mp hq
      rfl
    · split at hq
      · rename_i hvalid
        cases List.mem_singleton.mp hq
        -- the check passed without a collision, so there is nothing to collide with
        have hclaimed : claimed p.data = [] := by
          by_contra hclaimed
          exact hnot ⟨hclaimed, (hasValidPlaceholders_iff p.data).mp hvalid⟩
        have hback := reconstruct_deconstruct _ hfit p.data []
          (noPlaceholder_of_claimed p.data hclaimed) hsubtype (List.prefix_refl _)
        rw [reconstruct_of_valid hfit (by rw [hlen]; exact hvalid)] at hback
        exact Except.ok.inj hback
      · cases hq

/-- **When a payload cannot arrive changed.** An event or acknowledgement
on the root namespace whose payload is an array arrives with its payload
or not at all, exactly if its payload has no collision (or has more binary
values than `encode` takes). -/
theorem neverDifferent_iff (T : JsonText) (hT : T.Lawful) (p : Packet)
    (htype : p.type.carriesBinary = true) (hnsp : p.nsp = ascii "/") (hid : p.id ≤ intMax)
    (harray : p.data.isArray = true) (htextual : p.data.everyNode nodeTextual = true)
    (hsubtype : p.data.everyNode nodeNoSubtype = true) :
    NeverDifferent T p ↔ ¬ Collides p.data ∨ p.data.binaryCount > intMax := by
  have hwritable : ∀ id : Int, -1 ≤ id → id ≤ intMax → Writable T { p with id } := by
    intro id hlo hhi
    refine ⟨.inl htype, .inr ?_, ⟨hlo, hhi⟩, .inr (noDigitText_container hT (.inl harray)),
      htextual⟩
    rw [hnsp]
    exact ⟨rfl, by decide⟩
  by_cases hneg : p.id < 0
  · have hsame : NeverDifferent T p ↔ NeverDifferent T { p with id := -1 } := by
      unfold NeverDifferent
      rw [encode_negative_id hneg]
    rw [hsame]
    exact neverDifferent_of_writable hT (hwritable (-1) (by decide) (by decide)) hsubtype
  · exact neverDifferent_of_writable hT (hwritable p.id (by omega) hid) hsubtype

/-- An event whose argument has a `"_placeholder"` of its own and a binary
value in it. -/
def disguised : Packet where
  data := .arr [.str (ascii "a"), .obj [(placeholderKey, .bool true), (numKey, .int 0),
    (ascii "x", .binary [0xAA] none)]]

/-- The same with a number no binary value has. -/
def refused : Packet where
  data := .arr [.str (ascii "a"), .obj [(placeholderKey, .bool true), (numKey, .int 1),
    (ascii "x", .binary [0xAA] none)]]

theorem neverDifferent_iff_refused :
    NeverDifferent ReferenceText.referenceText refused ↔
      ¬ Collides refused.data ∨ refused.data.binaryCount > intMax :=
  neverDifferent_iff ReferenceText.referenceText ReferenceText.referenceText_lawful refused rfl rfl
    (by decide) rfl (by decide) (by decide)

/-- The argument arrives as a binary value. -/
theorem disguised_arrives_different : ∃ frames packets out parser,
    encode ReferenceText.referenceText disguised = .ok frames ∧
    decodeAll ReferenceText.referenceText {} {} frames = .ok (packets, out, parser) ∧
    packets.map (·.data) = [.arr [.str (ascii "a"), .binary [0xAA] none]] ∧
    ¬ NeverDifferent ReferenceText.referenceText disguised := by
  have hwritable : Writable ReferenceText.referenceText disguised :=
    ⟨.inl rfl, .inr ⟨rfl, by decide⟩, by decide,
      .inr (noDigitText_container ReferenceText.referenceText_lawful (.inl rfl)), by decide⟩
  obtain ⟨text, hframes, hheader⟩ :=
    encode_frames ReferenceText.referenceText_lawful hwritable (by decide)
  obtain ⟨out, parser, hdecode⟩ := decodeAll_written hwritable (by decide) hheader
  rw [if_neg (by decide), if_pos (by decide)] at hdecode
  refine ⟨_, _, out, parser, hframes, hdecode, rfl, fun hnever => ?_⟩
  obtain ⟨packets, out', parser', hdecode', hdata⟩ := hnever _ hframes
  rw [hdecode] at hdecode'
  cases hdecode'
  have hequal := hdata _ (List.mem_singleton.mpr rfl)
  cases hequal

end Sioxx.JsonParser
