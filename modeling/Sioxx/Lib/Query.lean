/-
Sioxx.Lib.Query — percent-encoding and query strings.

A query string is a list of fields joined by `&`, each a name and a value
joined by `=`. The reader splits at every `&` and at the first `=` and
undoes the percent-encoding of both sides (`readQuery`). A writer that
percent-encodes every byte outside a set of plain ones is read back exactly
(`readQuery_fields`) if the set has neither of the two delimiters and no
percent sign, whatever bytes the names and values have.
-/
import Sioxx.Lib.Bytes

namespace Sioxx.Lib

/-- An upper-case hexadecimal digit. -/
def hexDigit (n : Nat) : UInt8 := UInt8.ofNat (if n < 10 then 48 + n else 55 + n)

/-- The value of a hexadecimal digit in either case. -/
def hexValue (b : UInt8) : Option Nat :=
  if 48 ≤ b.toNat ∧ b.toNat ≤ 57 then some (b.toNat - 48)
  else if 65 ≤ b.toNat ∧ b.toNat ≤ 70 then some (b.toNat - 55)
  else if 97 ≤ b.toNat ∧ b.toNat ≤ 102 then some (b.toNat - 87)
  else none

def percent : UInt8 := byteOf '%'

/-- One byte, as itself if it is plain. -/
def percentEncodeByte (plain : UInt8 → Bool) (b : UInt8) : Bytes :=
  if plain b then [b] else [percent, hexDigit (b.toNat / 16), hexDigit (b.toNat % 16)]

def percentEncode (plain : UInt8 → Bool) (s : Bytes) : Bytes := s.flatMap (percentEncodeByte plain)

/-- A percent sign without two hexadecimal digits stands for itself. -/
def percentDecode : Bytes → Bytes
  | [] => []
  | [b] => [b]
  | [b, c] => [b, c]
  | b :: hi :: lo :: rest =>
    if b = percent then
      match hexValue hi, hexValue lo with
      | some h, some l => UInt8.ofNat (h * 16 + l) :: percentDecode rest
      | _, _ => b :: percentDecode (hi :: lo :: rest)
    else b :: percentDecode (hi :: lo :: rest)

/-- What stands before and behind the first `c`. -/
def splitFirst (c : UInt8) (s : Bytes) : Bytes × Bytes :=
  (s.takeWhile (· ≠ c), (s.dropWhile (· ≠ c)).tail)

def readField (field : Bytes) : Bytes × Bytes :=
  let (name, value) := splitFirst (byteOf '=') field
  (percentDecode name, percentDecode value)

/-- The fields of a query string. -/
def readQuery (query : Bytes) : List (Bytes × Bytes) :=
  (query.splitOn (byteOf '&')).map readField

/-- A name and a value as a field. -/
def writeField (plain : UInt8 → Bool) (field : Bytes × Bytes) : Bytes :=
  percentEncode plain field.1 ++ byteOf '=' :: percentEncode plain field.2

/-! ## Percent-encoding is undone -/

theorem hexValue_hexDigit : ∀ n, n < 16 → hexValue (hexDigit n) = some n := by decide

theorem percentDecode_cons {b : UInt8} (hb : b ≠ percent) (rest : Bytes) :
    percentDecode (b :: rest) = b :: percentDecode rest := by
  match rest with
  | [] => rfl
  | [_] => rfl
  | _ :: _ :: _ => rw [percentDecode, if_neg hb]

variable {plain : UInt8 → Bool}

theorem percentDecode_encodeByte (hplain : plain percent = false) (b : UInt8) (rest : Bytes) :
    percentDecode (percentEncodeByte plain b ++ rest) = b :: percentDecode rest := by
  rw [percentEncodeByte]
  split
  · rename_i hb
    have hne : b ≠ percent := by
      rintro rfl
      rw [hplain] at hb
      cases hb
    exact percentDecode_cons hne rest
  · have hbound : b.toNat < 256 := UInt8.toNat_lt b
    have hhi := hexValue_hexDigit (b.toNat / 16) (by omega)
    have hlo := hexValue_hexDigit (b.toNat % 16) (by omega)
    have hvalue : b.toNat / 16 * 16 + b.toNat % 16 = b.toNat := by omega
    simp only [List.cons_append, List.nil_append, percentDecode, if_true, hhi, hlo, hvalue,
      UInt8.ofNat_toNat]

theorem percentDecode_encode (hplain : plain percent = false) (s : Bytes) :
    percentDecode (percentEncode plain s) = s := by
  induction s with
  | nil => rfl
  | cons b s ih =>
    rw [percentEncode, List.flatMap_cons, percentDecode_encodeByte hplain]
    rw [percentEncode] at ih
    rw [ih]

/-- What is not plain occurs in what is written only as part of an escape. -/
theorem notMem_percentEncode {c : UInt8} (hplain : plain c = false) (hpercent : c ≠ percent)
    (hhex : hexValue c = none) (s : Bytes) : c ∉ percentEncode plain s := by
  intro hmem
  obtain ⟨b, -, hb⟩ := List.mem_flatMap.mp hmem
  have hdigit : ∀ n, n < 16 → c ≠ hexDigit n := by
    intro n hn heq
    rw [heq, hexValue_hexDigit n hn] at hhex
    cases hhex
  rw [percentEncodeByte] at hb
  split at hb
  · rename_i hpb
    rw [List.mem_singleton.mp hb, hpb] at hplain
    cases hplain
  · have hbound : b.toNat < 256 := UInt8.toNat_lt b
    simp only [List.mem_cons, List.not_mem_nil, or_false] at hb
    rcases hb with hb | hb | hb
    · exact hpercent hb
    · exact hdigit (b.toNat / 16) (by omega) hb
    · exact hdigit (b.toNat % 16) (by omega) hb

/-! ## Fields are read back -/

theorem splitFirst_append {c : UInt8} {s : Bytes} (hs : c ∉ s) (rest : Bytes) :
    splitFirst c (s ++ c :: rest) = (s, rest) := by
  have hne : ∀ b ∈ s, decide (b ≠ c) = true := by
    intro b hb
    simp only [ne_eq, decide_eq_true_eq]
    rintro rfl
    exact hs hb
  rw [splitFirst, List.takeWhile_append_of_pos hne, List.dropWhile_append_of_pos hne]
  simp

/-- The bytes a writer escapes for a reader. -/
structure Escapes (plain : UInt8 → Bool) : Prop where
  percent : plain percent = false
  ampersand : plain (byteOf '&') = false
  equals : plain (byteOf '=') = false

theorem readField_write (h : Escapes plain) (field : Bytes × Bytes) :
    readField (writeField plain field) = field := by
  rw [readField, writeField, splitFirst_append
    (notMem_percentEncode h.equals (by decide) (by decide) _)]
  simp only [percentDecode_encode h.percent]

theorem notMem_writeField {c : UInt8} (hplain : plain c = false) (hpercent : c ≠ percent)
    (hhex : hexValue c = none) (hequals : c ≠ byteOf '=') (field : Bytes × Bytes) :
    c ∉ writeField plain field := by
  rw [writeField, List.mem_append, List.mem_cons, not_or, not_or]
  exact ⟨notMem_percentEncode hplain hpercent hhex _, hequals,
    notMem_percentEncode hplain hpercent hhex _⟩

/-- No field has the delimiter of the fields. -/
theorem Escapes.ampersand_notMem (h : Escapes plain) (field : Bytes × Bytes) :
    byteOf '&' ∉ writeField plain field :=
  notMem_writeField h.ampersand (by decide) (by decide) (by decide) field

/-- Fields written one behind another are what the reader finds. -/
theorem readQuery_fields (h : Escapes plain) (fields : List (Bytes × Bytes)) :
    ∀ first : Bytes × Bytes,
      readQuery (writeField plain first ++
        fields.flatMap fun field => byteOf '&' :: writeField plain field) = first :: fields := by
  induction fields with
  | nil =>
    intro first
    simp [readQuery, List.splitOn_eq_singleton (h.ampersand_notMem first), readField_write h]
  | cons field fields ih =>
    intro first
    have hrest := ih field
    rw [readQuery] at hrest ⊢
    rw [List.flatMap_cons, List.cons_append,
      List.splitOn_append_cons_self_of_not_mem (h.ampersand_notMem first), List.map_cons, hrest,
      readField_write h]

end Sioxx.Lib
