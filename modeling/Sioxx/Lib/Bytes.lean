/-
Sioxx.Lib.Bytes — byte strings, decimal numerals and forward scanning.

A C++ `std::string` is a sequence of bytes, so text is `List UInt8` here
and no character encoding is assumed anywhere. The module has the three
things a hand-written decoder does with such a string: it looks for a
byte from a position on (`findFrom`), for a text (`findText`) or from the
end (`findLast`), it runs over digits (`digitRunEnd`) and it takes a slice
(`substr`). Each operation works with absolute
positions, as the library functions do; the lemmas say what it returns
on `pre ++ …` at position `pre.length`, which is the shape every decoder
proof meets.

`decimal` is `std::to_string` of a non-negative number and `digitsValue`
reads such a numeral back.
-/
import Mathlib.Algebra.Group.Int.Defs
import Mathlib.Algebra.Group.Nat.Defs
import Mathlib.Data.List.Basic

namespace Sioxx.Lib

abbrev Bytes := List UInt8

instance : LawfulBEq Bytes := inferInstanceAs (LawfulBEq (List UInt8))

/-- The byte of an ASCII character. -/
def byteOf (c : Char) : UInt8 := UInt8.ofNat c.toNat

/-- The bytes of an ASCII literal. -/
def ascii (s : String) : Bytes := s.toList.map byteOf

/-- `std::isdigit` on an unsigned char. -/
def isDigit (b : UInt8) : Bool := decide (48 ≤ b.toNat ∧ b.toNat ≤ 57)

/-- `b - '0'`. -/
def digitValue (b : UInt8) : Nat := b.toNat - 48

/-- `std::to_string` of a non-negative integer. -/
def decimal (n : Nat) : Bytes := (Nat.toDigits 10 n).map byteOf

/-- The number a digit string denotes, continuing from `acc`. -/
def digitsValue (acc : Nat) (ds : Bytes) : Nat :=
  ds.foldl (fun r b => r * 10 + digitValue b) acc

/-- `std::string::find(c, i)`; `none` is `npos`. -/
def findFrom (s : Bytes) (c : UInt8) (i : Nat) : Option Nat :=
  ((s.drop i).findIdx? (· == c)).map (i + ·)

/-- `std::string::find(text)`; `none` is `npos`. -/
def findText (text : Bytes) : Bytes → Option Nat
  | [] => if text.isEmpty then some 0 else none
  | b :: s => if text.isPrefixOf (b :: s) then some 0 else (findText text s).map (· + 1)

/-- `std::string::rfind(c)`; `none` is `npos`. -/
def findLast (c : UInt8) : Bytes → Option Nat
  | [] => none
  | b :: s =>
    match findLast c s with
    | some i => some (i + 1)
    | none => if b == c then some 0 else none

/-- `std::string::substr(i, n)`. -/
def substr (s : Bytes) (i n : Nat) : Bytes := (s.drop i).take n

/-- The first position from `i` on that does not hold a digit. -/
def digitRunEnd (s : Bytes) (i : Nat) : Nat :=
  i + ((s.drop i).takeWhile isDigit).length

/-! ## Decimal numerals -/

theorem byteOf_digitChar : ∀ d, d < 10 →
    isDigit (byteOf (Nat.digitChar d)) = true ∧ digitValue (byteOf (Nat.digitChar d)) = d := by
  decide

/-- A numeral is the numeral of the leading digits followed by the last
digit; this is the recursion every fact about `decimal` uses. -/
theorem decimal_rec (n : Nat) :
    decimal n = if n < 10 then [byteOf (Nat.digitChar n)]
      else decimal (n / 10) ++ [byteOf (Nat.digitChar (n % 10))] := by
  rw [decimal, Nat.toDigits_eq_if (by decide)]
  split
  · rfl
  · simp [decimal]

theorem decimal_ne_nil (n : Nat) : decimal n ≠ [] := by
  rw [decimal_rec]; split <;> simp

theorem isDigit_of_mem_decimal (n : Nat) : ∀ b ∈ decimal n, isDigit b = true := by
  induction n using Nat.strongRecOn with
  | _ n ih =>
    rw [decimal_rec]
    split
    · rename_i h
      intro b hb
      rw [List.mem_singleton.mp hb]
      exact (byteOf_digitChar n h).1
    · rename_i h
      intro b hb
      rcases List.mem_append.mp hb with hb | hb
      · exact ih (n / 10) (by omega) b hb
      · rw [List.mem_singleton.mp hb]
        exact (byteOf_digitChar (n % 10) (by omega)).1

/-- Reading a numeral back gives the number. -/
theorem digitsValue_decimal (n : Nat) : digitsValue 0 (decimal n) = n := by
  induction n using Nat.strongRecOn with
  | _ n ih =>
    rw [decimal_rec]
    split
    · rename_i h
      simp [digitsValue, (byteOf_digitChar n h).2]
    · rename_i h
      have hrec := ih (n / 10) (by omega)
      simp only [digitsValue, List.foldl_append, List.foldl_cons, List.foldl_nil] at hrec ⊢
      rw [hrec, (byteOf_digitChar (n % 10) (by omega)).2]
      omega

/-! ## Scanning from a position -/

/-- Slicing at the end of a known front part leaves the rest. -/
theorem drop_length_append (pre rest : Bytes) : (pre ++ rest).drop pre.length = rest := by
  simp

theorem substr_append (pre mid rest : Bytes) :
    substr (pre ++ (mid ++ rest)) pre.length mid.length = mid := by
  simp [substr]

/-- `findFrom` stops at the first occurrence after the start position. -/
theorem findFrom_append (pre mid rest : Bytes) (c : UInt8) (hmid : c ∉ mid) :
    findFrom (pre ++ (mid ++ c :: rest)) c pre.length = some (pre.length + mid.length) := by
  have hidx : (mid ++ c :: rest).findIdx? (· == c) = some mid.length := by
    induction mid with
    | nil => simp [List.findIdx?_cons]
    | cons b mid ih =>
      have hb : (b == c) = false := by
        simp only [beq_eq_false_iff_ne]
        rintro rfl
        exact hmid (by simp)
      rw [List.cons_append, List.findIdx?_cons, hb]
      simp [ih (fun h => hmid (by simp [h]))]
  rw [findFrom, drop_length_append, hidx]
  rfl

theorem findFrom_none (pre rest : Bytes) (c : UInt8) (hrest : c ∉ rest) :
    findFrom (pre ++ rest) c pre.length = none := by
  have hidx : rest.findIdx? (· == c) = none := by
    rw [List.findIdx?_eq_none_iff]
    intro b hb
    rw [beq_eq_false_iff_ne]
    rintro rfl
    exact hrest hb
  rw [findFrom, drop_length_append, hidx]
  rfl

/-- What a search that succeeds has found. -/
theorem findFrom_some {pre s : Bytes} {c : UInt8} {k : Nat}
    (h : findFrom (pre ++ s) c pre.length = some k) :
    ∃ mid rest, s = mid ++ c :: rest ∧ c ∉ mid ∧ k = pre.length + mid.length := by
  rw [findFrom, drop_length_append, Option.map_eq_some_iff] at h
  obtain ⟨i, hi, rfl⟩ := h
  induction s generalizing i with
  | nil => simp at hi
  | cons b s ih =>
    rw [List.findIdx?_cons] at hi
    split at hi
    · rename_i hb
      cases hi
      refine ⟨[], s, ?_, by simp, rfl⟩
      rw [beq_iff_eq] at hb
      rw [hb, List.nil_append]
    · rename_i hb
      rw [Option.map_eq_some_iff] at hi
      obtain ⟨j, hj, rfl⟩ := hi
      obtain ⟨mid, rest, rfl, hmid, hlen⟩ := ih j hj
      refine ⟨b :: mid, rest, rfl, ?_, ?_⟩
      · rw [List.mem_cons, not_or]
        refine ⟨?_, hmid⟩
        rintro rfl
        simp at hb
      · simp only [List.length_cons]
        omega

theorem notMem_of_findFrom {pre s : Bytes} {c : UInt8}
    (h : findFrom (pre ++ s) c pre.length = none) : c ∉ s := by
  rw [findFrom, drop_length_append, Option.map_eq_none_iff, List.findIdx?_eq_none_iff] at h
  intro hmem
  have := h c hmem
  simp at this

/-- Every text is a run of digits and the rest. -/
theorem digits_split (s : Bytes) : ∃ ds rest, s = ds ++ rest ∧ (∀ b ∈ ds, isDigit b = true) ∧
    ∀ b ∈ rest.head?, isDigit b = false := by
  refine ⟨s.takeWhile isDigit, s.dropWhile isDigit, List.takeWhile_append_dropWhile.symm, ?_, ?_⟩
  · exact List.all_eq_true.mp List.all_takeWhile
  · intro b hb
    have hstop := List.head?_dropWhile_not isDigit s
    rw [Option.mem_def] at hb
    rw [hb] at hstop
    simpa using hstop

/-- The digit run from a position is the digits that stand there, up to
the first byte that is none. -/
theorem digitRunEnd_append (pre ds rest : Bytes) (hds : ∀ b ∈ ds, isDigit b = true)
    (hrest : ∀ b ∈ rest.head?, isDigit b = false) :
    digitRunEnd (pre ++ (ds ++ rest)) pre.length = pre.length + ds.length := by
  have htake : (ds ++ rest).takeWhile isDigit = ds := by
    rw [List.takeWhile_append_of_pos hds]
    cases rest with
    | nil => simp
    | cons b rest => simp [hrest b (by simp)]
  rw [digitRunEnd, drop_length_append, htake]

/-! ## Searching for a text, and from the end -/

/-- What a search for a text that succeeds has found. -/
theorem findText_some {text s : Bytes} {k : Nat} (h : findText text s = some k) :
    ∃ rest, s = s.take k ++ (text ++ rest) := by
  induction s generalizing k with
  | nil =>
    rw [findText] at h
    split at h
    · rename_i hempty
      cases h
      exact ⟨[], by simpa using hempty⟩
    · cases h
  | cons b s ih =>
    rw [findText] at h
    split at h
    · rename_i hfound
      cases h
      obtain ⟨rest, hrest⟩ := List.isPrefixOf_iff_prefix.mp hfound
      exact ⟨rest, by simpa using hrest.symm⟩
    · obtain ⟨i, hi, rfl⟩ := Option.map_eq_some_iff.mp h
      obtain ⟨rest, hrest⟩ := ih hi
      refine ⟨rest, ?_⟩
      rw [List.take_succ_cons, List.cons_append, ← hrest]

/-- A text whose first byte does not come back inside it is found where it
first stands whole. -/
theorem findText_append {c : UInt8} {more pre : Bytes} (hmore : c ∉ more)
    (hpre : ¬ (c :: more) <:+: pre) (rest : Bytes) :
    findText (c :: more) (pre ++ (c :: more ++ rest)) = some pre.length := by
  induction pre with
  | nil =>
    have hfound : (c :: more).isPrefixOf (c :: (more ++ rest)) = true :=
      List.isPrefixOf_iff_prefix.mpr (List.prefix_append (c :: more) rest)
    rw [List.nil_append, List.cons_append, findText, if_pos hfound]
    rfl
  | cons b pre ih =>
    -- an earlier match would lie inside `b :: pre` or begin there and end behind it
    have hnot : ¬ (c :: more) <+: b :: pre ++ (c :: more ++ rest) := by
      intro hmatch
      rcases List.prefix_or_prefix_of_prefix hmatch (List.prefix_append (b :: pre) _)
        with hin | ⟨u, hu⟩
      · exact hpre hin.isInfix
      · rw [← hu, List.prefix_append_right_inj] at hmatch
        cases u with
        | nil =>
          rw [List.append_nil] at hu
          exact hpre (hu ▸ List.infix_rfl)
        | cons d u =>
          obtain ⟨hfirst, hsame⟩ := List.cons.inj hu
          have hd : d = c := (List.cons_prefix_cons.mp hmatch).1.trans hfirst
          exact hmore (by rw [← hsame, hd]; simp)
    rw [List.cons_append, findText, if_neg (by rwa [List.isPrefixOf_iff_prefix]),
      ih (fun h => hpre (List.infix_cons h))]
    rfl

theorem findLast_none {c : UInt8} {s : Bytes} (hs : c ∉ s) : findLast c s = none := by
  induction s with
  | nil => rfl
  | cons b s ih =>
    rw [List.mem_cons, not_or] at hs
    rw [findLast, ih hs.2]
    simp [Ne.symm hs.1]

theorem findLast_append {c : UInt8} (pre : Bytes) {rest : Bytes} (hrest : c ∉ rest) :
    findLast c (pre ++ c :: rest) = some pre.length := by
  induction pre with
  | nil => simp [findLast, findLast_none hrest]
  | cons b pre ih => simp [findLast, ih]

end Sioxx.Lib
