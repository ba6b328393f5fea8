/-
Sioxx.Json.ReferenceText — a printer and a reader that satisfy
`JsonText.Lawful`.

The laws of `JsonText` are assumptions about a library. This module shows
that they can be met together: `referenceText` prints values the way
`nlohmann::json::dump()` does (no spaces, members in key order, the seven
short escapes and `\u00xx` for the other control characters, a binary
value as `{"bytes":[..],"subtype":..}`), and its reader takes exactly that
spelling back. The one liberty is a double, printed by its bit pattern
instead of its shortest decimal form.

Reading is by recursive descent with a fuel argument; the length of the
text is enough, because every call consumes at least one byte
(`readValue_print`).
-/
import Sioxx.Json.Value

namespace Sioxx.ReferenceText

open Lib

/-! ## Printing -/

def shortEscape (b : UInt8) : Option UInt8 :=
  if b = byteOf '"' then some (byteOf '"')
  else if b = byteOf '\\' then some (byteOf '\\')
  else if b = 8 then some (byteOf 'b')
  else if b = 9 then some (byteOf 't')
  else if b = 10 then some (byteOf 'n')
  else if b = 12 then some (byteOf 'f')
  else if b = 13 then some (byteOf 'r')
  else none

def hexDigit (n : Nat) : UInt8 := byteOf (Nat.digitChar n)

/-- A byte inside a string literal. -/
def escape (b : UInt8) : Bytes :=
  match shortEscape b with
  | some c => [byteOf '\\', c]
  | none =>
    if b.toNat < 32 then
      ascii "\\u00" ++ [hexDigit (b.toNat / 16), hexDigit (b.toNat % 16)]
    else [b]

def printString (s : Bytes) : Bytes := byteOf '"' :: s.flatMap escape ++ [byteOf '"']

def printInt (i : Int) : Bytes :=
  if i < 0 then byteOf '-' :: decimal i.natAbs else decimal i.natAbs

/-- The separator before an element. -/
def comma (first : Bool) : Bytes := if first then [] else [byteOf ',']

/-- A binary value is printed as an object of its bytes and its subtype. -/
def printBinary (bytes : Bytes) (subtype : Option UInt64) : Bytes :=
  let items := bytes.map (fun b => decimal b.toNat)
  ascii "\x7b\"bytes\":[" ++ ((items.intersperse [byteOf ',']).flatten) ++ ascii "],\"subtype\":"
    ++ (match subtype with
        | some n => decimal n.toNat
        | none => ascii "null")
    ++ ascii "\x7d"

mutual

def print : Json → Bytes
  | .null => ascii "null"
  | .bool true => ascii "true"
  | .bool false => ascii "false"
  | .int i => printInt i
  | .float bits => decimal bits.toNat ++ ascii ".0"
  | .str s => printString s
  | .arr items => byteOf '[' :: printItems true items
  | .obj members => byteOf '{' :: printMembers true members
  | .binary bytes subtype => printBinary bytes subtype

def printItems : Bool → List Json → Bytes
  | _, [] => [byteOf ']']
  | first, v :: rest => comma first ++ (print v ++ printItems false rest)

def printMembers : Bool → List (Bytes × Json) → Bytes
  | _, [] => [byteOf '}']
  | first, (k, v) :: rest =>
    comma first ++ (printString k ++ (byteOf ':' :: (print v ++ printMembers false rest)))

end

/-! ## Reading -/

def unescape (c : UInt8) : Option UInt8 :=
  if c = byteOf '"' then some (byteOf '"')
  else if c = byteOf '\\' then some (byteOf '\\')
  else if c = byteOf 'b' then some 8
  else if c = byteOf 't' then some 9
  else if c = byteOf 'n' then some 10
  else if c = byteOf 'f' then some 12
  else if c = byteOf 'r' then some 13
  else none

def hexValue (b : UInt8) : Nat :=
  if isDigit b then digitValue b else b.toNat - 87

/-- One byte of a string literal, escaped or not. -/
def readChar : Bytes → Option (UInt8 × Bytes)
  | [] => none
  | b :: rest =>
    if b = byteOf '\\' then
      match rest with
      | c :: rest =>
        match unescape c with
        | some b => some (b, rest)
        | none =>
          match rest with
          | _ :: _ :: hi :: lo :: rest => some (UInt8.ofNat (16 * hexValue hi + hexValue lo), rest)
          | _ => none
      | [] => none
    else some (b, rest)

/-- The rest of a string literal. -/
def readString : Nat → Bytes → Option (Bytes × Bytes)
  | 0, _ => none
  | fuel + 1, text =>
    if text.head? = some (byteOf '"') then some ([], text.tail)
    else
      match readChar text with
      | none => none
      | some (b, rest) =>
        match readString fuel rest with
        | none => none
        | some (s, rest) => some (b :: s, rest)

/-- A number that starts here, without its sign. -/
def readNumber (negative : Bool) (text : Bytes) : Option (Json × Bytes) :=
  let ds := text.takeWhile isDigit
  let rest := text.drop ds.length
  let n := digitsValue 0 ds
  if ds = [] then none
  else if rest.head? = some (byteOf '.') then some (.float (UInt64.ofNat n), rest.drop 2)
  else some (.int (if negative then -n else n), rest)

mutual

def readValue : Nat → Bytes → Option (Json × Bytes)
  | 0, _ => none
  | _ + 1, [] => none
  | fuel + 1, b :: rest =>
    if b = byteOf 'n' then some (.null, rest.drop 3)
    else if b = byteOf 't' then some (.bool true, rest.drop 3)
    else if b = byteOf 'f' then some (.bool false, rest.drop 4)
    else if b = byteOf '"' then (readString fuel rest).map (fun r => (.str r.1, r.2))
    else if b = byteOf '[' then (readItems fuel true rest).map (fun r => (.arr r.1, r.2))
    else if b = byteOf '{' then (readMembers fuel true rest).map (fun r => (.obj r.1, r.2))
    else if b = byteOf '-' then readNumber true rest
    else readNumber false (b :: rest)

def readItems : Nat → Bool → Bytes → Option (List Json × Bytes)
  | 0, _, _ => none
  | fuel + 1, first, text =>
    if text.head? = some (byteOf ']') then some ([], text.tail)
    else
      match readValue fuel (text.drop (comma first).length) with
      | none => none
      | some (v, rest) => (readItems fuel false rest).map (fun r => (v :: r.1, r.2))

def readMembers : Nat → Bool → Bytes → Option (List (Bytes × Json) × Bytes)
  | 0, _, _ => none
  | fuel + 1, first, text =>
    if text.head? = some (byteOf '}') then some ([], text.tail)
    else
      match readString fuel (text.drop ((comma first).length + 1)) with
      | none => none
      | some (k, rest) =>
        match readValue fuel rest.tail with
        | none => none
        | some (v, rest) => (readMembers fuel false rest).map (fun r => ((k, v) :: r.1, r.2))

end

/-- The reference printer and reader. -/
def referenceText : JsonText where
  dump v := if v.everyNode Json.nodeUtf8 then .ok (print v) else .error .typeError316
  parse text :=
    match readValue text.length text with
    | some (v, []) => some v
    | _ => none

/-! ## Strings -/

theorem unescape_shortEscape {b c : UInt8} (h : shortEscape b = some c) :
    unescape c = some b := by
  unfold shortEscape at h
  split_ifs at h
  all_goals
    cases h
    subst_vars
    decide

theorem readChar_escape (b : UInt8) (rest : Bytes) :
    readChar (escape b ++ rest) = some (b, rest) := by
  unfold escape
  cases hs : shortEscape b with
  | some c => simp [readChar, unescape_shortEscape hs]
  | none =>
    have hne : b ≠ byteOf '\\' := by
      rintro rfl
      revert hs
      decide
    by_cases hctl : b.toNat < 32
    · have hhex : ∀ n, n < 32 → UInt8.ofNat
          (16 * hexValue (hexDigit (n / 16)) + hexValue (hexDigit (n % 16))) = UInt8.ofNat n := by
        decide
      have hu : unescape (byteOf 'u') = none := by decide
      simp only [if_pos hctl]
      simp [readChar, ascii, hu, hhex _ hctl]
    · simp [readChar, hctl, hne]

theorem head_escape (b : UInt8) (rest : Bytes) :
    (escape b ++ rest).head? ≠ some (byteOf '"') := by
  have hslash : byteOf '\\' ≠ byteOf '"' := by decide
  unfold escape
  cases hs : shortEscape b with
  | some c => simpa using hslash
  | none =>
    have hne : b ≠ byteOf '"' := by
      rintro rfl
      revert hs
      decide
    dsimp only
    split
    · simpa [ascii] using hslash
    · simpa using hne

theorem escape_length (b : UInt8) : 1 ≤ (escape b).length := by
  unfold escape
  split
  · simp
  · split <;> simp

theorem readString_print (s rest : Bytes) : ∀ fuel, (s.flatMap escape).length < fuel →
    readString fuel (s.flatMap escape ++ byteOf '"' :: rest) = some (s, rest) := by
  induction s with
  | nil =>
    intro fuel hf
    cases fuel with
    | zero => omega
    | succ fuel => simp [readString]
  | cons b s ih =>
    intro fuel hf
    cases fuel with
    | zero => omega
    | succ fuel =>
      have hb := escape_length b
      simp only [List.flatMap_cons, List.length_append] at hf
      simp only [List.flatMap_cons, List.append_assoc, readString, if_neg (head_escape b _),
        readChar_escape, ih fuel (by omega)]

/-! ## Numbers -/

/-- What may follow a number: no further digit, no fraction. -/
def NumberEnd (rest : Bytes) : Prop :=
  ∀ b ∈ rest.head?, isDigit b = false ∧ b ≠ byteOf '.'

theorem takeWhile_decimal (n : Nat) (rest : Bytes) (h : ∀ b ∈ rest.head?, isDigit b = false) :
    (decimal n ++ rest).takeWhile isDigit = decimal n := by
  rw [List.takeWhile_append_of_pos (isDigit_of_mem_decimal n)]
  cases rest with
  | nil => simp
  | cons b rest => simp [h b (by simp)]

theorem readNumber_decimal (negative : Bool) (n : Nat) {rest : Bytes} (h : NumberEnd rest) :
    readNumber negative (decimal n ++ rest)
      = some (.int (if negative then -(n : Int) else n), rest) := by
  have hdot : rest.head? ≠ some (byteOf '.') := fun heq => (h _ heq).2 rfl
  simp only [readNumber, takeWhile_decimal n rest (fun b hb => (h b hb).1), drop_length_append,
    digitsValue_decimal, if_neg (decimal_ne_nil n), if_neg hdot]

theorem readNumber_float (negative : Bool) (bits : UInt64) (rest : Bytes) :
    readNumber negative (decimal bits.toNat ++ (ascii ".0" ++ rest))
      = some (.float bits, rest) := by
  have hend : ∀ b ∈ (ascii ".0" ++ rest).head?, isDigit b = false := by
    intro b hb
    simp only [ascii, String.reduceToList, List.map_cons, List.cons_append, List.head?_cons,
      Option.mem_def, Option.some.injEq] at hb
    subst hb
    decide
  simp only [readNumber, takeWhile_decimal _ _ hend, drop_length_append, digitsValue_decimal,
    if_neg (decimal_ne_nil _)]
  simp [ascii]

/-- A printed number starts with a sign or a digit, so with none of the
bytes that start another value. -/
theorem readValue_digits (fuel n : Nat) (rest : Bytes) :
    readValue (fuel + 1) (decimal n ++ rest) = readNumber false (decimal n ++ rest) := by
  have hne := decimal_ne_nil n
  have hdig := isDigit_of_mem_decimal n
  cases hd : decimal n with
  | nil => exact absurd hd hne
  | cons d ds =>
    have hdd : isDigit d = true := hdig d (by rw [hd]; simp)
    have hother : ∀ c : Char, isDigit (byteOf c) = false → d ≠ byteOf c := by
      rintro c hc rfl
      rw [hc] at hdd
      exact absurd hdd (by decide)
    simp [readValue, hother 'n' (by decide), hother 't' (by decide), hother 'f' (by decide),
      hother '"' (by decide), hother '[' (by decide), hother '{' (by decide),
      hother '-' (by decide)]

/-! ## Values -/

/-- No printed value is empty or starts with a closing bracket. -/
theorem print_head (v : Json) : ∃ b t, print v = b :: t ∧ b ≠ byteOf ']' ∧ b ≠ byteOf '/' := by
  have hdec : ∀ n (t : Bytes), ∃ b t', decimal n ++ t = b :: t' ∧
      b ≠ byteOf ']' ∧ b ≠ byteOf '/' := by
    intro n t
    have hdig := isDigit_of_mem_decimal n
    cases hd : decimal n with
    | nil => exact absurd hd (decimal_ne_nil n)
    | cons d ds =>
      have hdd : isDigit d = true := hdig d (by rw [hd]; simp)
      refine ⟨d, ds ++ t, rfl, ?_, ?_⟩
      all_goals
        rintro rfl
        revert hdd
        decide
  cases v with
  | null => exact ⟨_, _, rfl, by decide, by decide⟩
  | bool b => cases b <;> exact ⟨_, _, rfl, by decide, by decide⟩
  | int i =>
    simp only [print, printInt]
    split
    · exact ⟨_, _, rfl, by decide, by decide⟩
    · simpa using hdec i.natAbs []
  | float bits => exact hdec _ _
  | str s => exact ⟨_, _, rfl, by decide, by decide⟩
  | arr items => exact ⟨_, _, rfl, by decide, by decide⟩
  | obj members => exact ⟨_, _, rfl, by decide, by decide⟩
  | binary bytes subtype =>
    simp only [print, printBinary, ascii, String.reduceToList, List.map_cons, List.cons_append]
    exact ⟨_, _, rfl, by decide, by decide⟩

/-- After a value comes a comma or a closing bracket, never a number. -/
theorem numberEnd_cons {b : UInt8} (rest : Bytes) (h : isDigit b = false ∧ b ≠ byteOf '.') :
    NumberEnd (b :: rest) := by
  intro c hc
  simp only [List.head?_cons, Option.mem_def, Option.some.injEq] at hc
  subst hc
  exact h

theorem numberEnd_items (items : List Json) (rest : Bytes) :
    NumberEnd (printItems false items ++ rest) := by
  cases items <;> exact numberEnd_cons _ (by decide)

theorem numberEnd_members (members : List (Bytes × Json)) (rest : Bytes) :
    NumberEnd (printMembers false members ++ rest) := by
  cases members <;> exact numberEnd_cons _ (by decide)

theorem printItems_length (first : Bool) (items : List Json) :
    1 ≤ (printItems first items).length := by
  cases items with
  | nil => simp [printItems]
  | cons v rest =>
    obtain ⟨b, t, hb, -⟩ := print_head v
    simp only [printItems, hb, List.length_append, List.length_cons]
    omega

theorem printMembers_length (first : Bool) (members : List (Bytes × Json)) :
    1 ≤ (printMembers first members).length := by
  cases members with
  | nil => simp [printMembers]
  | cons m rest =>
    simp only [printMembers, List.length_append, List.length_cons]
    omega

/-- The separator is skipped, and no closing bracket is mistaken. -/
theorem comma_head (first : Bool) {b c : UInt8} (t : Bytes) (hb : b ≠ c)
    (hc : c ≠ byteOf ',') : (comma first ++ b :: t).head? ≠ some c := by
  cases first
  · simpa [comma] using hc.symm
  · simpa [comma] using hb

mutual

/-- Reading a printed value gives it back and leaves what follows. -/
theorem readValue_print : ∀ (v : Json) (fuel : Nat) (rest : Bytes),
    v.everyNode Json.nodeNoBinary = true → (print v).length ≤ fuel → NumberEnd rest →
    readValue fuel (print v ++ rest) = some (v, rest)
  | v, 0, rest, _, hf, _ => by
      obtain ⟨b, t, hb, -⟩ := print_head v
      simp [hb] at hf
  | .null, fuel + 1, rest, _, _, _ => by simp [print, ascii, readValue]
  | .bool true, fuel + 1, rest, _, _, _ => by
      have : byteOf 't' ≠ byteOf 'n' := by decide
      simp [print, ascii, readValue, this]
  | .bool false, fuel + 1, rest, _, _, _ => by
      have h1 : byteOf 'f' ≠ byteOf 'n' := by decide
      have h2 : byteOf 'f' ≠ byteOf 't' := by decide
      simp [print, ascii, readValue, h1, h2]
  | .int i, fuel + 1, rest, _, _, hend => by
      simp only [print, printInt]
      split
      · rename_i hneg
        have hother : byteOf '-' ≠ byteOf 'n' ∧ byteOf '-' ≠ byteOf 't' ∧
            byteOf '-' ≠ byteOf 'f' ∧ byteOf '-' ≠ byteOf '"' ∧ byteOf '-' ≠ byteOf '[' ∧
            byteOf '-' ≠ byteOf '{' := by decide
        obtain ⟨h1, h2, h3, h4, h5, h6⟩ := hother
        simp only [List.cons_append, readValue, if_neg h1, if_neg h2, if_neg h3, if_neg h4,
          if_neg h5, if_neg h6, if_true, readNumber_decimal true i.natAbs hend]
        simp only [Option.some.injEq, Prod.mk.injEq, Json.int.injEq, and_true]
        omega
      · rename_i hpos
        rw [readValue_digits, readNumber_decimal false i.natAbs hend]
        simp only [Bool.false_eq_true, if_false, Option.some.injEq, Prod.mk.injEq,
          Json.int.injEq, and_true]
        omega
  | .float bits, fuel + 1, rest, _, _, _ => by
      simp only [print, List.append_assoc]
      rw [readValue_digits, readNumber_float]
  | .str s, fuel + 1, rest, _, hf, _ => by
      have hother : byteOf '"' ≠ byteOf 'n' ∧ byteOf '"' ≠ byteOf 't' ∧
          byteOf '"' ≠ byteOf 'f' := by decide
      obtain ⟨h1, h2, h3⟩ := hother
      simp only [print, printString, List.length_append, List.length_cons, List.length_nil] at hf
      simp only [print, printString, List.cons_append, List.append_assoc, List.nil_append,
        readValue, if_neg h1, if_neg h2, if_neg h3, if_true,
        readString_print s rest fuel (by omega), Option.map_some]
  | .arr items, fuel + 1, rest, hnb, hf, _ => by
      have hother : byteOf '[' ≠ byteOf 'n' ∧ byteOf '[' ≠ byteOf 't' ∧
          byteOf '[' ≠ byteOf 'f' ∧ byteOf '[' ≠ byteOf '"' := by decide
      obtain ⟨h1, h2, h3, h4⟩ := hother
      simp only [Json.everyNode, Bool.and_eq_true] at hnb
      simp only [print, List.length_cons] at hf
      simp only [print, List.cons_append, readValue, if_neg h1, if_neg h2, if_neg h3, if_neg h4,
        if_true, readItems_print items fuel true rest hnb.2 (by omega), Option.map_some]
  | .obj members, fuel + 1, rest, hnb, hf, _ => by
      have hother : byteOf '{' ≠ byteOf 'n' ∧ byteOf '{' ≠ byteOf 't' ∧
          byteOf '{' ≠ byteOf 'f' ∧ byteOf '{' ≠ byteOf '"' ∧ byteOf '{' ≠ byteOf '[' := by
        decide
      obtain ⟨h1, h2, h3, h4, h5⟩ := hother
      simp only [Json.everyNode, Bool.and_eq_true] at hnb
      simp only [print, List.length_cons] at hf
      simp only [print, List.cons_append, readValue, if_neg h1, if_neg h2, if_neg h3, if_neg h4,
        if_neg h5, if_true, readMembers_print members fuel true rest hnb.2 (by omega),
        Option.map_some]
  | .binary _ _, _ + 1, _, hnb, _, _ => by simp [Json.everyNode, Json.nodeNoBinary] at hnb

theorem readItems_print : ∀ (items : List Json) (fuel : Nat) (first : Bool) (rest : Bytes),
    Json.everyItem Json.nodeNoBinary items = true → (printItems first items).length ≤ fuel →
    readItems fuel first (printItems first items ++ rest) = some (items, rest)
  | items, 0, first, rest, _, hf => by
      have := printItems_length first items
      omega
  | [], fuel + 1, first, rest, _, _ => by simp [printItems, readItems]
  | v :: items, fuel + 1, first, rest, hnb, hf => by
      simp only [Json.everyItem, Bool.and_eq_true] at hnb
      obtain ⟨b, t, hb, hclose, -⟩ := print_head v
      have htail := printItems_length false items
      have hlen : (print v).length = t.length + 1 := by rw [hb]; rfl
      simp only [printItems, List.length_append] at hf
      have hv := readValue_print v fuel (printItems false items ++ rest) hnb.1 (by omega)
        (numberEnd_items items rest)
      have hrest := readItems_print items fuel false rest hnb.2 (by omega)
      simp only [printItems, List.append_assoc, readItems]
      rw [if_neg (by rw [hb]; exact comma_head first _ hclose (by decide)), drop_length_append, hv]
      simp only [hrest, Option.map_some]

theorem readMembers_print : ∀ (members : List (Bytes × Json)) (fuel : Nat) (first : Bool)
    (rest : Bytes), Json.everyMember Json.nodeNoBinary members = true →
    (printMembers first members).length ≤ fuel →
    readMembers fuel first (printMembers first members ++ rest) = some (members, rest)
  | members, 0, first, rest, _, hf => by
      have := printMembers_length first members
      omega
  | [], fuel + 1, first, rest, _, _ => by simp [printMembers, readMembers]
  | (k, v) :: members, fuel + 1, first, rest, hnb, hf => by
      simp only [Json.everyMember, Bool.and_eq_true] at hnb
      have htail := printMembers_length false members
      simp only [printMembers, printString, List.length_append, List.length_cons,
        List.length_nil] at hf
      have hv := readValue_print v fuel (printMembers false members ++ rest) hnb.1 (by omega)
        (numberEnd_members members rest)
      have hrest := readMembers_print members fuel false rest hnb.2 (by omega)
      have hkey := readString_print k (byteOf ':' :: (print v ++ (printMembers false members
        ++ rest))) fuel (by omega)
      have hdrop : ∀ t : Bytes, (comma first ++ byteOf '"' :: t).drop ((comma first).length + 1)
          = t := by
        intro t
        cases first <;> simp [comma]
      simp only [printMembers, printString, List.append_assoc, List.cons_append, List.nil_append,
        readMembers]
      rw [if_neg (comma_head first _ (by decide) (by decide)), hdrop, hkey]
      simp only [List.tail_cons, hv, hrest, Option.map_some]

end

/-- The laws can be met together. -/
theorem referenceText_lawful : referenceText.Lawful where
  dump_total v hv := ⟨print v, by simp [referenceText, hv]⟩
  parse_dump v t hv ht := by
    simp only [referenceText] at ht
    split at ht
    · cases ht
      simp only [Json.dumpable, Bool.and_eq_true] at hv
      have hend : NumberEnd [] := fun b hb => by simp at hb
      have h := readValue_print v (print v).length [] hv.2 (Nat.le_refl _) hend
      rw [List.append_nil] at h
      simp only [referenceText, h]
    · cases ht
  dump_head v t ht := by
    simp only [referenceText] at ht
    split at ht
    · cases ht
      obtain ⟨b, t, hb, -, hslash⟩ := print_head v
      exact ⟨b, t, hb, hslash⟩
    · cases ht
  dump_arr items t ht := by
    simp only [referenceText] at ht
    split at ht
    · cases ht; rfl
    · cases ht
  dump_obj members t ht := by
    simp only [referenceText] at ht
    split at ht
    · cases ht; rfl
    · cases ht

end Sioxx.ReferenceText
