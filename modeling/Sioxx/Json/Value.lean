/-
Sioxx.Json.Value — the JSON values of the library, and what is assumed
of the functions that print and parse them.

`sioxx::json` is `nlohmann::json` (`message.hpp`). `Json` has its seven
kinds of value. Two identifications are made, both invisible to the
library's own `operator==`:

* `number_integer` and `number_unsigned` compare by value, so one
  constructor `int` carries the mathematical value of both;
* a `number_float` is its IEEE-754 bit pattern, so equality here is finer
  than the comparison of doubles.

An object is the key-sorted member list of the `std::map` behind it;
`nodeRepresentable` states the order and the 64-bit range of integers,
which hold of every value the library can build.

`nlohmann::json` itself is not part of the repository. Its printer and
parser are the fields of `JsonText`, and `JsonText.Lawful` lists the
documented behaviour the code relies on. `value(key, default)` and the
conversions behind it are short enough to be written out.
-/
import Mathlib.Data.List.Basic
import Sioxx.Lib.Bytes

namespace Sioxx

open Lib

inductive Json where
  | null
  | bool (b : Bool)
  | int (i : Int)
  | float (bits : UInt64)
  | str (s : Bytes)
  | arr (items : List Json)
  | obj (members : List (Bytes × Json))
  | binary (bytes : Bytes) (subtype : Option UInt64)
  deriving Repr

/-- The exceptions of `nlohmann::json` the library meets, by their number:
a value of another type than asked for (302), `value()` on something that
is no object (306), a string that is not UTF-8 in `dump()` (316). -/
inductive JsonError where
  | typeError302
  | typeError306
  | typeError316
  deriving DecidableEq, Repr

namespace Json

instance : Inhabited Json := ⟨.null⟩

def isNull : Json → Bool
  | .null => true
  | _ => false

def isArray : Json → Bool
  | .arr _ => true
  | _ => false

def isObject : Json → Bool
  | .obj _ => true
  | _ => false

/-- `find(key)` on the members of an object. -/
def lookup (key : Bytes) : List (Bytes × Json) → Option Json
  | [] => none
  | (k, v) :: rest => if k = key then some v else lookup key rest

/-! ## Properties of every node of a value -/

mutual

/-- `p` holds of the value and of every value inside it. -/
def everyNode (p : Json → Bool) : Json → Bool
  | .arr items => p (.arr items) && everyItem p items
  | .obj members => p (.obj members) && everyMember p members
  | v => p v

def everyItem (p : Json → Bool) : List Json → Bool
  | [] => true
  | v :: rest => everyNode p v && everyItem p rest

def everyMember (p : Json → Bool) : List (Bytes × Json) → Bool
  | [] => true
  | (_, v) :: rest => everyNode p v && everyMember p rest

end

mutual

/-- The number of binary values in a value. -/
def binaryCount : Json → Nat
  | .binary _ _ => 1
  | .arr items => itemsBinaryCount items
  | .obj members => membersBinaryCount members
  | _ => 0

def itemsBinaryCount : List Json → Nat
  | [] => 0
  | v :: rest => binaryCount v + itemsBinaryCount rest

def membersBinaryCount : List (Bytes × Json) → Nat
  | [] => 0
  | (_, v) :: rest => binaryCount v + membersBinaryCount rest

end

/-- What a UTF-8 lead byte asks for: the number of continuation bytes and
the range of the first of them. The ranges exclude overlong forms,
surrogates and everything above U+10FFFF. -/
def utf8Lead (b : UInt8) : Option (Nat × UInt8 × UInt8) :=
  if b ≤ 0x7F then some (0, 0x80, 0xBF)
  else if b < 0xC2 then none
  else if b ≤ 0xDF then some (1, 0x80, 0xBF)
  else if b = 0xE0 then some (2, 0xA0, 0xBF)
  else if b = 0xED then some (2, 0x80, 0x9F)
  else if b ≤ 0xEF then some (2, 0x80, 0xBF)
  else if b = 0xF0 then some (3, 0x90, 0xBF)
  else if b ≤ 0xF3 then some (3, 0x80, 0xBF)
  else if b = 0xF4 then some (3, 0x80, 0x8F)
  else none

/-- The rest of a UTF-8 text when `need` continuation bytes are due, the
first of them between `lo` and `hi`. -/
def utf8From : Bytes → Nat → UInt8 → UInt8 → Bool
  | [], need, _, _ => need == 0
  | b :: rest, 0, _, _ =>
    match utf8Lead b with
    | none => false
    | some (need, lo, hi) => utf8From rest need lo hi
  | b :: rest, need + 1, lo, hi => lo ≤ b && b ≤ hi && utf8From rest need 0x80 0xBF

/-- Well-formed UTF-8. -/
def utf8 (s : Bytes) : Bool := utf8From s 0 0x80 0xBF

/-- What every value of the C++ type satisfies: 64-bit integers, and the
key order of `std::map` without repetition. -/
def nodeRepresentable : Json → Bool
  | .int i => decide (-(2 ^ 63) ≤ i ∧ i < 2 ^ 64)
  | .obj members => decide ((members.map (·.1)).Pairwise (· < ·))
  | _ => true

def nodeUtf8 : Json → Bool
  | .str s => utf8 s
  | .obj members => members.all (fun m => utf8 m.1)
  | _ => true

/-- The exponent field of a finite double is not all ones. -/
def nodeFinite : Json → Bool
  | .float bits => (bits >>> 52) &&& 0x7FF != 0x7FF
  | _ => true

def nodeNoBinary : Json → Bool
  | .binary _ _ => false
  | _ => true

def nodeNoSubtype : Json → Bool
  | .binary _ (some _) => false
  | _ => true

/-- The payload conditions that do not speak about binary values. -/
def nodeTextual (v : Json) : Bool := nodeRepresentable v && nodeUtf8 v && nodeFinite v

/-! ## `value(key, default)` -/

/-- The integer part of a double, from its bit pattern. -/
def truncate (bits : UInt64) : Int :=
  let exponent := ((bits >>> 52) &&& 0x7FF).toNat
  let mantissa := (bits &&& 0xFFFFFFFFFFFFF).toNat + (if exponent = 0 then 0 else 2 ^ 52)
  let magnitude : Nat :=
    if 1075 ≤ exponent then mantissa * 2 ^ (exponent - 1075)
    else mantissa / 2 ^ (1075 - exponent)
  if bits >>> 63 = 1 then -(magnitude : Int) else magnitude

/-- Conversion to a 32-bit `int`. -/
def wrapInt (i : Int) : Int := (i + 2 ^ 31) % 2 ^ 32 - 2 ^ 31

/-- `get<int>()`: any number or boolean converts, nothing else does. -/
def getInt : Json → Except JsonError Int
  | .int i => .ok (wrapInt i)
  | .float bits => .ok (wrapInt (truncate bits))
  | .bool b => .ok (if b then 1 else 0)
  | _ => .error .typeError302

/-- `get<std::string>()`. -/
def getString : Json → Except JsonError Bytes
  | .str s => .ok s
  | _ => .error .typeError302

/-- `value(key, default)` over the conversion `get` of its result type. -/
def value {α : Type} (get : Json → Except JsonError α) (v : Json) (key : Bytes)
    (default : α) : Except JsonError α :=
  match v with
  | .obj members =>
    match lookup key members with
    | some member => get member
    | none => .ok default
  | _ => .error .typeError306

/-- The values `get<int>()` converts. -/
def isNumeric : Json → Bool
  | .int _ => true
  | .float _ => true
  | .bool _ => true
  | _ => false

def isStr : Json → Bool
  | .str _ => true
  | _ => false

theorem getInt_ok_iff (v : Json) : (∃ i, v.getInt = .ok i) ↔ v.isNumeric = true := by
  cases v <;> simp [getInt, isNumeric]

theorem getString_ok_iff (v : Json) : (∃ s, v.getString = .ok s) ↔ v.isStr = true := by
  cases v <;> simp [getString, isStr]

/-- `value` returns on an object whose member is absent or converts. -/
theorem value_ok_iff {α : Type} (get : Json → Except JsonError α) (v : Json) (key : Bytes)
    (default : α) : (∃ r, v.value get key default = .ok r) ↔
      ∃ members, v = .obj members ∧
        ∀ member, lookup key members = some member → ∃ r, get member = .ok r := by
  cases v with
  | obj members =>
    simp only [value]
    cases h : lookup key members with
    | none => simp [h]
    | some member => simp [h]
  | null | bool | int | float | str | arr | binary => simp [value]

end Json

/-! ## The printer and the parser -/

/-- `json::dump()` and `json::parse(text, nullptr, false)`; a discarded
parse result is `none`. -/
structure JsonText where
  dump : Json → Except JsonError Bytes
  parse : Bytes → Option Json

/-- A value `dump` writes and `parse` reads back: no binary value in it,
and all text and numbers in the range JSON has. -/
def Json.dumpable (v : Json) : Bool :=
  v.everyNode Json.nodeTextual && v.everyNode Json.nodeNoBinary

/-- The documented behaviour of the printer and the parser. -/
structure JsonText.Lawful (T : JsonText) : Prop where
  /-- `dump` throws only for strings that are not UTF-8. -/
  dump_total : ∀ v, v.everyNode Json.nodeUtf8 = true → ∃ t, T.dump v = .ok t
  /-- Parsing printed text gives the value back. -/
  parse_dump : ∀ v t, v.dumpable = true → T.dump v = .ok t → T.parse t = some v
  /-- Printed text is never empty, and no JSON text starts with a slash. -/
  dump_head : ∀ v t, T.dump v = .ok t → ∃ b rest, t = b :: rest ∧ b ≠ byteOf '/'
  dump_arr : ∀ items t, T.dump (.arr items) = .ok t → t.head? = some (byteOf '[')
  dump_obj : ∀ members t, T.dump (.obj members) = .ok t → t.head? = some (byteOf '{')

/-! ## Basic facts -/

namespace Json

variable {p q : Json → Bool}

mutual

theorem everyNode_and : ∀ v, everyNode (fun n => p n && q n) v = (everyNode p v && everyNode q v)
  | .arr items => by
      simp only [everyNode, everyItem_and items]
      ac_rfl
  | .obj members => by
      simp only [everyNode, everyMember_and members]
      ac_rfl
  | .null => rfl
  | .bool _ => rfl
  | .int _ => rfl
  | .float _ => rfl
  | .str _ => rfl
  | .binary _ _ => rfl

theorem everyItem_and : ∀ items,
    everyItem (fun n => p n && q n) items = (everyItem p items && everyItem q items)
  | [] => rfl
  | v :: rest => by
      simp only [everyItem, everyNode_and v, everyItem_and rest]
      ac_rfl

theorem everyMember_and : ∀ members,
    everyMember (fun n => p n && q n) members = (everyMember p members && everyMember q members)
  | [] => rfl
  | (_, v) :: rest => by
      simp only [everyMember, everyNode_and v, everyMember_and rest]
      ac_rfl

end

mutual

/-- Having no binary value and counting none are the same. -/
theorem noBinary_iff_count : ∀ v, everyNode nodeNoBinary v = true ↔ binaryCount v = 0
  | .arr items => by simp [everyNode, binaryCount, nodeNoBinary, noBinary_iff_items items]
  | .obj members => by simp [everyNode, binaryCount, nodeNoBinary, noBinary_iff_members members]
  | .null => by simp [everyNode, binaryCount, nodeNoBinary]
  | .bool _ => by simp [everyNode, binaryCount, nodeNoBinary]
  | .int _ => by simp [everyNode, binaryCount, nodeNoBinary]
  | .float _ => by simp [everyNode, binaryCount, nodeNoBinary]
  | .str _ => by simp [everyNode, binaryCount, nodeNoBinary]
  | .binary _ _ => by simp [everyNode, binaryCount, nodeNoBinary]

theorem noBinary_iff_items : ∀ items,
    everyItem nodeNoBinary items = true ↔ itemsBinaryCount items = 0
  | [] => by simp [everyItem, itemsBinaryCount]
  | v :: rest => by
      simp [everyItem, itemsBinaryCount, noBinary_iff_count v, noBinary_iff_items rest]

theorem noBinary_iff_members : ∀ members,
    everyMember nodeNoBinary members = true ↔ membersBinaryCount members = 0
  | [] => by simp [everyMember, membersBinaryCount]
  | (_, v) :: rest => by
      simp [everyMember, membersBinaryCount, noBinary_iff_count v, noBinary_iff_members rest]

end

end Json

end Sioxx
