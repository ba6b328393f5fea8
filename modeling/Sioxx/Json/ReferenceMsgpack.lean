/-
Sioxx.Json.ReferenceMsgpack — a MessagePack codec that runs.

`Msgpack` leaves `json::to_msgpack` and `json::from_msgpack` open. This
is a small executable pair in the same format: the shortest form of every
integer, string, binary value and container, big-endian lengths, and an
object that puts its members in key order while it is read. Doubles are
always written in eight bytes, where the library shortens those that a
`float` holds; extension types are left out.
-/
import Sioxx.Parser.MsgpackParser

namespace Sioxx.ReferenceMsgpack

open Lib

/-- The low `width` bytes of a number, most significant first. -/
def bigEndian : Nat → Nat → Bytes
  | 0, _ => []
  | width + 1, n => UInt8.ofNat (n / 256 ^ width) :: bigEndian width n

def ofBigEndian (bytes : Bytes) : Nat := bytes.foldl (fun n b => n * 256 + b.toNat) 0

/-- A tag with a one-, two- or four-byte length after it. -/
def tagged (tag8 tag16 tag32 : UInt8) (n : Nat) : Bytes :=
  if n < 2 ^ 8 then tag8 :: bigEndian 1 n
  else if n < 2 ^ 16 then tag16 :: bigEndian 2 n
  else tag32 :: bigEndian 4 n

def writeInt (i : Int) : Bytes :=
  if 0 ≤ i then
    if i < 2 ^ 7 then bigEndian 1 i.toNat
    else if i < 2 ^ 32 then tagged 0xCC 0xCD 0xCE i.toNat
    else 0xCF :: bigEndian 8 i.toNat
  else if -32 ≤ i then bigEndian 1 (i + 2 ^ 8).toNat
  else if -2 ^ 7 ≤ i then 0xD0 :: bigEndian 1 (i + 2 ^ 8).toNat
  else if -2 ^ 15 ≤ i then 0xD1 :: bigEndian 2 (i + 2 ^ 16).toNat
  else if -2 ^ 31 ≤ i then 0xD2 :: bigEndian 4 (i + 2 ^ 32).toNat
  else 0xD3 :: bigEndian 8 (i + 2 ^ 64).toNat

def writeString (s : Bytes) : Bytes :=
  (if s.length < 32 then bigEndian 1 (0xA0 + s.length) else tagged 0xD9 0xDA 0xDB s.length) ++ s

/-- The head of a container; `fixed` is the tag of the short form. -/
def writeSize (fixed : Nat) (tag16 tag32 : UInt8) (n : Nat) : Bytes :=
  if n < 16 then bigEndian 1 (fixed + n)
  else if n < 2 ^ 16 then tag16 :: bigEndian 2 n
  else tag32 :: bigEndian 4 n

mutual

def write : Json → Bytes
  | .null => [0xC0]
  | .bool b => [if b then 0xC3 else 0xC2]
  | .int i => writeInt i
  | .float bits => 0xCB :: bigEndian 8 bits.toNat
  | .str s => writeString s
  | .arr items => writeSize 0x90 0xDC 0xDD items.length ++ writeItems items
  | .obj members => writeSize 0x80 0xDE 0xDF members.length ++ writeMembers members
  | .binary bytes _ => tagged 0xC4 0xC5 0xC6 bytes.length ++ bytes

def writeItems : List Json → Bytes
  | [] => []
  | v :: rest => write v ++ writeItems rest

def writeMembers : List (Bytes × Json) → Bytes
  | [] => []
  | (k, v) :: rest => writeString k ++ write v ++ writeMembers rest

end

/-- `object[key] = value` on a key-sorted member list. -/
def assign (key : Bytes) (value : Json) : List (Bytes × Json) → List (Bytes × Json)
  | [] => [(key, value)]
  | (k, v) :: rest =>
    if key < k then (key, value) :: (k, v) :: rest
    else if k = key then (key, value) :: rest
    else (k, v) :: assign key value rest

/-- The next `n` bytes and what follows. -/
def take (n : Nat) (bytes : Bytes) : Option (Bytes × Bytes) :=
  if n ≤ bytes.length then some (bytes.splitAt n) else none

/-- A big-endian number of `width` bytes. -/
def readNat (width : Nat) (bytes : Bytes) : Option (Nat × Bytes) :=
  (take width bytes).map (fun (head, rest) => (ofBigEndian head, rest))

def readUnsigned (width : Nat) (bytes : Bytes) : Option (Json × Bytes) :=
  (readNat width bytes).map (fun (n, rest) => (.int n, rest))

def readSigned (width : Nat) (bytes : Bytes) : Option (Json × Bytes) :=
  (readNat width bytes).map (fun (n, rest) =>
    (.int (if n < 2 ^ (8 * width - 1) then n else n - 2 ^ (8 * width)), rest))

/-- A string whose tag is the first byte. -/
def readString : Bytes → Option (Bytes × Bytes)
  | [] => none
  | tag :: rest =>
    if 0xA0 ≤ tag ∧ tag ≤ 0xBF then take (tag.toNat - 0xA0) rest
    else do
      let width ← if tag = 0xD9 then some 1 else if tag = 0xDA then some 2
        else if tag = 0xDB then some 4 else none
      let (n, rest) ← readNat width rest
      take n rest

mutual

/-- One value; the fuel bounds the depth and the length of containers. -/
def read : Nat → Bytes → Option (Json × Bytes)
  | 0, _ => none
  | _, [] => none
  | fuel + 1, tag :: rest =>
    if tag ≤ 0x7F then some (.int tag.toNat, rest)
    else if tag ≤ 0x8F then readMembers fuel (tag.toNat - 0x80) [] rest
    else if tag ≤ 0x9F then readItems fuel (tag.toNat - 0x90) [] rest
    else if 0xE0 ≤ tag then some (.int (tag.toNat - 2 ^ 8), rest)
    else if tag = 0xC0 then some (.null, rest)
    else if tag = 0xC2 then some (.bool false, rest)
    else if tag = 0xC3 then some (.bool true, rest)
    else if 0xC4 ≤ tag ∧ tag ≤ 0xC6 then do
      let (n, rest) ← readNat (2 ^ (tag.toNat - 0xC4)) rest
      let (bytes, rest) ← take n rest
      return (.binary bytes none, rest)
    else if tag = 0xCB then do
      let (bits, rest) ← readNat 8 rest
      return (.float (UInt64.ofNat bits), rest)
    else if 0xCC ≤ tag ∧ tag ≤ 0xCF then readUnsigned (2 ^ (tag.toNat - 0xCC)) rest
    else if 0xD0 ≤ tag ∧ tag ≤ 0xD3 then readSigned (2 ^ (tag.toNat - 0xD0)) rest
    else if 0xDC ≤ tag ∧ tag ≤ 0xDD then do
      let (n, rest) ← readNat (2 * (tag.toNat - 0xDB)) rest
      readItems fuel n [] rest
    else if 0xDE ≤ tag ∧ tag ≤ 0xDF then do
      let (n, rest) ← readNat (2 * (tag.toNat - 0xDD)) rest
      readMembers fuel n [] rest
    else do
      let (s, rest) ← readString (tag :: rest)
      return (.str s, rest)

def readItems : Nat → Nat → List Json → Bytes → Option (Json × Bytes)
  | _, 0, items, rest => some (.arr items, rest)
  | 0, _, _, _ => none
  | fuel + 1, n + 1, items, rest => do
    let (v, rest) ← read fuel rest
    readItems fuel n (items ++ [v]) rest

def readMembers : Nat → Nat → List (Bytes × Json) → Bytes → Option (Json × Bytes)
  | _, 0, members, rest => some (.obj members, rest)
  | 0, _, _, _ => none
  | fuel + 1, n + 1, members, rest => do
    let (k, rest) ← readString rest
    let (v, rest) ← read fuel rest
    readMembers fuel n (assign k v members) rest

end

/-- The whole input must be one value. -/
def fromMsgpack (bytes : Bytes) : Option Json :=
  match read (2 * bytes.length + 1) bytes with
  | some (v, []) => some v
  | _ => none

def referenceMsgpack : Msgpack where
  toMsgpack := write
  fromMsgpack := fromMsgpack

end Sioxx.ReferenceMsgpack
