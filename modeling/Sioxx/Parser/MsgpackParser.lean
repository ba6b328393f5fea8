/-
Sioxx.Parser.MsgpackParser — the binary Socket.IO codec
(`msgpack_parser.cpp`).

A packet is one MessagePack map `type, nsp, data?, id?` in one binary
frame. `json::to_msgpack` and `json::from_msgpack` belong to
`nlohmann::json`, which is not part of the repository: they are the
fields of `Msgpack`. A value that `from_msgpack` throws on is `none`.

The map is built with `operator[]` on an object, so its members stand in
the key order of `std::map`, not in the order of the assignments.

`decode` casts any integer to `packet_type`. The packets it fills in are
therefore `RawPacket`s, whose type is a number, and `ofPacket` takes the
packets of the text codec there.
-/
import Sioxx.Parser.JsonParser

namespace Sioxx

open Lib

/-- `json::to_msgpack` and `json::from_msgpack`. -/
structure Msgpack where
  toMsgpack : Json → Bytes
  fromMsgpack : Bytes → Option Json

/-- A packet as a parser leaves it, with the number of its type. -/
structure RawPacket where
  type : Int := 2
  nsp : Bytes := ascii "/"
  id : Int := -1
  data : Json := .null
  attachments : Nat := 0

def RawPacket.ofPacket (packet : Packet) : RawPacket where
  type := packet.type.digit
  nsp := packet.nsp
  id := packet.id
  data := packet.data
  attachments := packet.attachments

namespace MsgpackParser

/-- The map `encode` builds. -/
def object (packet : Packet) : Json :=
  .obj ((if packet.data.isNull then [] else [(ascii "data", packet.data)])
    ++ (if packet.id ≥ 0 then [(ascii "id", .int packet.id)] else [])
    ++ [(ascii "nsp", .str packet.nsp), (ascii "type", .int packet.type.digit)])

/-- `msgpack_parser::encode`: one binary frame. -/
def encode (M : Msgpack) (packet : Packet) : List Frame := [⟨M.toMsgpack (object packet), true⟩]

/-- `obj.contains("id") && !obj["id"].is_null() ? obj["id"].get<int>() : -1` -/
def readId : Json → Except JsonError Int
  | .obj members =>
    match Json.lookup (ascii "id") members with
    | none | some .null => .ok (-1)
    | some id => id.getInt
  | _ => .ok (-1)

/-- `obj.contains("data") ? obj["data"] : json()` -/
def readData : Json → Json
  | .obj members => (Json.lookup (ascii "data") members).getD .null
  | _ => .null

/-- `msgpack_parser::decode(payload, is_binary, out)`: the result and what
is left in `out`, which an exception leaves partly assigned. -/
def decode (M : Msgpack) (payload : Bytes) (isBinary : Bool) (out : RawPacket) :
    Bool × RawPacket :=
  if !isBinary then (false, out)
  else
    match M.fromMsgpack payload with
    | none => (false, out)
    | some obj =>
      match obj.value Json.getInt (ascii "type") 0 with
      | .error _ => (false, out)
      | .ok type =>
        let out := { out with type }
        match obj.value Json.getString (ascii "nsp") (ascii "/") with
        | .error _ => (false, out)
        | .ok nsp =>
          let out := { out with nsp }
          match readId obj with
          | .error _ => (false, out)
          | .ok id => (true, { out with id, data := readData obj, attachments := 0 })

/-! ## What it writes, it reads back -/

theorem lookup_append (key : Bytes) (as bs : List (Bytes × Json)) :
    Json.lookup key (as ++ bs) = (Json.lookup key as).or (Json.lookup key bs) := by
  induction as with
  | nil => rfl
  | cons m as ih =>
    obtain ⟨k, v⟩ := m
    rw [List.cons_append, Json.lookup, Json.lookup, ih]
    split <;> rfl

/-- The members of a written map, by key. -/
theorem object_members (p : Packet) :
    ∃ members, object p = .obj members ∧
      Json.lookup (ascii "type") members = some (.int p.type.digit) ∧
      Json.lookup (ascii "nsp") members = some (.str p.nsp) ∧
      Json.lookup (ascii "id") members = (if p.id ≥ 0 then some (.int p.id) else none) ∧
      Json.lookup (ascii "data") members = if p.data.isNull then none else some p.data := by
  have hdata : ascii "data" ≠ ascii "id" ∧ ascii "data" ≠ ascii "nsp"
      ∧ ascii "data" ≠ ascii "type" := by decide
  have hid : ascii "id" ≠ ascii "data" ∧ ascii "id" ≠ ascii "nsp"
      ∧ ascii "id" ≠ ascii "type" := by decide
  have hnsp : ascii "nsp" ≠ ascii "data" ∧ ascii "nsp" ≠ ascii "id"
      ∧ ascii "nsp" ≠ ascii "type" := by decide
  have htype : ascii "type" ≠ ascii "data" ∧ ascii "type" ≠ ascii "id" := by decide
  refine ⟨_, rfl, ?_, ?_, ?_, ?_⟩ <;> simp only [lookup_append] <;>
    by_cases hnull : p.data.isNull = true <;> by_cases hpos : p.id ≥ 0 <;>
    simp [Json.lookup, hnull, hpos, hdata, hid, hnsp, htype]

/-- The fields `decode` reads from a written map. -/
theorem object_fields (p : Packet) (hid : -1 ≤ p.id ∧ p.id ≤ intMax) :
    (object p).value Json.getInt (ascii "type") 0 = .ok (p.type.digit : Int) ∧
    (object p).value Json.getString (ascii "nsp") (ascii "/") = .ok p.nsp ∧
    readId (object p) = .ok p.id ∧ readData (object p) = p.data := by
  obtain ⟨members, hobj, htype, hnsp, hread, hdata⟩ := object_members p
  rw [hobj]
  refine ⟨?_, ?_, ?_, ?_⟩
  · rw [Json.value, htype]
    cases p.type <;> rfl
  · rw [Json.value, hnsp]
    rfl
  · rw [readId, hread]
    by_cases hpos : p.id ≥ 0
    · have hwrap : Json.wrapInt p.id = p.id := by
        have hfits := hid.2
        simp only [intMax] at hfits
        simp only [Json.wrapInt]
        omega
      simp only [if_pos hpos, Json.getInt, hwrap]
    · have habsent : p.id = -1 := by omega
      rw [if_neg hpos, habsent]
  · rw [readData, hdata]
    cases p.data <;> rfl

/-- A packet that survives `from_msgpack(to_msgpack(..))` survives the
codec. -/
theorem decode_encode {M : Msgpack} {p : Packet} (hid : -1 ≤ p.id ∧ p.id ≤ intMax)
    (hM : M.fromMsgpack (M.toMsgpack (object p)) = some (object p)) (out : RawPacket) :
    decode M (M.toMsgpack (object p)) true out
      = (true, .ofPacket { p with attachments := 0 }) := by
  obtain ⟨htype, hnsp, hread, hdata⟩ := object_fields p hid
  simp only [decode, hM, htype, hnsp, hread, hdata]
  rfl

end MsgpackParser

end Sioxx
