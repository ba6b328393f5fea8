/-
Sioxx.Parser.MsgpackTheorems — what the MessagePack decoder refuses, and
what a refusal leaves behind.

`msgpack_parser::decode` reads its fields with `get<int>()`, which narrows
a 64-bit integer modulo 2^32, and casts the type to `packet_type` without
a look at it. `faithful_iff` says for which objects this does no harm: the
type and the id are numbers that fit, or another member already makes the
library throw.

It also assigns each field of the destination as soon as it is read.
`decode_untouched_iff` compares the two codecs in this respect: the text
decoder fills in a packet of its own and moves it at the end, the
MessagePack decoder leaves a type or a namespace behind when a later
member has the wrong kind.
-/
import Sioxx.Json.ReferenceMsgpack
import Sioxx.Parser.DecoderTheorems

namespace Sioxx

open Lib

/-! ## Numbers -/

namespace Json

/-- Does the double have an integer value? -/
def integral (bits : UInt64) : Bool :=
  let exponent := ((bits >>> 52) &&& 0x7FF).toNat
  let mantissa := (bits &&& 0xFFFFFFFFFFFFF).toNat + (if exponent = 0 then 0 else 2 ^ 52)
  exponent != 0x7FF && (decide (1075 ≤ exponent) || mantissa % 2 ^ (1075 - exponent) == 0)

/-- The mathematical integer a number is equal to. -/
def integer : Json → Option Int
  | .int i => some i
  | .float bits => if integral bits then some (truncate bits) else none
  | _ => none

/-- The range of `int`. -/
def FitsInt (i : Int) : Prop := -(2 ^ 31) ≤ i ∧ i < 2 ^ 31

theorem wrapInt_fits (i : Int) : FitsInt (wrapInt i) := by
  unfold FitsInt wrapInt
  omega

theorem wrapInt_eq {i : Int} (h : FitsInt i) : wrapInt i = i := by
  unfold FitsInt at h
  unfold wrapInt
  omega

/-- A number that fits is read as what it is. -/
theorem getInt_integer {v : Json} {i : Int} (hv : v.integer = some i) (hfits : FitsInt i) :
    v.getInt = .ok i := by
  cases v with
  | int j =>
    cases hv
    rw [getInt, wrapInt_eq hfits]
  | float bits =>
    simp only [integer] at hv
    split at hv
    · cases hv
      rw [getInt, wrapInt_eq hfits]
    · cases hv
  | _ => cases hv

theorem getInt_fits {v : Json} {i : Int} (h : v.getInt = .ok i) : FitsInt i := by
  cases v with
  | int j =>
    cases h
    exact wrapInt_fits j
  | float bits =>
    cases h
    exact wrapInt_fits _
  | bool b =>
    cases h
    unfold FitsInt
    cases b <;> decide
  | _ => cases h

end Json

namespace MsgpackParser

/-! ## The fields of an object -/

/-- The type an object has on the wire. -/
def wireType (members : List (Bytes × Json)) : Option Int :=
  match Json.lookup (ascii "type") members with
  | none => some 0
  | some v => v.integer

/-- The packet is the object: one of the seven types, the id as a
mathematical integer, namespace and data as they are. -/
structure Faithful (members : List (Bytes × Json)) (p : RawPacket) : Prop where
  type : wireType members = some p.type ∧ 0 ≤ p.type ∧ p.type ≤ 6
  id : ∀ v, Json.lookup (ascii "id") members = some v → v ≠ .null → v.integer = some p.id
  noId : (Json.lookup (ascii "id") members = none ∨
    Json.lookup (ascii "id") members = some .null) → p.id = -1
  nsp : ∀ v, Json.lookup (ascii "nsp") members = some v → v = .str p.nsp
  noNsp : Json.lookup (ascii "nsp") members = none → p.nsp = ascii "/"
  data : p.data = (Json.lookup (ascii "data") members).getD .null

/-- The type is one of the seven, and the id fits in `int`. -/
structure Fits (members : List (Bytes × Json)) : Prop where
  type : ∃ t, wireType members = some t ∧ 0 ≤ t ∧ t ≤ 6
  id : ∀ v, Json.lookup (ascii "id") members = some v → v ≠ .null →
    ∃ i, v.integer = some i ∧ Json.FitsInt i

/-- The members have the kinds the library converts. -/
structure Converts (members : List (Bytes × Json)) : Prop where
  type : ∀ v, Json.lookup (ascii "type") members = some v → v.isNumeric = true
  nsp : ∀ v, Json.lookup (ascii "nsp") members = some v → v.isStr = true
  id : ∀ v, Json.lookup (ascii "id") members = some v → v = .null ∨ v.isNumeric = true

/-- A packet of another type or with another id is never made of the
object. -/
def FaithfulOrRefused (M : Msgpack) (payload : Bytes) (members : List (Bytes × Json)) : Prop :=
  ∀ out, (∀ p, decode M payload true out = (true, p) → Faithful members p) ∧
    (¬ Fits members → (decode M payload true out).1 = false)

variable {M : Msgpack} {payload : Bytes} {members : List (Bytes × Json)} {obj : Json}

/-- What `decode` assigns when it returns `true`. -/
theorem decode_true_iff (hobj : M.fromMsgpack payload = some obj) (out p : RawPacket) :
    decode M payload true out = (true, p) ↔
      obj.value Json.getInt (ascii "type") 0 = .ok p.type ∧
      obj.value Json.getString (ascii "nsp") (ascii "/") = .ok p.nsp ∧
      readId obj = .ok p.id ∧ p.data = readData obj ∧ p.attachments = 0 := by
  simp only [decode, Bool.not_true, Bool.false_eq_true, if_false, hobj]
  cases htype : obj.value Json.getInt (ascii "type") 0 with
  | error e => simp
  | ok type =>
    cases hnsp : obj.value Json.getString (ascii "nsp") (ascii "/") with
    | error e => simp
    | ok nsp =>
      cases hid : readId obj with
      | error e => simp
      | ok id =>
        simp only [Prod.mk.injEq, true_and, Except.ok.injEq]
        constructor
        · rintro rfl
          exact ⟨rfl, rfl, rfl, rfl, rfl⟩
        · rintro ⟨rfl, rfl, rfl, hdata, hzero⟩
          rw [← hdata, ← hzero]

theorem readId_ok_iff (members : List (Bytes × Json)) :
    (∃ i, readId (.obj members) = .ok i) ↔
      ∀ v, Json.lookup (ascii "id") members = some v → v = .null ∨ v.isNumeric = true := by
  simp only [readId]
  cases hid : Json.lookup (ascii "id") members with
  | none => simp
  | some v =>
    cases v with
    | null => simp
    | _ => simp [Json.getInt_ok_iff]

/-- An object is accepted if its members convert. -/
theorem accepts_iff_converts (hobj : M.fromMsgpack payload = some (.obj members))
    (out : RawPacket) : (∃ p, decode M payload true out = (true, p)) ↔ Converts members := by
  have htype := Json.value_ok_iff Json.getInt (.obj members) (ascii "type") 0
  have hnsp := Json.value_ok_iff Json.getString (.obj members) (ascii "nsp") (ascii "/")
  simp only [Json.obj.injEq, exists_eq_left', Json.getInt_ok_iff, Json.getString_ok_iff]
    at htype hnsp
  have hid := readId_ok_iff members
  simp only [decode_true_iff hobj]
  constructor
  · rintro ⟨p, h1, h2, h3, -⟩
    exact ⟨htype.mp ⟨_, h1⟩, hnsp.mp ⟨_, h2⟩, hid.mp ⟨_, h3⟩⟩
  · rintro ⟨h1, h2, h3⟩
    obtain ⟨type, h1⟩ := htype.mpr h1
    obtain ⟨nsp, h2⟩ := hnsp.mpr h2
    obtain ⟨id, h3⟩ := hid.mpr h3
    exact ⟨⟨type, nsp, id, readData (.obj members), 0⟩, h1, h2, h3, rfl, rfl⟩

/-- A packet made of an object with fitting numbers. -/
theorem Fits.faithful (hfits : Fits members) {p : RawPacket}
    (htype : (Json.obj members).value Json.getInt (ascii "type") 0 = .ok p.type)
    (hnsp : (Json.obj members).value Json.getString (ascii "nsp") (ascii "/") = .ok p.nsp)
    (hid : readId (.obj members) = .ok p.id) (hdata : p.data = readData (.obj members)) :
    Faithful members p where
  type := by
    obtain ⟨t, ht, hlo, hhi⟩ := hfits.type
    have hsame : p.type = t := by
      simp only [wireType, Json.value] at ht htype
      cases hv : Json.lookup (ascii "type") members with
      | none =>
        simp only [hv, Option.some.injEq, Except.ok.injEq] at ht htype
        rw [← htype, ht]
      | some v =>
        simp only [hv] at ht htype
        have hfit : Json.FitsInt t := by
          unfold Json.FitsInt
          omega
        rw [Json.getInt_integer ht hfit, Except.ok.injEq] at htype
        exact htype.symm
    rw [hsame]
    exact ⟨ht, hlo, hhi⟩
  id := by
    intro v hv hnull
    obtain ⟨i, hi, hfit⟩ := hfits.id v hv hnull
    have hget : readId (.obj members) = v.getInt := by
      cases v with
      | null => exact absurd rfl hnull
      | _ => simp only [readId, hv]
    rw [hget, Json.getInt_integer hi hfit, Except.ok.injEq] at hid
    rw [hi, hid]
  noId := by
    intro habsent
    rcases habsent with hnone | hnull
    · simp only [readId, hnone, Except.ok.injEq] at hid
      exact hid.symm
    · simp only [readId, hnull, Except.ok.injEq] at hid
      exact hid.symm
  nsp := by
    intro v hv
    simp only [Json.value, hv] at hnsp
    cases v with
    | str s =>
      simp only [Json.getString, Except.ok.injEq] at hnsp
      rw [hnsp]
    | _ => simp [Json.getString] at hnsp
  noNsp := by
    intro hnone
    simp only [Json.value, hnone, Except.ok.injEq] at hnsp
    exact hnsp.symm
  data := by
    rw [hdata]
    rfl

/-- What is faithful fits: `get<int>()` returns an `int`. -/
theorem Faithful.fits {p : RawPacket} (h : Faithful members p)
    (hid : readId (.obj members) = .ok p.id) : Fits members where
  type := ⟨p.type, h.type⟩
  id := by
    intro v hv hnull
    refine ⟨p.id, h.id v hv hnull, ?_⟩
    have hget : v.getInt = .ok p.id := by
      cases v with
      | null => exact absurd rfl hnull
      | _ =>
        simp only [readId, hv] at hid
        exact hid
    exact Json.getInt_fits hget

/-- **When the decoder is faithful or refuses**: the type is one of the
seven and the id fits in `int`, or some member does not convert. -/
theorem faithful_iff (M : Msgpack) (payload : Bytes) (members : List (Bytes × Json))
    (hobj : M.fromMsgpack payload = some (.obj members)) :
    FaithfulOrRefused M payload members ↔ (Converts members → Fits members) := by
  constructor
  · intro h hconverts
    obtain ⟨p, hp⟩ := (accepts_iff_converts hobj {}).mpr hconverts
    exact ((h {}).1 p hp).fits ((decode_true_iff hobj {} p).mp hp).2.2.1
  · intro h out
    have haccepted : ∀ p, decode M payload true out = (true, p) → Fits members :=
      fun p hp => h ((accepts_iff_converts hobj out).mp ⟨p, hp⟩)
    refine ⟨fun p hp => ?_, fun hmisfit => ?_⟩
    · obtain ⟨htype, hnsp, hid, hdata, -⟩ := (decode_true_iff hobj out p).mp hp
      exact (haccepted p hp).faithful htype hnsp hid hdata
    · cases hresult : (decode M payload true out).1 with
      | false => rfl
      | true => exact absurd (haccepted _ (Prod.ext hresult rfl)) hmisfit

/-- `{"id": 5, "type": 2}` and `{"id": 4294967296, "type": 2}`. -/
def idFive : Bytes := [0x82, 0xA2, 0x69, 0x64, 0x05, 0xA4, 0x74, 0x79, 0x70, 0x65, 0x02]

def idBeyondInt : Bytes :=
  [0x82, 0xA2, 0x69, 0x64, 0xCF, 0, 0, 0, 1, 0, 0, 0, 0, 0xA4, 0x74, 0x79, 0x70, 0x65, 0x02]

theorem faithful_iff_idFive :
    FaithfulOrRefused ReferenceMsgpack.referenceMsgpack idFive
        [(ascii "id", .int 5), (ascii "type", .int 2)] ↔
      (Converts [(ascii "id", .int 5), (ascii "type", .int 2)] →
        Fits [(ascii "id", .int 5), (ascii "type", .int 2)]) :=
  faithful_iff ReferenceMsgpack.referenceMsgpack idFive _ rfl

/-- The acknowledgement of 4294967296 arrives as one of 0. -/
theorem idBeyondInt_wraps :
    ReferenceMsgpack.referenceMsgpack.fromMsgpack idBeyondInt
      = some (.obj [(ascii "id", .int 4294967296), (ascii "type", .int 2)]) ∧
    decode ReferenceMsgpack.referenceMsgpack idBeyondInt true {} = (true, { id := 0 }) ∧
    ¬ FaithfulOrRefused ReferenceMsgpack.referenceMsgpack idBeyondInt
      [(ascii "id", .int 4294967296), (ascii "type", .int 2)] := by
  have hobj : ReferenceMsgpack.referenceMsgpack.fromMsgpack idBeyondInt
      = some (.obj [(ascii "id", .int 4294967296), (ascii "type", .int 2)]) := rfl
  have hdecode : decode ReferenceMsgpack.referenceMsgpack idBeyondInt true {}
      = (true, { id := 0 }) := (decode_true_iff hobj {} _).mpr ⟨rfl, rfl, rfl, rfl, rfl⟩
  refine ⟨hobj, hdecode, fun h => ?_⟩
  have hid := ((h {}).1 _ hdecode).id (.int 4294967296) rfl (by simp)
  cases hid

/-! ## What a refusal leaves in the destination -/

/-- A field is assigned that the destination did not have, and then a later
one does not convert. -/
def Spoils (obj : Json) (out : RawPacket) : Prop :=
  ∃ type, obj.value Json.getInt (ascii "type") 0 = .ok type ∧
    (((∃ e, obj.value Json.getString (ascii "nsp") (ascii "/") = .error e) ∧ type ≠ out.type) ∨
      ∃ nsp, obj.value Json.getString (ascii "nsp") (ascii "/") = .ok nsp ∧
        (∃ e, readId obj = .error e) ∧ (type ≠ out.type ∨ nsp ≠ out.nsp))

theorem decode_false_iff (M : Msgpack) (payload : Bytes) (isBinary : Bool) (out : RawPacket) :
    ((decode M payload isBinary out).1 = false → (decode M payload isBinary out).2 = out) ↔
      (isBinary = true → ∀ obj, M.fromMsgpack payload = some obj → ¬ Spoils obj out) := by
  cases isBinary with
  | false => simp [decode]
  | true =>
    simp only [decode, Bool.not_true, Bool.false_eq_true, if_false]
    cases hobj : M.fromMsgpack payload with
    | none => simp
    | some obj =>
      simp only [Option.some.injEq, forall_eq', Spoils]
      cases htype : obj.value Json.getInt (ascii "type") 0 with
      | error e => simp
      | ok type =>
        cases hnsp : obj.value Json.getString (ascii "nsp") (ascii "/") with
        | error e =>
          obtain ⟨outType, outNsp, outId, outData, outAttachments⟩ := out
          simp
        | ok nsp =>
          cases hid : readId obj with
          | ok id => simp
          | error e =>
            obtain ⟨outType, outNsp, outId, outData, outAttachments⟩ := out
            simp

/-- **A failed decode and its destination.** The text decoder leaves it as
it was, in every reachable state. The MessagePack decoder does so exactly
if it fails before it assigns, or assigns only what was there. -/
theorem decode_untouched_iff (T : JsonText) (M : Msgpack) :
    (∀ parser, JsonParser.Reachable T parser → ∀ payload isBinary out d,
      JsonParser.decode T parser payload isBinary out = .ok d → d.complete = false →
        d.out = out) ∧
    ∀ payload isBinary out,
      ((decode M payload isBinary out).1 = false → (decode M payload isBinary out).2 = out) ↔
        (isBinary = true → ∀ obj, M.fromMsgpack payload = some obj → ¬ Spoils obj out) := by
  refine ⟨?_, decode_false_iff M⟩
  intro parser hparser payload isBinary out d hd hfalse
  obtain ⟨d', hd', -, huntouched⟩ := hparser.waiting.decode_ok (T := T) payload isBinary out
  rw [hd] at hd'
  cases hd'
  exact huntouched hfalse

/-- `{"nsp": 5, "type": 0}` -/
def badNsp : Bytes := [0x82, 0xA3, 0x6E, 0x73, 0x70, 0x05, 0xA4, 0x74, 0x79, 0x70, 0x65, 0x00]

/-- The refused frame turns an event into a connect packet. -/
theorem badNsp_assigns :
    decode ReferenceMsgpack.referenceMsgpack badNsp true {} = (false, { type := 0 }) ∧
    ¬ ((decode ReferenceMsgpack.referenceMsgpack badNsp true {}).1 = false →
      (decode ReferenceMsgpack.referenceMsgpack badNsp true {}).2 = {}) := by
  have hobj : ReferenceMsgpack.referenceMsgpack.fromMsgpack badNsp
      = some (.obj [(ascii "nsp", .int 5), (ascii "type", .int 0)]) := rfl
  have hdecode : decode ReferenceMsgpack.referenceMsgpack badNsp true {}
      = (false, { type := 0 }) := by
    simp only [decode, hobj]
    rfl
  refine ⟨hdecode, fun h => ?_⟩
  have htype := congrArg RawPacket.type (h (by rw [hdecode]))
  rw [hdecode] at htype
  cases htype

end MsgpackParser

end Sioxx
