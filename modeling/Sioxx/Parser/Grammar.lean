/-
Sioxx.Parser.Grammar — the header of a text frame as a grammar.

    <packet type>[<# attachments>-][<namespace>,][<ack id>][JSON payload]

The fields follow each other without a delimiter of their own, so what a
field is depends on what comes after it: a namespace is missing only if no
slash stands there, and an acknowledgement id is the longest run of
digits. Each field has a relation between its spelling, the text behind
it and its value; `Spells` puts them together.

Every stage of the decoder computes its relation (`decodeAttachments_iff`,
`decodeNsp_iff`, `decodeId_iff`, `decodeData_iff`): it succeeds exactly on
a text that begins with a spelling, and stops behind it. So a frame has at
most one decomposition (`Spells.unique`), because the decoder can only
stop in one place.
-/
import Sioxx.Parser.JsonParser

namespace Sioxx.JsonParser

open Lib Json

/-! ## Numbers -/

/-- The overflow test before the multiplication is exact. -/
theorem parseDigits_eq : ∀ (ds : Bytes) (r : Nat), (∀ b ∈ ds, isDigit b = true) → r ≤ intMax →
    parseDigits ds r
      = if digitsValue r ds ≤ intMax then some (digitsValue r ds) else none
  | [], r, _, hr => by simp [parseDigits, digitsValue, hr]
  | b :: rest, r, hds, hr => by
      have hb : isDigit b = true := hds b (by simp)
      have hdigit : digitValue b ≤ 9 := by
        simp only [isDigit, decide_eq_true_eq] at hb
        simp only [digitValue]
        omega
      have hstep : digitsValue r (b :: rest) = digitsValue (r * 10 + digitValue b) rest := rfl
      have hmono : ∀ (ds : Bytes) (x : Nat), x ≤ digitsValue x ds := by
        intro ds
        induction ds with
        | nil => intro x; exact Nat.le_refl _
        | cons c ds ih =>
          intro x
          have := ih (x * 10 + digitValue c)
          simp only [digitsValue, List.foldl_cons] at this ⊢
          omega
      simp only [parseDigits, hb, Bool.not_true, Bool.false_eq_true, if_false]
      by_cases hover : r > (intMax - digitValue b) / 10
      · have hbig : intMax < digitsValue r (b :: rest) := by
          have := hmono rest (r * 10 + digitValue b)
          rw [hstep]
          simp only [intMax] at hover ⊢
          omega
        rw [if_pos hover, if_neg (by omega)]
      · have hfit : r * 10 + digitValue b ≤ intMax := by
          simp only [intMax] at hover ⊢
          omega
        rw [if_neg hover, parseDigits_eq rest _ (fun c hc => hds c (by simp [hc])) hfit, hstep]

/-- Nothing but digits is read. -/
theorem isDigit_of_parseDigits : ∀ {ds : Bytes} {r n : Nat}, parseDigits ds r = some n →
    ∀ b ∈ ds, isDigit b = true
  | [], _, _, _ => by simp
  | b :: rest, r, n, h => by
      rw [parseDigits] at h
      split at h
      · cases h
      · rename_i hdigit
        split at h
        · cases h
        · have hb : isDigit b = true := by simpa using hdigit
          simpa [hb] using isDigit_of_parseDigits h

/-- The digits at a position, read as a number. -/
theorem parseNonnegativeInt_iff (pre mid rest : Bytes) (n : Nat) :
    parseNonnegativeInt (pre ++ (mid ++ rest)) pre.length (pre.length + mid.length) = some n ↔
      mid ≠ [] ∧ (∀ b ∈ mid, isDigit b = true) ∧ digitsValue 0 mid = n ∧ n ≤ intMax := by
  rw [parseNonnegativeInt, Nat.add_sub_cancel_left, substr_append]
  by_cases hnil : mid = []
  · simp [hnil]
  · have hpos : 0 < mid.length := List.length_pos_iff.mpr hnil
    rw [if_neg (by omega)]
    constructor
    · intro h
      have hds := isDigit_of_parseDigits h
      rw [parseDigits_eq mid 0 hds (Nat.zero_le _)] at h
      split at h
      · rename_i hfit
        cases h
        exact ⟨hnil, hds, rfl, hfit⟩
      · cases h
    · rintro ⟨-, hds, rfl, hfit⟩
      rw [parseDigits_eq mid 0 hds (Nat.zero_le _), if_pos hfit]

/-! ## The fields -/

/-- The attachment count: digits and a dash, for a binary type only. -/
inductive CountField : PacketType → Bytes → Nat → Prop where
  | absent {type : PacketType} : type.isBinary = false → CountField type [] 0
  | digits {type : PacketType} {ds : Bytes} : type.isBinary = true → ds ≠ [] →
      (∀ b ∈ ds, isDigit b = true) → 1 ≤ digitsValue 0 ds → digitsValue 0 ds ≤ intMax →
      CountField type (ds ++ [byteOf '-']) (digitsValue 0 ds)

/-- The namespace in front of `rest`: up to the first comma, or to the end
of the frame if there is none. -/
inductive NspField (rest : Bytes) : Bytes → Bytes → Prop where
  | absent : rest.head? ≠ some (byteOf '/') → NspField rest [] (ascii "/")
  | comma {nsp : Bytes} : nsp.head? = some (byteOf '/') → byteOf ',' ∉ nsp →
      NspField rest (nsp ++ [byteOf ',']) nsp
  | toEnd {nsp : Bytes} : nsp.head? = some (byteOf '/') → byteOf ',' ∉ nsp → rest = [] →
      NspField rest nsp nsp

/-- The acknowledgement id in front of `rest`: all the digits there. -/
inductive IdField (rest : Bytes) : Bytes → Int → Prop where
  | absent : (∀ b ∈ rest.head?, isDigit b = false) → IdField rest [] (-1)
  | digits {ds : Bytes} : ds ≠ [] → (∀ b ∈ ds, isDigit b = true) →
      (∀ b ∈ rest.head?, isDigit b = false) → digitsValue 0 ds ≤ intMax →
      IdField rest ds (digitsValue 0 ds)

/-- The payload. -/
inductive JsonField (T : JsonText) : Bytes → Json → Prop where
  | absent : JsonField T [] .null
  | text {text : Bytes} {data : Json} : text ≠ [] → T.parse text = some data →
      JsonField T text data

/-- A text frame cut into its fields. -/
structure Fields where
  type : UInt8
  count : Bytes
  nsp : Bytes
  id : Bytes
  json : Bytes
  deriving DecidableEq, Repr

def Fields.text (f : Fields) : Bytes := f.type :: (f.count ++ (f.nsp ++ (f.id ++ f.json)))

/-- The fields spell the header of the packet. -/
structure Spells (T : JsonText) (f : Fields) (p : Packet) : Prop where
  type : isDigit f.type = true ∧ PacketType.ofDigit (digitValue f.type) = some p.type
  count : CountField p.type f.count p.attachments
  nsp : NspField (f.id ++ f.json) f.nsp p.nsp
  id : IdField f.json f.id p.id
  json : JsonField T f.json p.data

theorem CountField.value {type : PacketType} {c : Bytes} {n : Nat} (h : CountField type c n) :
    (type.isBinary = false ∧ n = 0) ∨ (type.isBinary = true ∧ 1 ≤ n ∧ n ≤ intMax) := by
  cases h with
  | absent hbin => exact .inl ⟨hbin, rfl⟩
  | digits hbin _ _ hone hfit => exact .inr ⟨hbin, hone, hfit⟩

theorem JsonField.value {T : JsonText} {text : Bytes} {data : Json} (h : JsonField T text data) :
    data = .null ∨ T.parse text = some data := by
  cases h with
  | absent => exact .inl rfl
  | text _ hparse => exact .inr hparse

/-! ## The stages compute the fields -/

theorem decodeAttachments_iff (pre s : Bytes) (type : PacketType) (n j : Nat) :
    decodeAttachments (pre ++ s) type pre.length = some (n, j) ↔
      ∃ c rest, s = c ++ rest ∧ CountField type c n ∧ j = (pre ++ c).length := by
  rw [decodeAttachments]
  cases hbin : type.isBinary with
  | false =>
    simp only [Bool.false_eq_true, if_false, Option.some.injEq, Prod.mk.injEq]
    constructor
    · rintro ⟨rfl, rfl⟩
      exact ⟨[], s, rfl, .absent hbin, by simp⟩
    · rintro ⟨c, rest, -, hc, rfl⟩
      cases hc with
      | absent => exact ⟨rfl, by simp⟩
      | digits htrue => simp [hbin] at htrue
  | true =>
    simp only [if_true]
    constructor
    · intro h
      split at h
      · cases h
      · rename_i dash hdash
        obtain ⟨mid, rest, rfl, -, rfl⟩ := findFrom_some hdash
        split at h
        · cases h
        · rename_i m hm
          split at h
          · cases h
          · rename_i hzero
            cases h
            obtain ⟨hne, hds, rfl, hfit⟩ := (parseNonnegativeInt_iff pre mid _ n).mp hm
            refine ⟨mid ++ [byteOf '-'], rest, by simp, .digits hbin hne hds (by omega) hfit, ?_⟩
            simp [Nat.add_assoc]
    · rintro ⟨c, rest, rfl, hc, rfl⟩
      cases hc with
      | absent hfalse => simp [hbin] at hfalse
      | @digits ds _ hne hds hone hfit =>
        have hdash : byteOf '-' ∉ ds := by
          intro hmem
          have := hds _ hmem
          revert this
          decide
        have hread := (parseNonnegativeInt_iff pre ds (byteOf '-' :: rest) _).mpr
          ⟨hne, hds, rfl, hfit⟩
        rw [List.append_assoc, List.singleton_append, findFrom_append pre ds rest _ hdash]
        simp only [hread]
        rw [if_neg (by omega)]
        simp [Nat.add_assoc]

theorem decodeNsp_of_field {pre n rest nsp : Bytes} (h : NspField rest n nsp) :
    decodeNsp (pre ++ (n ++ rest)) pre.length = (nsp, (pre ++ n).length) := by
  have hget : ∀ s : Bytes, (pre ++ s)[pre.length]? = s.head? := by
    intro s
    rw [List.getElem?_append_right (Nat.le_refl _), Nat.sub_self, ← List.head?_eq_getElem?]
  rw [decodeNsp, hget]
  cases h with
  | absent hrest =>
    rw [List.nil_append, if_neg hrest, List.append_nil]
  | comma hslash hcomma =>
    have hhead : ((nsp ++ [byteOf ',']) ++ rest).head? = some (byteOf '/') := by
      rw [List.append_assoc, List.head?_append, hslash]
      rfl
    rw [if_pos hhead, List.append_assoc, List.singleton_append,
      findFrom_append pre nsp rest _ hcomma]
    simp only [Nat.add_sub_cancel_left, substr_append]
    simp [Nat.add_assoc]
  | toEnd hslash hcomma hrest =>
    rw [hrest, List.append_nil, if_pos hslash, findFrom_none pre n _ hcomma]
    simp

/-- A namespace always spells itself somehow. -/
theorem nspField_exists (s : Bytes) : ∃ n rest nsp, s = n ++ rest ∧ NspField rest n nsp := by
  by_cases hslash : s.head? = some (byteOf '/')
  · cases hcomma : findFrom ([] ++ s) (byteOf ',') [].length with
    | none =>
      exact ⟨s, [], s, (List.append_nil s).symm, .toEnd hslash (notMem_of_findFrom hcomma) rfl⟩
    | some k =>
      obtain ⟨nsp, rest, rfl, hno, -⟩ := findFrom_some hcomma
      refine ⟨nsp ++ [byteOf ','], rest, nsp, by simp, .comma ?_ hno⟩
      cases nsp with
      | nil =>
        rw [List.nil_append, List.head?_cons] at hslash
        exact absurd hslash (by decide)
      | cons b nsp => exact hslash
  · exact ⟨[], s, ascii "/", rfl, .absent hslash⟩

theorem decodeNsp_iff (pre s nsp : Bytes) (j : Nat) :
    decodeNsp (pre ++ s) pre.length = (nsp, j) ↔
      ∃ n rest, s = n ++ rest ∧ NspField rest n nsp ∧ j = (pre ++ n).length := by
  constructor
  · intro h
    obtain ⟨n, rest, nsp', rfl, hn⟩ := nspField_exists s
    rw [decodeNsp_of_field hn] at h
    cases h
    exact ⟨n, rest, rfl, hn, rfl⟩
  · rintro ⟨n, rest, rfl, hn, rfl⟩
    exact decodeNsp_of_field hn

theorem decodeId_iff (pre s : Bytes) (id : Int) (j : Nat) :
    decodeId (pre ++ s) pre.length = some (id, j) ↔
      ∃ ds rest, s = ds ++ rest ∧ IdField rest ds id ∧ j = (pre ++ ds).length := by
  have hstage : ∀ ds rest : Bytes, (∀ b ∈ ds, isDigit b = true) →
      (∀ b ∈ rest.head?, isDigit b = false) →
      (decodeId (pre ++ (ds ++ rest)) pre.length = some (id, j) ↔
        IdField rest ds id ∧ j = (pre ++ ds).length) := by
    intro ds rest hds hrest
    rw [List.length_append]
    simp only [decodeId, digitRunEnd_append pre ds rest hds hrest]
    by_cases hnil : ds = []
    · subst hnil
      simp only [List.length_nil, Nat.add_zero, gt_iff_lt, Nat.lt_irrefl, if_false,
        Option.some.injEq, Prod.mk.injEq]
      constructor
      · rintro ⟨rfl, rfl⟩
        exact ⟨.absent hrest, rfl⟩
      · rintro ⟨hid, rfl⟩
        cases hid with
        | absent => exact ⟨rfl, rfl⟩
        | digits hne => exact absurd rfl hne
    · have hpos : 0 < ds.length := List.length_pos_iff.mpr hnil
      rw [if_pos (by omega)]
      constructor
      · intro h
        split at h
        · cases h
        · rename_i n hn
          cases h
          obtain ⟨-, -, rfl, hfit⟩ := (parseNonnegativeInt_iff pre ds rest n).mp hn
          exact ⟨.digits hnil hds hrest hfit, rfl⟩
      · rintro ⟨hid, rfl⟩
        cases hid with
        | absent => exact absurd rfl hnil
        | digits _ _ _ hfit =>
          simp only [(parseNonnegativeInt_iff pre ds rest _).mpr ⟨hnil, hds, rfl, hfit⟩]
  constructor
  · intro h
    obtain ⟨ds, rest, rfl, hds, hrest⟩ := digits_split s
    exact ⟨ds, rest, rfl, (hstage ds rest hds hrest).mp h⟩
  · rintro ⟨ds, rest, rfl, hid, rfl⟩
    refine (hstage ds rest ?_ ?_).mpr ⟨hid, rfl⟩
    · cases hid with
      | absent => simp
      | digits _ hds => exact hds
    · cases hid with
      | absent hrest => exact hrest
      | digits _ _ hrest => exact hrest

theorem decodeData_iff (T : JsonText) (pre s : Bytes) (data : Json) :
    decodeData T (pre ++ s) pre.length = some data ↔ JsonField T s data := by
  rw [decodeData, drop_length_append]
  cases s with
  | nil =>
    simp only [List.append_nil, Nat.lt_irrefl, if_false, Option.some.injEq]
    constructor
    · rintro rfl
      exact .absent
    · intro h
      cases h with
      | absent => rfl
      | text hne => exact absurd rfl hne
  | cons b s =>
    rw [if_pos (by simp)]
    constructor
    · intro h
      exact .text (by simp) h
    · intro h
      cases h with
      | text _ hparse => exact hparse

/-! ## The whole header -/

/-- The stages of `decode`, one after the other. -/
theorem decodeHeader_eq_some {T : JsonText} {payload : Bytes} {p : Packet} :
    decodeHeader T payload = some p ↔ ∃ b s, payload = b :: s ∧
      (isDigit b = true ∧ PacketType.ofDigit (digitValue b) = some p.type) ∧
      ∃ i j k, decodeAttachments payload p.type 1 = some (p.attachments, i) ∧
        decodeNsp payload i = (p.nsp, j) ∧ decodeId payload j = some (p.id, k) ∧
        decodeData T payload k = some p.data := by
  cases payload with
  | nil => simp [decodeHeader]
  | cons b s =>
    simp only [decodeHeader, List.getElem?_cons_zero, Option.bind_eq_bind, Option.bind_some]
    cases hdigit : isDigit b with
    | false => simp [hdigit]
    | true =>
      simp only [Bool.not_true, Bool.false_eq_true, if_false, Option.bind_eq_some_iff]
      constructor
      · rintro ⟨type, htype, ⟨n, i⟩, hcount, ⟨id, k⟩, hid, data, hdata, heq⟩
        cases heq
        exact ⟨b, s, rfl, ⟨hdigit, htype⟩, i, _, k, hcount, rfl, hid, hdata⟩
      · rintro ⟨b', s', heq, ⟨-, htype⟩, i, j, k, hcount, hnsp, hid, hdata⟩
        cases heq
        refine ⟨p.type, htype, (p.attachments, i), hcount, (p.id, k), ?_, p.data, hdata, ?_⟩
        · rw [hnsp]
          exact hid
        · simp only [hnsp]
          rfl

/-- **The header as a grammar.** A frame is decoded to a packet exactly if
it can be cut into fields that spell the packet. -/
theorem decodeHeader_iff (T : JsonText) (payload : Bytes) (p : Packet) :
    decodeHeader T payload = some p ↔ ∃ f : Fields, f.text = payload ∧ Spells T f p := by
  rw [decodeHeader_eq_some]
  constructor
  · rintro ⟨b, s, rfl, htype, i, j, k, hcount, hnsp, hid, hdata⟩
    obtain ⟨c, rest, rfl, hc, rfl⟩ := (decodeAttachments_iff [b] s _ _ _).mp hcount
    obtain ⟨n, rest, rfl, hn, rfl⟩ := (decodeNsp_iff ([b] ++ c) rest _ _).mp hnsp
    obtain ⟨ds, rest, rfl, hds, rfl⟩ := (decodeId_iff ([b] ++ c ++ n) rest _ _).mp (by
      simpa using hid)
    have hj := (decodeData_iff T ([b] ++ c ++ n ++ ds) rest _).mp (by simpa using hdata)
    exact ⟨⟨b, c, n, ds, rest⟩, rfl, htype, hc, hn, hds, hj⟩
  · rintro ⟨⟨b, c, n, ds, rest⟩, rfl, htype, hc, hn, hds, hj⟩
    refine ⟨b, _, rfl, htype, ([b] ++ c).length, ([b] ++ c ++ n).length,
      ([b] ++ c ++ n ++ ds).length, ?_, ?_, ?_, ?_⟩
    · exact (decodeAttachments_iff [b] _ _ _ _).mpr ⟨c, _, rfl, hc, rfl⟩
    · exact (decodeNsp_iff ([b] ++ c) _ _ _).mpr ⟨n, _, rfl, hn, rfl⟩
    · have h := (decodeId_iff ([b] ++ c ++ n) _ _ _).mpr ⟨ds, _, rfl, hds, rfl⟩
      simpa [Fields.text] using h
    · have h := (decodeData_iff T ([b] ++ c ++ n ++ ds) _ _).mpr hj
      simpa [Fields.text] using h

/-- **Only one decomposition.** The decoder stops behind each field, so a
frame cannot be cut in two ways. -/
theorem Spells.unique {T : JsonText} {f f' : Fields} {p p' : Packet} (h : Spells T f p)
    (h' : Spells T f' p') (htext : f.text = f'.text) : f = f' ∧ p = p' := by
  have hp : p = p' := by
    have hdecode := (decodeHeader_iff T f.text p).mpr ⟨f, rfl, h⟩
    have hdecode' := (decodeHeader_iff T f'.text p').mpr ⟨f', rfl, h'⟩
    rw [htext, hdecode', Option.some.injEq] at hdecode
    exact hdecode.symm
  subst hp
  refine ⟨?_, rfl⟩
  obtain ⟨b, c, n, ds, rest⟩ := f
  obtain ⟨b', c', n', ds', rest'⟩ := f'
  simp only [Fields.text, List.cons.injEq] at htext
  obtain ⟨rfl, htext⟩ := htext
  -- each stage ends at one position, so the fields are of the same length
  have hcount := (decodeAttachments_iff [b] _ _ _ _).mpr
    ⟨c, n ++ (ds ++ rest), rfl, h.count, rfl⟩
  rw [htext, (decodeAttachments_iff [b] _ _ _ _).mpr
    ⟨c', n' ++ (ds' ++ rest'), rfl, h'.count, rfl⟩] at hcount
  obtain ⟨rfl, hafter⟩ := List.append_inj htext (by simpa using hcount.symm)
  have hnsp := (decodeNsp_iff [] _ _ _).mpr ⟨n, ds ++ rest, rfl, h.nsp, rfl⟩
  rw [hafter, (decodeNsp_iff [] _ _ _).mpr ⟨n', ds' ++ rest', rfl, h'.nsp, rfl⟩] at hnsp
  obtain ⟨rfl, hlast⟩ := List.append_inj hafter (by simpa using hnsp.symm)
  have hid := (decodeId_iff [] _ _ _).mpr ⟨ds, rest, rfl, h.id, rfl⟩
  rw [hlast, (decodeId_iff [] _ _ _).mpr ⟨ds', rest', rfl, h'.id, rfl⟩] at hid
  obtain ⟨rfl, rfl⟩ := List.append_inj hlast (by simpa using hid.symm)
  rfl

end Sioxx.JsonParser
