/-
Sioxx.EngineIO.Base64Theorems — which strings the decoder of binary
packets takes for base64.

`ValidBase64` and `rfcDecode` say what base64 is: padding only at the end,
and the six-bit values of the characters before it, written one behind
another and cut into octets. `base64_decode` looks at four characters at a
time and allows padding as the third and fourth of every group
(`base64Decode_isSome_iff`), also of one that is not the last and also as
the third alone.

So it takes everything that is valid and decodes it rightly
(`base64Decode_valid`), and goes wrong exactly on the strings of such groups
in which something else follows a padding character (`decodesExactly_iff`).
-/
import Sioxx.EngineIO.PollingTheorems

namespace Sioxx

open Lib

def pad : UInt8 := byteOf '='

/-! ## Base64 -/

/-- Groups of four characters of the alphabet, the last one or two of which
may be padding. -/
def ValidBase64 (s : Bytes) : Prop :=
  s.length % 4 = 0 ∧ ∃ body pads, s = body ++ pads ∧
    (pads = [] ∨ pads = [pad] ∨ pads = [pad, pad]) ∧ ∀ c ∈ body, c ∈ base64Alphabet

/-- Six bits, the highest first. -/
def sextet (v : Nat) : List Nat :=
  [v / 32 % 2, v / 16 % 2, v / 8 % 2, v / 4 % 2, v / 2 % 2, v % 2]

/-- Octets of bits; what does not fill one is dropped. -/
def octets : List Nat → Bytes
  | b₇ :: b₆ :: b₅ :: b₄ :: b₃ :: b₂ :: b₁ :: b₀ :: rest =>
    UInt8.ofNat (b₇ * 128 + b₆ * 64 + b₅ * 32 + b₄ * 16 + b₃ * 8 + b₂ * 4 + b₁ * 2 + b₀)
      :: octets rest
  | _ => []

/-- RFC 4648, section 4. -/
def rfcDecode (s : Bytes) : Bytes :=
  octets ((s.takeWhile (· ≠ pad)).flatMap fun c => sextet (base64Alphabet.idxOf c))

/-! ## What the decoder takes -/

/-- Two characters of the alphabet and two that may be padding. -/
def PaddedGroup (w x y z : UInt8) : Prop :=
  w ∈ base64Alphabet ∧ x ∈ base64Alphabet ∧ (y ∈ base64Alphabet ∨ y = pad) ∧
    (z ∈ base64Alphabet ∨ z = pad)

/-- Groups of four, one behind another. -/
def Grouped : Bytes → Prop
  | [] => True
  | w :: x :: y :: z :: rest => PaddedGroup w x y z ∧ Grouped rest
  | _ => False

/-- Something else follows a padding character. -/
def PadInside (s : Bytes) : Prop := ∃ front c back, s = front ++ pad :: c :: back ∧ c ≠ pad

/-- The decoder takes a string exactly if it is base64, and then for what it
stands for. -/
def DecodesExactly (s : Bytes) : Prop :=
  ((pollingDecodeBinary (byteOf 'b' :: s)).isSome = true ↔ ValidBase64 s) ∧
    ∀ x, pollingDecodeBinary (byteOf 'b' :: s) = some x → x = rfcDecode s

theorem base64Char_value_ofNat : ∀ n, n < 256 → (base64Value (UInt8.ofNat n)).isSome = true →
    base64Char ((base64Value (UInt8.ofNat n)).getD 0) = UInt8.ofNat n := by
  decide +kernel

theorem base64Alphabet_length : base64Alphabet.length = 64 := by decide

theorem base64Char_eq {n : Nat} (hlt : n < base64Alphabet.length) :
    base64Char n = base64Alphabet.get ⟨n, hlt⟩ := by
  have hmod : n % 64 = n := Nat.mod_eq_of_lt (base64Alphabet_length ▸ hlt)
  rw [base64Char, hmod, List.getD_eq_getElem?_getD, List.getElem?_eq_getElem hlt,
    Option.getD_some, List.get_eq_getElem]

theorem base64Char_mem (n : Nat) : base64Char n ∈ base64Alphabet := by
  have hlt : n % 64 < base64Alphabet.length := by
    rw [base64Alphabet_length]
    exact Nat.mod_lt n (by decide)
  rw [base64Char_mod, base64Char_eq hlt]
  exact List.get_mem _ _

theorem idxOf_lt {c : UInt8} (h : c ∈ base64Alphabet) : base64Alphabet.idxOf c < 64 :=
  base64Alphabet_length ▸ List.idxOf_lt_length_of_mem h

/-- `base64_value` is the position in the alphabet. -/
theorem base64Value_mem {c : UInt8} (h : c ∈ base64Alphabet) :
    base64Value c = some (base64Alphabet.idxOf c) := by
  have hlt := idxOf_lt h
  have hchar : base64Char (base64Alphabet.idxOf c) = c := by
    rw [base64Char_eq (List.idxOf_lt_length_of_mem h), List.get_eq_getElem]
    exact List.getElem_idxOf _
  have hvalue := base64Value_char (base64Alphabet.idxOf c)
  rwa [hchar, Nat.mod_eq_of_lt hlt] at hvalue

theorem base64Value_isSome_iff (c : UInt8) :
    (base64Value c).isSome = true ↔ c ∈ base64Alphabet := by
  constructor
  · intro h
    have hchar := base64Char_value_ofNat c.toNat c.toNat_lt
    rw [UInt8.ofNat_toNat] at hchar
    rw [← hchar h]
    exact base64Char_mem _
  · intro h
    rw [base64Value_mem h]
    rfl

/-- Padding is not in the alphabet. -/
theorem pad_notMem : pad ∉ base64Alphabet := by decide

theorem ne_pad {c : UInt8} (h : c ∈ base64Alphabet) : c ≠ pad := by
  rintro rfl
  exact pad_notMem h

/-- A group that is not one is refused. -/
theorem base64Quad_isSome_iff (w x y z : UInt8) :
    (base64Quad w x y z).isSome = true ↔ PaddedGroup w x y z := by
  have hpadded : ∀ c, (if c = byteOf '=' then some 0 else base64Value c).isSome = true ↔
      c ∈ base64Alphabet ∨ c = pad := by
    intro c
    split
    · rename_i hc
      simp [hc, pad]
    · rename_i hc
      rw [base64Value_isSome_iff]
      simp [pad, hc]
  rw [PaddedGroup, ← base64Value_isSome_iff, ← base64Value_isSome_iff, ← hpadded, ← hpadded,
    base64Quad]
  cases base64Value w <;> cases base64Value x <;>
    cases (if y = byteOf '=' then some 0 else base64Value y) <;>
    cases (if z = byteOf '=' then some 0 else base64Value z) <;> simp

theorem base64Decode_isSome_iff : ∀ s : Bytes, (base64Decode s).isSome = true ↔ Grouped s
  | [] => by simp [base64Decode, Grouped]
  | [_] => by simp [base64Decode, Grouped]
  | [_, _] => by simp [base64Decode, Grouped]
  | [_, _, _] => by simp [base64Decode, Grouped]
  | w :: x :: y :: z :: rest => by
      rw [base64Decode, Grouped, ← base64Quad_isSome_iff, ← base64Decode_isSome_iff rest]
      cases base64Quad w x y z with
      | none => simp
      | some bytes => simp

/-! ## What it makes of it -/

theorem ofNat_congr {m n : Nat} (h : m % 256 = n % 256) : UInt8.ofNat m = UInt8.ofNat n := by
  rw [← UInt8.ofNat_mod_size, h, UInt8.ofNat_mod_size]

/-- The bits of a number below 64, taken together in the ways octets take
them. -/
theorem sextet_bits : ∀ v, v < 64 →
    v / 32 % 2 * 32 + v / 16 % 2 * 16 + v / 8 % 2 * 8 + v / 4 % 2 * 4 + v / 2 % 2 * 2 + v % 2 = v ∧
    v / 32 % 2 * 2 + v / 16 % 2 = v / 16 ∧
    v / 8 % 2 * 8 + v / 4 % 2 * 4 + v / 2 % 2 * 2 + v % 2 = v % 16 ∧
    v / 32 % 2 * 8 + v / 16 % 2 * 4 + v / 8 % 2 * 2 + v / 4 % 2 = v / 4 ∧
    v / 2 % 2 * 2 + v % 2 = v % 4 := by
  decide

section Octets

variable {a b c d : Nat} (ha : a < 64) (hb : b < 64)
include ha hb

theorem octets_first (rest : List Nat) : octets (sextet a ++ (sextet b ++ rest))
    = UInt8.ofNat (a * 4 + b / 16) ::
        octets (b / 8 % 2 :: b / 4 % 2 :: b / 2 % 2 :: b % 2 :: rest) := by
  obtain ⟨hall, -, -, -, -⟩ := sextet_bits a ha
  obtain ⟨-, hhigh, -, -, -⟩ := sextet_bits b hb
  have hvalue : ∀ a₅ a₄ a₃ a₂ a₁ a₀ b₅ b₄ : Nat,
      a₅ * 32 + a₄ * 16 + a₃ * 8 + a₂ * 4 + a₁ * 2 + a₀ = a → b₅ * 2 + b₄ = b / 16 →
        a₅ * 128 + a₄ * 64 + a₃ * 32 + a₂ * 16 + a₁ * 8 + a₀ * 4 + b₅ * 2 + b₄
          = a * 4 + b / 16 := by
    intros
    omega
  simp only [sextet, List.cons_append, List.nil_append, octets]
  rw [hvalue _ _ _ _ _ _ _ _ hall hhigh]

omit ha in
theorem octets_second (hc : c < 64) (rest : List Nat) :
    octets (b / 8 % 2 :: b / 4 % 2 :: b / 2 % 2 :: b % 2 :: (sextet c ++ rest))
      = UInt8.ofNat (b % 16 * 16 + c / 4) :: octets (c / 2 % 2 :: c % 2 :: rest) := by
  obtain ⟨-, -, hlow, -, -⟩ := sextet_bits b hb
  obtain ⟨-, -, -, hhigh, -⟩ := sextet_bits c hc
  have hvalue : ∀ b₃ b₂ b₁ b₀ c₅ c₄ c₃ c₂ : Nat,
      b₃ * 8 + b₂ * 4 + b₁ * 2 + b₀ = b % 16 → c₅ * 8 + c₄ * 4 + c₃ * 2 + c₂ = c / 4 →
        b₃ * 128 + b₂ * 64 + b₁ * 32 + b₀ * 16 + c₅ * 8 + c₄ * 4 + c₃ * 2 + c₂
          = b % 16 * 16 + c / 4 := by
    intros
    omega
  simp only [sextet, List.cons_append, List.nil_append, octets]
  rw [hvalue _ _ _ _ _ _ _ _ hlow hhigh]

omit ha hb in
theorem octets_third (hc : c < 64) (hd : d < 64) (rest : List Nat) :
    octets (c / 2 % 2 :: c % 2 :: (sextet d ++ rest))
      = UInt8.ofNat (c % 4 * 64 + d) :: octets rest := by
  obtain ⟨-, -, -, -, hlow⟩ := sextet_bits c hc
  obtain ⟨hall, -, -, -, -⟩ := sextet_bits d hd
  have hvalue : ∀ c₁ c₀ d₅ d₄ d₃ d₂ d₁ d₀ : Nat,
      c₁ * 2 + c₀ = c % 4 → d₅ * 32 + d₄ * 16 + d₃ * 8 + d₂ * 4 + d₁ * 2 + d₀ = d →
        c₁ * 128 + c₀ * 64 + d₅ * 32 + d₄ * 16 + d₃ * 8 + d₂ * 4 + d₁ * 2 + d₀
          = c % 4 * 64 + d := by
    intros
    omega
  simp only [sextet, List.cons_append, List.nil_append, octets]
  rw [hvalue _ _ _ _ _ _ _ _ hlow hall]

/-- Four characters fill three octets. -/
theorem octets_full (hc : c < 64) (hd : d < 64) (rest : List Nat) :
    octets (sextet a ++ (sextet b ++ (sextet c ++ (sextet d ++ rest))))
      = [UInt8.ofNat ((a * 2 ^ 18 + b * 2 ^ 12 + c * 2 ^ 6 + d) / 2 ^ 16),
          UInt8.ofNat ((a * 2 ^ 18 + b * 2 ^ 12 + c * 2 ^ 6 + d) / 2 ^ 8),
          UInt8.ofNat (a * 2 ^ 18 + b * 2 ^ 12 + c * 2 ^ 6 + d)] ++ octets rest := by
  rw [octets_first ha hb, octets_second hb hc, octets_third hc hd]
  simp only [List.cons_append, List.nil_append, List.cons.injEq, and_true]
  exact ⟨ofNat_congr (by omega), ofNat_congr (by omega), ofNat_congr (by omega)⟩

/-- Three fill two, and two bits are left over. -/
theorem octets_onePad (hc : c < 64) :
    octets (sextet a ++ (sextet b ++ (sextet c ++ [])))
      = [UInt8.ofNat ((a * 2 ^ 18 + b * 2 ^ 12 + c * 2 ^ 6) / 2 ^ 16),
          UInt8.ofNat ((a * 2 ^ 18 + b * 2 ^ 12 + c * 2 ^ 6) / 2 ^ 8)] := by
  rw [octets_first ha hb, octets_second hb hc]
  simp only [octets, List.cons.injEq, and_true]
  exact ⟨ofNat_congr (by omega), ofNat_congr (by omega)⟩

/-- Two fill one, and four bits are left over. -/
theorem octets_twoPads :
    octets (sextet a ++ (sextet b ++ []))
      = [UInt8.ofNat ((a * 2 ^ 18 + b * 2 ^ 12) / 2 ^ 16)] := by
  rw [octets_first ha hb]
  simp only [octets, List.cons.injEq, and_true]
  exact ofNat_congr (by omega)

end Octets

/-! ## Valid strings -/

theorem takeWhile_body {body pads : Bytes} (hbody : ∀ c ∈ body, c ∈ base64Alphabet)
    (hpads : pads = [] ∨ pads = [pad] ∨ pads = [pad, pad]) :
    (body ++ pads).takeWhile (· ≠ pad) = body := by
  rw [List.takeWhile_append_of_pos (fun c hc => by simpa using ne_pad (hbody c hc))]
  rcases hpads with rfl | rfl | rfl <;> simp

/-- The decoder takes what is valid, and makes of it what it should. -/
theorem base64Decode_valid : ∀ {body pads : Bytes}, (body ++ pads).length % 4 = 0 →
    (pads = [] ∨ pads = [pad] ∨ pads = [pad, pad]) → (∀ c ∈ body, c ∈ base64Alphabet) →
    base64Decode (body ++ pads)
      = some (octets (body.flatMap fun c => sextet (base64Alphabet.idxOf c)))
  | [], pads, hlen, hpads, _ => by
      rcases hpads with rfl | rfl | rfl
      · rfl
      · simp at hlen
      · simp at hlen
  | [w], pads, hlen, hpads, _ => by
      rcases hpads with rfl | rfl | rfl <;> simp at hlen
  | [w, x], pads, hlen, hpads, hbody => by
      rcases hpads with rfl | rfl | rfl
      · simp at hlen
      · simp at hlen
      · simp only [List.forall_mem_cons] at hbody
        obtain ⟨hw, hx, -⟩ := hbody
        have hquad := base64Quad_twoPads (base64Value_mem hw) (base64Value_mem hx)
        have hoctets := octets_twoPads (idxOf_lt hw) (idxOf_lt hx)
        rw [← hoctets] at hquad
        exact base64Decode_quad hquad []
  | [w, x, y], pads, hlen, hpads, hbody => by
      rcases hpads with rfl | rfl | rfl
      · simp at hlen
      · simp only [List.forall_mem_cons] at hbody
        obtain ⟨hw, hx, hy, -⟩ := hbody
        have hquad := base64Quad_onePad (base64Value_mem hw) (base64Value_mem hx)
          (base64Value_mem hy) (ne_pad hy)
        have hoctets := octets_onePad (idxOf_lt hw) (idxOf_lt hx) (idxOf_lt hy)
        rw [← hoctets] at hquad
        exact base64Decode_quad hquad []
      · simp at hlen
  | w :: x :: y :: z :: body, pads, hlen, hpads, hbody => by
      simp only [List.forall_mem_cons] at hbody
      obtain ⟨hw, hx, hy, hz, hbody⟩ := hbody
      have hlen' : (body ++ pads).length % 4 = 0 := by
        simp only [List.cons_append, List.length_cons] at hlen
        omega
      have hrest := base64Decode_valid hlen' hpads hbody
      have hquad := base64Quad_full (base64Value_mem hw) (base64Value_mem hx) (base64Value_mem hy)
        (base64Value_mem hz) (ne_pad hy) (ne_pad hz)
      have hstep := base64Decode_quad hquad (body ++ pads)
      rw [hrest] at hstep
      simp only [List.flatMap_cons]
      rw [octets_full (idxOf_lt hw) (idxOf_lt hx) (idxOf_lt hy) (idxOf_lt hz)]
      exact hstep

theorem PadInside.append {s : Bytes} (h : PadInside s) (front : Bytes) :
    PadInside (front ++ s) := by
  obtain ⟨front', c, back, rfl, hc⟩ := h
  exact ⟨front ++ front', c, back, by simp, hc⟩

/-- Groups without padding inside have it at the end or not at all. -/
theorem valid_of_grouped : ∀ {s : Bytes}, Grouped s → ¬ PadInside s → ValidBase64 s
  | [], _, _ => ⟨rfl, [], [], rfl, .inl rfl, by simp⟩
  | [_], h, _ => h.elim
  | [_, _], h, _ => h.elim
  | [_, _, _], h, _ => h.elim
  | [w, x, y, z], ⟨⟨hw, hx, hy, hz⟩, _⟩, hinside => by
      refine ⟨by simp, ?_⟩
      rcases hz with hz | rfl
      · rcases hy with hy | rfl
        · exact ⟨[w, x, y, z], [], rfl, .inl rfl, by simp [hw, hx, hy, hz]⟩
        · exact absurd ⟨[w, x], z, [], rfl, ne_pad hz⟩ hinside
      · rcases hy with hy | rfl
        · exact ⟨[w, x, y], [pad], rfl, .inr (.inl rfl), by simp [hw, hx, hy]⟩
        · exact ⟨[w, x], [pad, pad], rfl, .inr (.inr rfl), by simp [hw, hx]⟩
  | w :: x :: y :: z :: v :: rest, ⟨⟨hw, hx, hy, hz⟩, hrest⟩, hinside => by
      obtain ⟨hlen, body, pads, hsplit, hpads, hbody⟩ := valid_of_grouped hrest
        (fun h => hinside (h.append [w, x, y, z]))
      have hv : v ≠ pad := by
        match rest, hrest with
        | _ :: _ :: _ :: _, hrest => exact ne_pad hrest.1.1
      -- padding in this group would be followed by `z` or by `v`
      have hz : z ∈ base64Alphabet := by
        refine hz.resolve_right ?_
        rintro rfl
        exact hinside ⟨[w, x, y], v, rest, rfl, hv⟩
      have hy : y ∈ base64Alphabet := by
        refine hy.resolve_right ?_
        rintro rfl
        exact hinside ⟨[w, x], z, v :: rest, rfl, ne_pad hz⟩
      refine ⟨by simp only [List.length_cons] at hlen ⊢; omega, w :: x :: y :: z :: body, pads,
        by rw [hsplit]; rfl, hpads, ?_⟩
      simp only [List.forall_mem_cons]
      exact ⟨hw, hx, hy, hz, hbody⟩

theorem not_padInside_of_valid {s : Bytes} (h : ValidBase64 s) : ¬ PadInside s := by
  obtain ⟨-, body, pads, rfl, hpads, hbody⟩ := h
  rintro ⟨front, c, back, hsplit, hc⟩
  rcases List.append_eq_append_iff.mp hsplit with ⟨more, rfl, hmore⟩ | ⟨more, rfl, hmore⟩
  · -- the padding character is behind the body, and so is `c`
    have hmem : c ∈ pads := by rw [hmore]; simp
    rcases hpads with rfl | rfl | rfl <;> simp [hc] at hmem
  · cases more with
    | nil =>
      have hmem : c ∈ pads := by rw [← List.nil_append pads, ← hmore]; simp
      rcases hpads with rfl | rfl | rfl <;> simp [hc] at hmem
    | cons b more =>
      have hb : pad = b := (List.cons.inj hmore).1
      exact pad_notMem (hbody pad (by simp [hb]))

/-- A binary packet is decoded as base64. -/
theorem pollingDecodeBinary_b (s : Bytes) :
    pollingDecodeBinary (byteOf 'b' :: s) = base64Decode s := by
  rw [pollingDecodeBinary, if_pos rfl]

/-- Padding inside is taken, and should not be. -/
theorem not_decodesExactly {s : Bytes} (hgrouped : Grouped s) (hinside : PadInside s) :
    ¬ DecodesExactly s := by
  rintro ⟨hiff, -⟩
  rw [pollingDecodeBinary_b, base64Decode_isSome_iff] at hiff
  exact not_padInside_of_valid (hiff.mp hgrouped) hinside

/-- **Exactly the strings of groups with padding inside are decoded
wrongly.** -/
theorem decodesExactly_iff (s : Bytes) :
    DecodesExactly s ↔ ¬ (Grouped s ∧ PadInside s) := by
  constructor
  · rintro hexact ⟨hgrouped, hinside⟩
    exact not_decodesExactly hgrouped hinside hexact
  · intro h
    have hvalid : Grouped s ↔ ValidBase64 s := by
      constructor
      · intro hgrouped
        exact valid_of_grouped hgrouped (fun hinside => h ⟨hgrouped, hinside⟩)
      · rintro ⟨hlen, body, pads, rfl, hpads, hbody⟩
        rw [← base64Decode_isSome_iff, base64Decode_valid hlen hpads hbody]
        rfl
    rw [DecodesExactly, pollingDecodeBinary_b, base64Decode_isSome_iff]
    refine ⟨hvalid, fun decoded hdecoded => ?_⟩
    have hgrouped := (base64Decode_isSome_iff s).mp (by rw [hdecoded]; rfl)
    obtain ⟨hlen, body, pads, rfl, hpads, hbody⟩ := hvalid.mp hgrouped
    rw [base64Decode_valid hlen hpads hbody] at hdecoded
    rw [rfcDecode, takeWhile_body hbody hpads]
    exact (Option.some.inj hdecoded).symm

/-- `AA==AAAA` is taken for four octets. -/
theorem paddedInside_accepted :
    pollingDecodeBinary (ascii "bAA==AAAA") = some [0, 0, 0, 0] ∧
      ¬ ValidBase64 (ascii "AA==AAAA") ∧ ¬ DecodesExactly (ascii "AA==AAAA") := by
  have hgrouped : Grouped (ascii "AA==AAAA") := by
    rw [← base64Decode_isSome_iff]
    decide
  have hinside : PadInside (ascii "AA==AAAA") :=
    ⟨ascii "AA=", byteOf 'A', ascii "AAA", by decide, by decide⟩
  exact ⟨by decide, fun hvalid => not_padInside_of_valid hvalid hinside,
    not_decodesExactly hgrouped hinside⟩

/-- A padding character in third place alone is taken, too. -/
example : pollingDecodeBinary (ascii "bAA=A") = some [0, 0] := by decide

end Sioxx
