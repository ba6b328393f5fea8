/-
Sioxx.Parser.NumberTheorems — the counts and ids a text frame carries, as
`parse_nonnegative_int` reads them.

`JsonParser.parseNonnegativeInt` has the answer of the function. Here the
call is modelled with what it does on the way: the destination `out`, and
every value the multiplication gave to `result`. The two agree
(`parseNonnegativeIntInto_agrees`), so what is said here is said about the
attachment count and the id of the decoder.

The values of `result` are the numbers the prefixes of the digits denote
(`digitLoop_results`), and the test before the multiplication lets one
through only if it fits (`digitLoop_fits`).
-/
import Sioxx.Parser.Grammar

namespace Sioxx.JsonParser

open Lib

/-- One call of `parse_nonnegative_int`. -/
structure ParsedInt where
  returned : Bool
  /-- The destination after the call. -/
  out : Int
  /-- What `result * 10 + digit` was, iteration by iteration. -/
  results : List Nat
  deriving DecidableEq, Repr

/-- The loop over the bytes still to read; without a number it has
returned false. -/
def digitLoop : Bytes → Nat → List Nat → Option Nat × List Nat
  | [], result, results => (some result, results)
  | b :: rest, result, results =>
    if !isDigit b then (none, results)
    else if result > (intMax - digitValue b) / 10 then (none, results)
    else
      digitLoop rest (result * 10 + digitValue b) (results ++ [result * 10 + digitValue b])

/-- `parse_nonnegative_int(value, first, last, out)` -/
def parseNonnegativeIntInto (value : Bytes) (first last : Nat) (out : Int) : ParsedInt :=
  if first = last then { returned := false, out, results := [] }
  else
    match digitLoop (substr value first (last - first)) 0 [] with
    | (none, results) => { returned := false, out, results }
    | (some result, results) => { returned := true, out := result, results }

theorem digitLoop_fst : ∀ (ds : Bytes) (result : Nat) (results : List Nat),
    (digitLoop ds result results).1 = parseDigits ds result
  | [], _, _ => rfl
  | b :: rest, result, results => by
      rw [digitLoop, parseDigits]
      split
      · rfl
      · split
        · rfl
        · exact digitLoop_fst rest _ _

/-- The call answers as the decoder's model of it does. -/
theorem parseNonnegativeIntInto_agrees (value : Bytes) (first last : Nat) (out : Int) :
    let call := parseNonnegativeIntInto value first last out
    match parseNonnegativeInt value first last with
    | none => call.returned = false ∧ call.out = out
    | some n => call.returned = true ∧ call.out = n := by
  rw [parseNonnegativeIntInto, parseNonnegativeInt]
  by_cases hempty : first = last
  · simp [hempty]
  · rw [if_neg hempty, if_neg hempty, ← digitLoop_fst _ 0 []]
    cases digitLoop (substr value first (last - first)) 0 [] with
    | mk answer results => cases answer <;> simp

/-- The loop multiplies only where the outcome fits. -/
theorem digitLoop_fits : ∀ (ds : Bytes) (result : Nat) (results : List Nat),
    (∀ v ∈ results, v ≤ intMax) → ∀ v ∈ (digitLoop ds result results).2, v ≤ intMax
  | [], _, _, h => h
  | b :: rest, result, results, h => by
      rw [digitLoop]
      split
      · exact h
      · rename_i hdigit
        split
        · exact h
        · rename_i hroom
          refine digitLoop_fits rest _ _ ?_
          intro v hv
          rcases List.mem_append.mp hv with hv | hv
          · exact h v hv
          · rw [List.mem_singleton.mp hv]
            -- division rounds down, so the test is exact
            simp only [isDigit, decide_eq_true_eq, Bool.not_eq_true', Bool.not_eq_false] at hdigit
            simp only [digitValue, intMax] at hroom ⊢
            omega

/-- The values are those of the prefixes read, one for each iteration that
ends. -/
theorem digitLoop_results : ∀ (ds : Bytes) (result : Nat) (results : List Nat),
    ∃ n ≤ ds.length, (digitLoop ds result results).2
        = results ++ (List.range n).map (fun k => digitsValue result (ds.take (k + 1))) ∧
      ((digitLoop ds result results).1.isSome = true → n = ds.length)
  | [], _, results => ⟨0, Nat.le_refl _, by simp [digitLoop], fun _ => rfl⟩
  | b :: rest, result, results => by
      rw [digitLoop]
      split
      · exact ⟨0, Nat.zero_le _, by simp, by simp⟩
      · split
        · exact ⟨0, Nat.zero_le _, by simp, by simp⟩
        · obtain ⟨n, hn, hvalues, hall⟩ := digitLoop_results rest (result * 10 + digitValue b)
            (results ++ [result * 10 + digitValue b])
          refine ⟨n + 1, Nat.succ_le_succ hn, ?_, fun h => by rw [hall h]; rfl⟩
          rw [hvalues, List.range_succ_eq_map, List.append_assoc]
          simp [digitsValue, Function.comp_def]

/-! ## The bounded number -/

/-- A range inside a text stands between what is before and behind it. -/
theorem range_split {value : Bytes} {first last : Nat} (hle : first ≤ last)
    (hlast : last ≤ value.length) : ∃ pre rest,
    value = pre ++ (substr value first (last - first) ++ rest) ∧ pre.length = first ∧
      (substr value first (last - first)).length = last - first := by
  refine ⟨value.take first, (value.drop first).drop (last - first), ?_, ?_, ?_⟩
  · rw [substr, List.take_append_drop, List.take_append_drop]
  · rw [List.length_take]
    omega
  · rw [substr, List.length_take, List.length_drop]
    omega

theorem parseNonnegativeInt_eq_some_iff {value : Bytes} {first last n : Nat} (hle : first ≤ last)
    (hlast : last ≤ value.length) : parseNonnegativeInt value first last = some n ↔
      first < last ∧ (∀ b ∈ substr value first (last - first), isDigit b = true) ∧
        digitsValue 0 (substr value first (last - first)) = n ∧ n ≤ intMax := by
  obtain ⟨pre, rest, hvalue, hpre, hlen⟩ := range_split hle hlast
  have hiff := parseNonnegativeInt_iff pre (substr value first (last - first)) rest n
  rw [← hvalue, hpre, hlen, Nat.add_sub_cancel' hle] at hiff
  have hempty : substr value first (last - first) ≠ [] ↔ first < last := by
    rw [← List.length_pos_iff, hlen]
    omega
  rw [hiff, hempty]

/-- What a call multiplies out. -/
theorem parseNonnegativeIntInto_results (value : Bytes) (first last : Nat) (out : Int) :
    let call := parseNonnegativeIntInto value first last out
    let range := substr value first (last - first)
    ∃ n ≤ range.length,
      call.results = (List.range n).map (fun k => digitsValue 0 (range.take (k + 1))) ∧
      (call.returned = true → n = range.length) ∧ ∀ v ∈ call.results, v ≤ intMax := by
  rw [parseNonnegativeIntInto]
  by_cases hempty : first = last
  · rw [if_pos hempty]
    exact ⟨0, Nat.zero_le _, rfl, by simp, by simp⟩
  · rw [if_neg hempty]
    have hfits := digitLoop_fits (substr value first (last - first)) 0 [] (by simp)
    obtain ⟨n, hn, hvalues, hall⟩ := digitLoop_results (substr value first (last - first)) 0 []
    cases hloop : digitLoop (substr value first (last - first)) 0 [] with
    | mk answer results =>
      rw [hloop] at hfits hvalues hall
      cases answer with
      | none => exact ⟨n, hn, hvalues, by simp, hfits⟩
      | some result => exact ⟨n, hn, hvalues, fun _ => hall rfl, hfits⟩

/-- What a call says, stores and computes. -/
theorem parseNonnegativeInt_bounded (value : Bytes) (first last : Nat) (out : Int)
    (hle : first ≤ last) (hlast : last ≤ value.length) :
    let call := parseNonnegativeIntInto value first last out
    let range := substr value first (last - first)
    (call.returned = true ↔
      first < last ∧ (∀ b ∈ range, isDigit b = true) ∧ digitsValue 0 range ≤ intMax) ∧
    (call.returned = true → call.out = digitsValue 0 range) ∧
    (call.returned = false → call.out = out) ∧
    ∃ n ≤ range.length,
      call.results = (List.range n).map (fun k => digitsValue 0 (range.take (k + 1))) ∧
      (call.returned = true → n = range.length) ∧ ∀ v ∈ call.results, v ≤ intMax := by
  intro call range
  have hagrees := parseNonnegativeIntInto_agrees value first last out
  have hresults := parseNonnegativeIntInto_results value first last out
  cases hparse : parseNonnegativeInt value first last with
  | none =>
    rw [hparse] at hagrees
    obtain ⟨hreturned, hout⟩ := hagrees
    have hno : ¬ (first < last ∧ (∀ b ∈ range, isDigit b = true) ∧
        digitsValue 0 range ≤ intMax) := by
      rintro ⟨hlt, hdigits, hfits⟩
      have hsome := (parseNonnegativeInt_eq_some_iff hle hlast).mpr ⟨hlt, hdigits, rfl, hfits⟩
      rw [hparse] at hsome
      cases hsome
    exact ⟨by simp [call, hreturned, hno], by simp [call, hreturned], fun _ => hout, hresults⟩
  | some n =>
    rw [hparse] at hagrees
    obtain ⟨hreturned, hout⟩ := hagrees
    obtain ⟨hlt, hdigits, rfl, hfits⟩ := (parseNonnegativeInt_eq_some_iff hle hlast).mp hparse
    exact ⟨⟨fun _ => ⟨hlt, hdigits, hfits⟩, fun _ => hreturned⟩, fun _ => hout,
      by simp [call, hreturned], hresults⟩

/-- Ten zeros before the largest number, and a byte behind it. -/
theorem parseNonnegativeInt_intMax :
    let value := ascii "a00000000002147483647-"
    1 ≤ 21 ∧ 21 ≤ value.length ∧
      (parseNonnegativeIntInto value 1 21 (-1)).out = digitsValue 0 (substr value 1 20) :=
  ⟨by decide, by decide,
    (parseNonnegativeInt_bounded (ascii "a00000000002147483647-") 1 21 (-1) (by decide)
      (by decide)).2.1 (by decide)⟩

example : (parseNonnegativeIntInto (ascii "2147483648") 0 10 7) =
    { returned := false, out := 7, results := [2, 21, 214, 2147, 21474, 214748, 2147483, 21474836,
      214748364] } := by
  decide

end Sioxx.JsonParser
