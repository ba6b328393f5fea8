/-
Sioxx.Client.BackoffTheorems — the policy `reconnect_delay_for_attempt`
implements.

`backoffDelay` states it in one line of rational arithmetic; the source
computes it with four clamps and rounds. Both caps and the rounding are
monotone, so the delay grows with the attempt and with the jitter sample.

The integers of the source are machine integers. `reconnectDelayChecked`
is the source with a range check on every integer it computes, and it
never fails: `attempt - 1` is evaluated only for a positive attempt, and
what is rounded is at most the maximum, which is a 64-bit number.
-/
import Mathlib.Algebra.Order.Round
import Mathlib.Tactic.Linarith
import Mathlib.Tactic.Positivity
import Sioxx.Client.Backoff

namespace Sioxx

variable (initialDelay maxDelay : Int) (jitterFactor : ℚ) (attempt : Int) (jitterSample : ℚ)

/-! ## The policy -/

/-- How often the delay has doubled. -/
def doublings (attempt : Int) : Nat := if attempt ≤ 1 then 0 else (min (attempt - 1) 62).toNat

/-- The delay of an attempt before jitter. -/
def exponentialDelay (initialDelay maxDelay attempt : Int) : ℚ :=
  min (max 0 (maxDelay : ℚ)) (max 0 (initialDelay : ℚ) * 2 ^ doublings attempt)

/-- What the jitter multiplies the delay by. -/
def jitter (jitterFactor jitterSample : ℚ) : ℚ :=
  let factor := max 0 (min 1 jitterFactor)
  let sample := max 0 (min 1 jitterSample)
  1 - factor + 2 * factor * sample

/-- The delay asked for, before rounding. -/
def backoffDelay : ℚ :=
  min (max 0 (maxDelay : ℚ))
    (exponentialDelay initialDelay maxDelay attempt * jitter jitterFactor jitterSample)

/-! ## Machine integers -/

/-- A value of `int64_t`, `none` if it does not fit. -/
def int64Checked (i : Int) : Option Int := if -(2 ^ 63) ≤ i ∧ i < 2 ^ 63 then some i else none

/-- A value of `int`. -/
def intChecked (i : Int) : Option Int := if -(2 ^ 31) ≤ i ∧ i < 2 ^ 31 then some i else none

/-- The exponent of the source. -/
def exponentChecked (attempt : Int) : Option Int :=
  if attempt ≤ 1 then intChecked 0
  else do
    let previous ← intChecked (attempt - 1)
    intChecked (min previous 62)

/-- `reconnect_delay_for_attempt` with a check on every integer. -/
def reconnectDelayChecked : Option Int := do
  let initial ← int64Checked (max 0 initialDelay)
  let maximum ← int64Checked (max 0 maxDelay)
  let exponent ← exponentChecked attempt
  let multiplier : ℚ := 2 ^ exponent.toNat
  let exponential : ℚ := min maximum (initial * multiplier)
  let factor := clampUnit jitterFactor
  let sample := clampUnit jitterSample
  let delayed : ℚ := min maximum (exponential * (1 - factor + 2 * factor * sample))
  int64Checked (llround delayed)

/-! ## The code computes the policy -/

/-- The two tests of the code clamp to the unit interval. -/
theorem clampUnit_eq (x : ℚ) : clampUnit x = max 0 (min 1 x) := by
  rw [clampUnit]
  split
  · rename_i h
    rw [min_eq_right (by linarith), max_eq_left (by linarith)]
  · split
    · rename_i h
      rw [min_eq_left (by linarith), max_eq_right (by norm_num)]
    · rw [min_eq_right (by linarith), max_eq_right (by linarith)]

/-- `llround` rounds half up where it is used. -/
theorem llround_eq {x : ℚ} (h : 0 ≤ x) : llround x = round x := by
  rw [llround, if_pos h, round_eq]

/-- Jitter never turns a delay around. -/
theorem jitter_nonneg : 0 ≤ jitter jitterFactor jitterSample := by
  have hfactor : 0 ≤ max 0 (min 1 jitterFactor) := le_max_left _ _
  have hkept : 0 ≤ 1 - max 0 (min 1 jitterFactor) :=
    sub_nonneg.mpr (max_le zero_le_one (min_le_left _ _))
  have hsample : 0 ≤ max 0 (min 1 jitterSample) := le_max_left _ _
  exact add_nonneg hkept (mul_nonneg (mul_nonneg zero_le_two hfactor) hsample)

theorem exponentialDelay_nonneg : 0 ≤ exponentialDelay initialDelay maxDelay attempt :=
  le_min (le_max_left _ _) (mul_nonneg (le_max_left _ _) (by positivity))

/-- The delay lies between zero and the maximum, before it is rounded. -/
theorem backoffDelay_nonneg :
    0 ≤ backoffDelay initialDelay maxDelay jitterFactor attempt jitterSample :=
  le_min (le_max_left _ _)
    (mul_nonneg (exponentialDelay_nonneg _ _ _) (jitter_nonneg _ _))

theorem backoffDelay_le :
    backoffDelay initialDelay maxDelay jitterFactor attempt jitterSample
      ≤ (max 0 maxDelay : Int) := by
  rw [Int.cast_max, Int.cast_zero]
  exact min_le_left _ _

/-- The code computes the policy and rounds it. -/
theorem reconnectDelayForAttempt_eq :
    reconnectDelayForAttempt initialDelay maxDelay jitterFactor attempt jitterSample
      = round (backoffDelay initialDelay maxDelay jitterFactor attempt jitterSample) := by
  rw [← llround_eq (backoffDelay_nonneg _ _ _ _ _)]
  simp only [reconnectDelayForAttempt, backoffDelay, exponentialDelay, jitter, doublings,
    clampUnit_eq, Int.cast_max, Int.cast_zero]

theorem round_mono {x y : ℚ} (h : x ≤ y) : round x ≤ round y := by
  rw [round_eq, round_eq]
  exact Int.floor_mono (by linarith)

/-- Rounding does not leave the range, since its ends are integers. -/
theorem reconnectDelayForAttempt_mem :
    0 ≤ reconnectDelayForAttempt initialDelay maxDelay jitterFactor attempt jitterSample ∧
      reconnectDelayForAttempt initialDelay maxDelay jitterFactor attempt jitterSample
        ≤ max 0 maxDelay := by
  have hlo := round_mono
    (backoffDelay_nonneg initialDelay maxDelay jitterFactor attempt jitterSample)
  have hhi := round_mono (backoffDelay_le initialDelay maxDelay jitterFactor attempt jitterSample)
  rw [round_zero] at hlo
  rw [round_intCast] at hhi
  rw [reconnectDelayForAttempt_eq]
  exact ⟨hlo, hhi⟩

/-! ## Monotonicity -/

/-- A later attempt doubles no less. -/
theorem doublings_mono {a b : Int} (h : a ≤ b) : doublings a ≤ doublings b := by
  simp only [doublings]
  split <;> split <;> omega

theorem exponentialDelay_mono {a b : Int} (h : a ≤ b) :
    exponentialDelay initialDelay maxDelay a ≤ exponentialDelay initialDelay maxDelay b := by
  have hpow : (2 : ℚ) ^ doublings a ≤ 2 ^ doublings b :=
    pow_le_pow_right₀ one_le_two (doublings_mono h)
  exact min_le_min_left _ (mul_le_mul_of_nonneg_left hpow (le_max_left _ _))

/-- A larger sample means more jitter. -/
theorem jitter_mono {s t : ℚ} (h : s ≤ t) : jitter jitterFactor s ≤ jitter jitterFactor t := by
  have hclamp : max 0 (min 1 s) ≤ max 0 (min 1 t) := max_le_max_left _ (min_le_min_left _ h)
  have hfactor : 0 ≤ 2 * max 0 (min 1 jitterFactor) := mul_nonneg zero_le_two (le_max_left _ _)
  exact add_le_add_right (mul_le_mul_of_nonneg_left hclamp hfactor) _

/-- A later attempt waits no less. -/
theorem backoffDelay_mono_attempt {a b : Int} (h : a ≤ b) :
    backoffDelay initialDelay maxDelay jitterFactor a jitterSample
      ≤ backoffDelay initialDelay maxDelay jitterFactor b jitterSample :=
  min_le_min_left _
    (mul_le_mul_of_nonneg_right (exponentialDelay_mono _ _ h) (jitter_nonneg _ _))

/-- A larger sample waits no less. -/
theorem backoffDelay_mono_sample {s t : ℚ} (h : s ≤ t) :
    backoffDelay initialDelay maxDelay jitterFactor attempt s
      ≤ backoffDelay initialDelay maxDelay jitterFactor attempt t :=
  min_le_min_left _
    (mul_le_mul_of_nonneg_left (jitter_mono _ h) (exponentialDelay_nonneg _ _ _))

/-! ## No jitter -/

/-- Without jitter the delay is the initial one doubled, up to the maximum. -/
theorem backoffDelay_noJitter (hfactor : max 0 (min 1 jitterFactor) = 0) (hlo : 1 ≤ attempt)
    (hhi : attempt ≤ 63) :
    backoffDelay initialDelay maxDelay jitterFactor attempt jitterSample
      = (min (max 0 maxDelay) (max 0 initialDelay * 2 ^ (attempt - 1).toNat) : Int) := by
  have hjitter : jitter jitterFactor jitterSample = 1 := by
    simp [jitter, hfactor]
  have hdoublings : doublings attempt = (attempt - 1).toNat := by
    simp only [doublings]
    split <;> omega
  rw [backoffDelay, exponentialDelay, hjitter, hdoublings, mul_one, min_eq_right (min_le_left _ _)]
  push_cast
  rfl

/-! ## Machine integers suffice -/

theorem int64Checked_eq {i : Int} (h : -(2 ^ 63) ≤ i ∧ i < 2 ^ 63) : int64Checked i = some i :=
  if_pos h

theorem intChecked_eq {i : Int} (h : -(2 ^ 31) ≤ i ∧ i < 2 ^ 31) : intChecked i = some i :=
  if_pos h

/-- No step on the way to the exponent overflows. -/
theorem exponentChecked_eq (hattempt : attempt < 2 ^ 31) :
    exponentChecked attempt = some (doublings attempt : Int) := by
  rw [exponentChecked, doublings]
  split
  · exact intChecked_eq (by omega)
  · rw [intChecked_eq (by omega)]
    have hcapped := intChecked_eq (i := min (attempt - 1) 62) (by omega)
    rw [Int.toNat_of_nonneg (by omega)]
    exact hcapped

/-- Nor does any other integer step. -/
theorem reconnectDelayChecked_eq (hinitial : initialDelay < 2 ^ 63) (hmax : maxDelay < 2 ^ 63)
    (hattempt : attempt < 2 ^ 31) :
    reconnectDelayChecked initialDelay maxDelay jitterFactor attempt jitterSample
      = some
        (reconnectDelayForAttempt initialDelay maxDelay jitterFactor attempt jitterSample) := by
  obtain ⟨hlo, hhi⟩ :=
    reconnectDelayForAttempt_mem initialDelay maxDelay jitterFactor attempt jitterSample
  rw [← int64Checked_eq (i := reconnectDelayForAttempt initialDelay maxDelay jitterFactor attempt
    jitterSample) (by omega), reconnectDelayChecked, int64Checked_eq (by omega),
    int64Checked_eq (by omega), exponentChecked_eq _ hattempt]
  rfl

/-! ## The policy as a whole -/

/-- The delays of one configuration and jitter. -/
structure BackoffPolicy (initialDelay maxDelay : Int) (jitterFactor : ℚ) (attempt : Int)
    (jitterSample : ℚ) : Prop where
  rounded : reconnectDelayForAttempt initialDelay maxDelay jitterFactor attempt jitterSample
    = round (backoffDelay initialDelay maxDelay jitterFactor attempt jitterSample)
  nearest : |backoffDelay initialDelay maxDelay jitterFactor attempt jitterSample
    - reconnectDelayForAttempt initialDelay maxDelay jitterFactor attempt jitterSample| ≤ 1 / 2
  mem : 0 ≤ reconnectDelayForAttempt initialDelay maxDelay jitterFactor attempt jitterSample ∧
    reconnectDelayForAttempt initialDelay maxDelay jitterFactor attempt jitterSample
      ≤ max 0 maxDelay
  fits : reconnectDelayForAttempt initialDelay maxDelay jitterFactor attempt jitterSample < 2 ^ 63
  checked : reconnectDelayChecked initialDelay maxDelay jitterFactor attempt jitterSample
    = some (reconnectDelayForAttempt initialDelay maxDelay jitterFactor attempt jitterSample)
  attempts : ∀ later, attempt ≤ later →
    reconnectDelayForAttempt initialDelay maxDelay jitterFactor attempt jitterSample
      ≤ reconnectDelayForAttempt initialDelay maxDelay jitterFactor later jitterSample
  samples : ∀ sample, jitterSample ≤ sample →
    reconnectDelayForAttempt initialDelay maxDelay jitterFactor attempt jitterSample
      ≤ reconnectDelayForAttempt initialDelay maxDelay jitterFactor attempt sample
  noJitter : max 0 (min 1 jitterFactor) = 0 → 1 ≤ attempt → attempt ≤ 63 →
    reconnectDelayForAttempt initialDelay maxDelay jitterFactor attempt jitterSample
      = min (max 0 maxDelay) (max 0 initialDelay * 2 ^ (attempt - 1).toNat)

/-- **The policy holds** for all values of the machine's integers. -/
theorem backoffPolicy (hinitial : -(2 ^ 63) ≤ initialDelay ∧ initialDelay < 2 ^ 63)
    (hmax : -(2 ^ 63) ≤ maxDelay ∧ maxDelay < 2 ^ 63)
    (hattempt : -(2 ^ 31) ≤ attempt ∧ attempt < 2 ^ 31) :
    BackoffPolicy initialDelay maxDelay jitterFactor attempt jitterSample where
  rounded := reconnectDelayForAttempt_eq _ _ _ _ _
  nearest := by
    rw [reconnectDelayForAttempt_eq]
    exact abs_sub_round _
  mem := reconnectDelayForAttempt_mem _ _ _ _ _
  fits := by
    have hhi := (reconnectDelayForAttempt_mem initialDelay maxDelay jitterFactor attempt
      jitterSample).2
    omega
  checked := reconnectDelayChecked_eq _ _ _ _ _ hinitial.2 hmax.2 hattempt.2
  attempts later h := by
    rw [reconnectDelayForAttempt_eq, reconnectDelayForAttempt_eq]
    exact round_mono (backoffDelay_mono_attempt _ _ _ _ h)
  samples sample h := by
    rw [reconnectDelayForAttempt_eq, reconnectDelayForAttempt_eq]
    exact round_mono (backoffDelay_mono_sample _ _ _ _ h)
  noJitter hfactor hlo hhi := by
    rw [reconnectDelayForAttempt_eq, backoffDelay_noJitter _ _ _ _ _ hfactor hlo hhi]
    exact round_intCast _

/-- The extremes of the ranges. -/
theorem backoffPolicy_extremes :
    BackoffPolicy (2 ^ 63 - 1) (2 ^ 63 - 1) (3 / 2) (-(2 ^ 31)) (1 / 3) ∧
      BackoffPolicy (-(2 ^ 63)) (2 ^ 63 - 1) (1 / 2) (2 ^ 31 - 1) 2 :=
  ⟨backoffPolicy _ _ _ _ _ (by decide) (by decide) (by decide),
    backoffPolicy _ _ _ _ _ (by decide) (by decide) (by decide)⟩

end Sioxx
