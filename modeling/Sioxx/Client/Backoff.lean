/-
Sioxx.Client.Backoff — the delay before a reconnect attempt
(`reconnection.cpp`).

The `long double` expressions of the source are exact rational ones here;
everything else is as in the source, with the clamps and the cap of the
exponent in the same places.
-/
import Mathlib.Data.Rat.Floor

namespace Sioxx

/-- The part of `client_options` that governs reconnection. The delays are
in milliseconds. -/
structure ReconnectOptions where
  reconnectAttempts : Int := 0
  reconnectDelay : Int := 2000
  reconnectDelayMax : Int := 30000
  reconnectRandomizationFactor : ℚ := 1 / 2
  deriving Repr

/-- `std::llround`: to the nearest integer, halves away from zero. -/
def llround (x : ℚ) : Int :=
  if 0 ≤ x then ⌊x + 1 / 2⌋ else -⌊-x + 1 / 2⌋

/-- `std::clamp(x, 0.0, 1.0)`. -/
def clampUnit (x : ℚ) : ℚ := if x < 0 then 0 else if 1 < x then 1 else x

def reconnectDelayForAttempt (initialDelay maxDelay : Int) (jitterFactor : ℚ) (attempt : Int)
    (jitterSample : ℚ) : Int :=
  let initial := max 0 initialDelay
  let maximum := max 0 maxDelay
  let exponent : Nat := if attempt ≤ 1 then 0 else (min (attempt - 1) 62).toNat
  let multiplier : ℚ := 2 ^ exponent
  let exponential : ℚ := min maximum (initial * multiplier)
  let factor := clampUnit jitterFactor
  let sample := clampUnit jitterSample
  let delayed : ℚ := min maximum (exponential * (1 - factor + 2 * factor * sample))
  llround delayed

end Sioxx
