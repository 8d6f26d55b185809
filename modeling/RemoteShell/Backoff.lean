import RemoteShell.Setting

/-!
# Back-off

The waits between the tries of a call double until they reach the longest wait.  They are doubled
in single precision: a wait is taken in seconds, as a number of 24 binary digits, and twice that
number is taken back to whole nanoseconds.  So a wait of 100ms is followed by one of 200.000003ms,
and a wait of whole seconds, up to 2 to the power of 24, by one that is twice as long.

Numbers in single precision are held in grains, of which a second has 2 to the power of 53.  A
number of 24 binary digits is a whole number of grains as soon as it is a nanosecond or more, so
that nothing is lost.

## Main definitions

* `Backoff.nearest`, `Backoff.rounded`: a quotient rounded to a whole number, and to 24 binary
  digits.
* `Duration.grains`, `Duration.doubled`: a duration in single precision, and twice that.
* `nextDelay`: the wait after a wait.

## Main results

* `nearest_near`, `nearest_mul`: rounding moves a quotient by at most one half, and a whole number
  not at all.
* `nextDelay_le_maxDelay`: no wait after the first is longer than the longest wait.
-/

namespace RemoteShell

namespace Backoff

/-- A quotient rounded to the nearest whole number; of two that are equally near, to the even
one. -/
def nearest (num den : Nat) : Nat :=
  let q := num / den
  let twice := 2 * (num % den)
  if twice < den ∨ (twice = den ∧ q % 2 = 0) then q else q + 1

/-- The binary digits of a number in single precision. -/
def digits : Nat := 24

/-- A quotient rounded to its leading binary digits; the digits behind them are zero. -/
def rounded (num den : Nat) : Nat :=
  let unit := Nat.pow 2 ((num / den).log2 + 1 - digits)
  nearest num (den * unit) * unit

/-- Grains in a second. -/
def perSecond : Nat := 9007199254740992

theorem nearest_near (num : Nat) {den : Nat} (h : 0 < den) :
    2 * (nearest num den * den) ≤ 2 * num + den ∧
      2 * num ≤ 2 * (nearest num den * den) + den := by
  have parts : num / den * den + num % den = num := Nat.div_add_mod' num den
  have small : num % den < den := Nat.mod_lt num h
  have up : (num / den + 1) * den = num / den * den + den := Nat.succ_mul ..
  simp only [nearest]
  split <;> omega

theorem nearest_mul (n : Nat) {den : Nat} (h : 0 < den) : nearest (n * den) den = n := by
  simp [nearest, Nat.mul_div_cancel n h, h]

end Backoff

namespace Duration

open Backoff

/-- The duration in single precision, in grains: the whole seconds and the rest are each rounded,
and so is their sum. -/
def grains (d : Duration) : Nat :=
  let whole := rounded (d.secs * Backoff.perSecond) 1
  let rest := rounded (rounded d.subsecNanos 1 * Backoff.perSecond) Duration.perSecond
  rounded (whole + rest) 1

/-- Twice the duration, in single precision. -/
def doubled (d : Duration) : Duration :=
  -- Twice a number has the same binary digits, so only the way back to nanoseconds rounds.
  ⟨nearest (2 * d.grains * Duration.perSecond) Backoff.perSecond⟩

end Duration

/-- The wait after a wait: twice as long while that is below the longest wait, and never longer
than that. -/
def nextDelay (s : RetrySettings) (d : Duration) : Duration :=
  (if d < s.maxDelay then d.doubled else d).least s.maxDelay

theorem nextDelay_le_maxDelay (s : RetrySettings) (d : Duration) :
    nextDelay s d ≤ s.maxDelay := Duration.least_le_right _ _

end RemoteShell
