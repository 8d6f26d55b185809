import Mathlib.Algebra.Group.Nat.Defs
import RemoteShell.Backoff

/-!
# How precise a doubled wait is

A wait is doubled in single precision: its seconds and the rest are rounded to 24 binary digits,
and so is their sum, and twice that is taken back to whole nanoseconds.  Each of the three
roundings is off by at most one part in 2 to the power of 24, and the way back by at most half a
nanosecond, so that a doubled wait is nearly twice as long.  It is exactly twice as long if its
seconds are a whole number of 24 binary digits.

## Main results

* `Backoff.rounded_near`, `Backoff.rounded_mul_pow`: one rounding, and numbers that stay as they are
* `Duration.grains_near`: a wait in single precision
* `Duration.doubled_near`, `Duration.doubled_ofSecs`: a doubled wait
-/

namespace RemoteShell

namespace Backoff

/-! ## One rounding -/

/-- The unit to which a number is rounded that has more than 24 binary digits is small. -/
theorem unit_mul_le {q : Nat} (hq : 0 < q.log2 + 1 - digits) :
    2 ^ 23 * 2 ^ (q.log2 + 1 - digits) ≤ q := by
  have hpos : q ≠ 0 := by
    rintro rfl
    simp [digits] at hq
  have hexp : 23 + (q.log2 + 1 - digits) = q.log2 := by
    unfold digits at hq ⊢
    omega
  rw [← Nat.pow_add, hexp]
  exact Nat.log2_self_le hpos

/-- **One rounding** is off by at most one part in 2 to the power of 24, if the quotient is not so
small that it is rounded to a whole number. -/
theorem rounded_near (num : Nat) {den : Nat} (h : 0 < den) (hbig : den = 1 ∨ 2 ^ 23 * den ≤ num) :
    2 ^ 24 * (rounded num den * den) ≤ 2 ^ 24 * num + num ∧
      2 ^ 24 * num ≤ 2 ^ 24 * (rounded num den * den) + num := by
  generalize hk : (num / den).log2 + 1 - digits = k
  have hunit : rounded num den * den = nearest num (den * 2 ^ k) * (den * 2 ^ k) := by
    rw [rounded, hk, Nat.mul_assoc, Nat.mul_comm (Nat.pow 2 k) den]
    rfl
  have hnear := nearest_near num (Nat.mul_pos h (Nat.two_pow_pos k))
  rw [← hunit] at hnear
  by_cases hsmall : 2 ^ 23 * (den * 2 ^ k) ≤ num
  · omega
  · -- A whole number of at most 24 digits stays as it is.
    have hk0 : k = 0 := by
      refine (Nat.eq_zero_or_pos k).resolve_right fun hpos => hsmall ?_
      have hle := unit_mul_le (hk ▸ hpos : 0 < (num / den).log2 + 1 - digits)
      rw [hk] at hle
      calc 2 ^ 23 * (den * 2 ^ k) = den * (2 ^ 23 * 2 ^ k) := by rw [Nat.mul_left_comm]
        _ ≤ den * (num / den) := Nat.mul_le_mul_left den hle
        _ ≤ num := Nat.mul_div_le num den
    subst hk0
    rw [Nat.pow_zero, Nat.mul_one] at hsmall
    obtain rfl := hbig.resolve_right hsmall
    have hexact : rounded num 1 * 1 = num := by
      have hsame := nearest_mul num Nat.one_pos
      rw [Nat.mul_one] at hsame
      rw [hunit, Nat.pow_zero, Nat.mul_one, Nat.mul_one, hsame]
    rw [hexact]
    omega

theorem rounded_zero (den : Nat) : rounded 0 den = 0 := by
  have hnearest : ∀ den, nearest 0 den = 0 := by
    intro den
    rcases Nat.eq_zero_or_pos den with rfl | hpos
    · simp [nearest]
    · simp [nearest, hpos]
  rw [rounded, hnearest, Nat.zero_mul]

theorem log2_mul_two_pow {m : Nat} (hm : m ≠ 0) (j : Nat) :
    (m * 2 ^ j).log2 = m.log2 + j := by
  have hpos : m * 2 ^ j ≠ 0 := Nat.mul_ne_zero hm (Nat.ne_of_gt (Nat.two_pow_pos j))
  refine (Nat.log2_eq_iff hpos).mpr ⟨?_, ?_⟩
  · rw [Nat.pow_add]
    exact Nat.mul_le_mul_right _ (Nat.log2_self_le hm)
  · rw [Nat.add_right_comm, Nat.pow_add]
    exact Nat.mul_lt_mul_of_pos_right Nat.lt_log2_self (Nat.two_pow_pos j)

/-- **A number of 24 binary digits stays as it is**, with any number of zeros behind them. -/
theorem rounded_mul_pow {m : Nat} (hm : m < 2 ^ 24) (j : Nat) :
    rounded (m * 2 ^ j) 1 = m * 2 ^ j := by
  rcases Nat.eq_zero_or_pos m with rfl | hpos
  · rw [Nat.zero_mul, rounded_zero]
  · have hlog : m.log2 < 24 := (Nat.log2_lt (Nat.ne_of_gt hpos)).mpr hm
    have hlog' := log2_mul_two_pow (Nat.ne_of_gt hpos) j
    generalize hk : m.log2 + j + 1 - digits = k
    have hkj : k ≤ j := by
      unfold digits at hk
      omega
    have hsplit : m * 2 ^ j = m * 2 ^ (j - k) * 2 ^ k := by
      rw [Nat.mul_assoc, ← Nat.pow_add, Nat.sub_add_cancel hkj]
    have hsame := nearest_mul (m * 2 ^ (j - k)) (Nat.two_pow_pos k)
    rw [rounded, Nat.div_one, hlog', hk, Nat.one_mul]
    change nearest (m * 2 ^ j) (2 ^ k) * 2 ^ k = m * 2 ^ j
    rw [hsplit, hsame]

end Backoff

namespace Duration

open Backoff

/-! ## A wait in single precision -/

/-- **A wait in single precision** is off by less than one part in 2 to the power of 22. -/
theorem grains_near (d : Duration) :
    2 ^ 22 * (d.grains * Duration.perSecond) ≤
        2 ^ 22 * (d.nanos * Backoff.perSecond) + d.nanos * Backoff.perSecond ∧
      2 ^ 22 * (d.nanos * Backoff.perSecond) ≤
        2 ^ 22 * (d.grains * Duration.perSecond) + d.nanos * Backoff.perSecond := by
  have hparts := d.secs_add_subsecNanos
  unfold grains
  dsimp only
  generalize d.secs = secs at hparts ⊢
  generalize d.subsecNanos = sub at hparts ⊢
  have hwhole := rounded_near (secs * Backoff.perSecond) Nat.one_pos (.inl rfl)
  have hsub := rounded_near sub Nat.one_pos (.inl rfl)
  generalize rounded (secs * Backoff.perSecond) 1 = whole at hwhole ⊢
  generalize rounded sub 1 = nanos at hsub ⊢
  -- A nanosecond has so many grains that the rest is not too small.
  have hrest : 2 ^ 24 * (rounded (nanos * Backoff.perSecond) Duration.perSecond *
        Duration.perSecond) ≤ 2 ^ 24 * (nanos * Backoff.perSecond) + nanos * Backoff.perSecond ∧
      2 ^ 24 * (nanos * Backoff.perSecond) ≤ 2 ^ 24 * (rounded (nanos * Backoff.perSecond)
        Duration.perSecond * Duration.perSecond) + nanos * Backoff.perSecond := by
    rcases Nat.eq_zero_or_pos nanos with rfl | hpos
    · simp [rounded_zero]
    · refine rounded_near _ (by decide) (.inr ?_)
      unfold Backoff.perSecond Duration.perSecond
      omega
  generalize rounded (nanos * Backoff.perSecond) Duration.perSecond = rest at hrest ⊢
  have hsum := rounded_near (whole + rest) Nat.one_pos (.inl rfl)
  generalize rounded (whole + rest) 1 = grains at hsum ⊢
  unfold Backoff.perSecond Duration.perSecond at *
  omega

/-! ## A doubled wait -/

/-- **A doubled wait is nearly twice as long**: it is off by less than one part in 2 to the power of
21 of the wait, and half a nanosecond. -/
theorem doubled_near (d : Duration) :
    2 ^ 21 * d.doubled.nanos ≤ 2 ^ 21 * (2 * d.nanos) + d.nanos + 2 ^ 20 ∧
      2 ^ 21 * (2 * d.nanos) ≤ 2 ^ 21 * d.doubled.nanos + d.nanos + 2 ^ 20 := by
  have hgrains := d.grains_near
  have hback := nearest_near (2 * d.grains * Duration.perSecond)
    (by decide : 0 < Backoff.perSecond)
  unfold doubled
  dsimp only
  generalize nearest (2 * d.grains * Duration.perSecond) Backoff.perSecond = twice at hback ⊢
  unfold Backoff.perSecond Duration.perSecond at *
  omega

/-- A wait of 100ms, doubled. -/
example : (ofMillis 100).doubled = ⟨200000003⟩ := by decide +kernel

/-- **A wait of whole seconds is doubled exactly**, if they are a number of 24 binary digits, with
any number of zeros behind them. -/
theorem doubled_ofSecs {m : Nat} (hm : m < 2 ^ 24) (j : Nat) :
    (ofSecs (m * 2 ^ j)).doubled = ofSecs (2 * (m * 2 ^ j)) := by
  have hsecs : (ofSecs (m * 2 ^ j)).secs = m * 2 ^ j := Nat.mul_div_cancel _ (by decide)
  have hsub : (ofSecs (m * 2 ^ j)).subsecNanos = 0 := Nat.mul_mod_left ..
  have hgrains : (ofSecs (m * 2 ^ j)).grains = m * 2 ^ j * Backoff.perSecond := by
    have hscale : m * 2 ^ j * Backoff.perSecond = m * 2 ^ (j + 53) := by
      have hper : Backoff.perSecond = 2 ^ 53 := by decide
      rw [hper, Nat.pow_add, Nat.mul_assoc]
    have hrest : rounded (rounded 0 1 * Backoff.perSecond) Duration.perSecond = 0 := by
      rw [rounded_zero, Nat.zero_mul, rounded_zero]
    unfold grains
    dsimp only
    rw [hsecs, hsub, hrest, Nat.add_zero, hscale, rounded_mul_pow hm, rounded_mul_pow hm]
  have hback : 2 * (m * 2 ^ j * Backoff.perSecond) * Duration.perSecond =
      2 * (m * 2 ^ j) * Duration.perSecond * Backoff.perSecond := by
    rw [← Nat.mul_assoc, Nat.mul_right_comm]
  rw [doubled, hgrains, hback, nearest_mul _ (by decide : 0 < Backoff.perSecond), ofSecs]

end Duration

end RemoteShell
