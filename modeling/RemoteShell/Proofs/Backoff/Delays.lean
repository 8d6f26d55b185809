import RemoteShell.Proofs.Backoff.Precision

/-!
# The waits between the tries of a command

The waits are meant to double from one to the next, up to the longest one.  They do not quite do so,
for two reasons.  The first wait is as long as the settings say, and only those after it are limited
by the longest wait.  And doubling rounds, so that a wait is exactly twice the one before it only
if the doubling does not round.  Nothing else comes between: if the first wait is not longer than
the longest one and doubling does not round, every wait is what it is meant to be.

## Main definitions

* `RetrySettings.delay`: the waits, counted from zero
* `RetrySettings.promised`: the waits as they are meant to be
* `RetrySettings.Exact`, `RetrySettings.NearTwice`: how far doubling rounds

## Main results

* `RetrySettings.delay_eq_promised_iff`: the waits are what they are meant to be
* `RetrySettings.delay_succ_near`: one wait after another
* `RetrySettings.delay_eq_promised_of_secs`: waits of whole seconds
-/

namespace RemoteShell

namespace Duration

theorem nanos_least (a b : Duration) : (a.least b).nanos = min a.nanos b.nanos := by
  unfold least
  split
  · next h => exact (Nat.min_eq_right (Nat.le_of_lt h)).symm
  · next h => exact (Nat.min_eq_left (Nat.le_of_not_lt h)).symm

theorem ext {a b : Duration} (h : a.nanos = b.nanos) : a = b := by
  cases a
  cases b
  exact congrArg mk h

end Duration

namespace RetrySettings

variable {s : RetrySettings} {n k : Nat}

/-- **The wait before another try**, of which there were so many before it. -/
def delay (s : RetrySettings) : Nat → Duration
  | 0 => s.retryDelay
  | n + 1 => nextDelay s (s.delay n)

/-- **The wait as it is meant to be**: the first wait is doubled so many times, up to the longest
one. -/
def promised (s : RetrySettings) (n : Nat) : Duration :=
  Duration.least ⟨s.retryDelay.nanos * 2 ^ n⟩ s.maxDelay

/-- **Doubling does not round** a wait that is doubled, as far as the longest wait lets it show. -/
def Exact (s : RetrySettings) : Prop :=
  ∀ n, s.promised n < s.maxDelay →
    (s.promised n).doubled.least s.maxDelay = s.promised (n + 1)

/-- **A wait is nearly twice the one before it**, up to the longest one: it is off by less than one
part in 2 to the power of 21 of the wait before it, and half a nanosecond. -/
def NearTwice (s : RetrySettings) (d e : Duration) : Prop :=
  let twice := min (2 * d.nanos) s.maxDelay.nanos
  2 ^ 21 * e.nanos ≤ 2 ^ 21 * twice + d.nanos + 2 ^ 20 ∧
    2 ^ 21 * twice ≤ 2 ^ 21 * e.nanos + d.nanos + 2 ^ 20

theorem nanos_promised (s : RetrySettings) (n : Nat) :
    (s.promised n).nanos = min (s.retryDelay.nanos * 2 ^ n) s.maxDelay.nanos :=
  Duration.nanos_least ..

/-! ## The longest wait -/

/-- **No wait but the first is longer than the longest one.** -/
theorem delay_succ_le (s : RetrySettings) (n : Nat) : s.delay (n + 1) ≤ s.maxDelay :=
  nextDelay_le_maxDelay s _

/-- A wait that is long enough is followed by the longest one. -/
theorem nextDelay_of_maxDelay_le {d : Duration} (h : s.maxDelay ≤ d) :
    nextDelay s d = s.maxDelay := by
  have hlong : ¬ d < s.maxDelay := Nat.not_lt.mpr h
  rw [nextDelay, if_neg hlong]
  refine Duration.ext ?_
  rw [Duration.nanos_least]
  exact Nat.min_eq_right h

/-- **If the first wait is too long** all others are the longest one. -/
theorem delay_succ_of_maxDelay_le (h : s.maxDelay ≤ s.retryDelay) (n : Nat) :
    s.delay (n + 1) = s.maxDelay := by
  induction n with
  | zero => exact nextDelay_of_maxDelay_le h
  | succ n ih =>
    refine nextDelay_of_maxDelay_le ?_
    rw [ih]
    exact Nat.le_refl _

/-! ## Waits as they are meant to be -/

/-- The longest wait is not doubled any more. -/
theorem promised_succ_of_not_lt (h : ¬ s.promised n < s.maxDelay) :
    s.promised (n + 1) = s.maxDelay := by
  have hlong : s.maxDelay.nanos ≤ (s.promised n).nanos := Nat.le_of_not_lt h
  refine Duration.ext ?_
  rw [nanos_promised] at hlong ⊢
  rw [Nat.pow_succ, ← Nat.mul_assoc]
  omega

/-- What follows on a wait that is what it is meant to be. -/
theorem nextDelay_promised (s : RetrySettings) (n : Nat) :
    nextDelay s (s.promised n) =
      if s.promised n < s.maxDelay then (s.promised n).doubled.least s.maxDelay
      else s.promised (n + 1) := by
  split
  · next h => rw [nextDelay, if_pos h]
  · next h =>
    rw [promised_succ_of_not_lt h]
    exact nextDelay_of_maxDelay_le (Nat.le_of_not_lt h)

theorem promised_zero_eq_iff : s.promised 0 = s.retryDelay ↔ s.retryDelay ≤ s.maxDelay := by
  have hzero : (s.promised 0).nanos = min s.retryDelay.nanos s.maxDelay.nanos := by
    rw [nanos_promised, Nat.pow_zero, Nat.mul_one]
  refine ⟨fun h => ?_, fun h => Duration.ext ?_⟩
  · rw [h] at hzero
    rw [Duration.le_def]
    omega
  · rw [hzero]
    exact Nat.min_eq_left h

/-- **All waits are what they are meant to be** if and only if the first one is not longer than the
longest one and doubling does not round. -/
theorem delay_eq_promised_iff :
    (∀ n, s.delay n = s.promised n) ↔ s.retryDelay ≤ s.maxDelay ∧ s.Exact := by
  constructor
  · intro h
    refine ⟨promised_zero_eq_iff.mp (h 0).symm, fun n hn => ?_⟩
    have hnext : nextDelay s (s.promised n) = s.promised (n + 1) := by
      rw [← h n]
      exact h (n + 1)
    rwa [nextDelay_promised, if_pos hn] at hnext
  · rintro ⟨hfirst, hexact⟩ n
    induction n with
    | zero => exact (promised_zero_eq_iff.mpr hfirst).symm
    | succ n ih =>
      rw [delay, ih, nextDelay_promised]
      split
      · next hn => exact hexact n hn
      · rfl

/-! ## One wait after another -/

/-- **Every wait is nearly twice the one before it**, up to the longest one. -/
theorem delay_succ_near (s : RetrySettings) (n : Nat) :
    s.NearTwice (s.delay n) (s.delay (n + 1)) := by
  rw [delay]
  generalize s.delay n = d
  unfold NearTwice
  dsimp only
  by_cases h : d < s.maxDelay
  · have hnear := d.doubled_near
    rw [nextDelay, if_pos h, Duration.nanos_least]
    omega
  · have hlong : s.maxDelay.nanos ≤ d.nanos := Nat.le_of_not_lt h
    rw [nextDelay_of_maxDelay_le hlong]
    omega

/-! ## Whole seconds -/

/-- **Doubling does not round whole seconds** of 24 binary digits. -/
theorem exact_of_secs (hsecs : s.retryDelay = .ofSecs k) (hk : k < 2 ^ 24) : s.Exact := by
  intro n hn
  have hshort : s.retryDelay.nanos * 2 ^ n < s.maxDelay.nanos := by
    have hn : (s.promised n).nanos < s.maxDelay.nanos := hn
    rw [nanos_promised] at hn
    omega
  have hpromised : s.promised n = .ofSecs (k * 2 ^ n) := by
    refine Duration.ext ?_
    rw [nanos_promised, Nat.min_eq_left (Nat.le_of_lt hshort), hsecs]
    exact Nat.mul_right_comm ..
  rw [hpromised, Duration.doubled_ofSecs hk]
  refine Duration.ext ?_
  rw [Duration.nanos_least, nanos_promised, hsecs]
  have htwice : (Duration.ofSecs (2 * (k * 2 ^ n))).nanos =
      (Duration.ofSecs k).nanos * 2 ^ (n + 1) := by
    simp only [Duration.ofSecs]
    rw [Nat.pow_succ, Nat.mul_comm 2, Nat.mul_assoc k, Nat.mul_right_comm]
  rw [htwice]

/-- **Waits of whole seconds** are what they are meant to be, except that the first one is not
limited. -/
theorem delay_eq_promised_of_secs (hsecs : s.retryDelay = .ofSecs k) (hk : k < 2 ^ 24) (n : Nat) :
    s.delay n = s.promised n ↔ n ≠ 0 ∨ s.retryDelay ≤ s.maxDelay := by
  have hexact := exact_of_secs hsecs hk
  by_cases hfirst : s.retryDelay ≤ s.maxDelay
  · exact iff_of_true (delay_eq_promised_iff.mpr ⟨hfirst, hexact⟩ n) (.inr hfirst)
  · have hlong : s.maxDelay ≤ s.retryDelay := Nat.le_of_not_le hfirst
    cases n with
    | zero =>
      refine iff_of_false (fun h => hfirst ?_) (by simpa using hfirst)
      exact promised_zero_eq_iff.mp h.symm
    | succ n =>
      refine iff_of_true ?_ (.inl (Nat.succ_ne_zero n))
      have hpower := Nat.le_mul_of_pos_right s.retryDelay.nanos (Nat.two_pow_pos (n + 1))
      refine (delay_succ_of_maxDelay_le hlong n).trans (Duration.ext ?_)
      rw [nanos_promised, Nat.min_eq_right (Nat.le_trans hlong hpower)]

end RetrySettings

end RemoteShell
