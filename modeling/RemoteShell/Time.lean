/-!
# Time

Durations and instants, both counted in whole nanoseconds.  An instant is counted from the
moment a service starts, so that no clock is part of any state: every operation that depends on
time is told the instant of its call.

## Main definitions

* `Duration` with its whole seconds, its milliseconds and its text (`1.5s`, `20ms`).
* `Instant`, `Instant.since` (which never goes below zero) and `Instant.after`.
-/

namespace RemoteShell

/-- A length of time. -/
structure Duration where
  nanos : Nat
  deriving DecidableEq, Repr, Inhabited

/-- A point in time, as the time passed since the service started. -/
structure Instant where
  nanos : Nat
  deriving DecidableEq, Repr, Inhabited

namespace Duration

/-- Nanoseconds in a second. -/
def perSecond : Nat := 1000000000

/-- Nanoseconds in a millisecond. -/
def perMilli : Nat := 1000000

/-- No time at all. -/
def zero : Duration := ⟨0⟩

/-- A number of whole seconds. -/
def ofSecs (n : Nat) : Duration := ⟨n * perSecond⟩

/-- A number of whole milliseconds. -/
def ofMillis (n : Nat) : Duration := ⟨n * perMilli⟩

/-- The whole seconds, rounded down. -/
def secs (d : Duration) : Nat := d.nanos / perSecond

/-- The nanoseconds beyond the whole seconds. -/
def subsecNanos (d : Duration) : Nat := d.nanos % perSecond

/-- The whole milliseconds, rounded down. -/
def millis (d : Duration) : Nat := d.nanos / perMilli

/-- Is it no time at all? -/
def isZero (d : Duration) : Bool := d.nanos == 0

/-- What is left of a duration after another has passed; zero when nothing is. -/
def minus (d e : Duration) : Duration := ⟨d.nanos - e.nanos⟩

instance : LT Duration := ⟨fun a b => a.nanos < b.nanos⟩
instance : LE Duration := ⟨fun a b => a.nanos ≤ b.nanos⟩
instance (a b : Duration) : Decidable (a < b) := inferInstanceAs (Decidable (a.nanos < b.nanos))
instance (a b : Duration) : Decidable (a ≤ b) := inferInstanceAs (Decidable (a.nanos ≤ b.nanos))

/-- One duration after another. -/
def plus (d e : Duration) : Duration := ⟨d.nanos + e.nanos⟩

/-- The first whole millisecond that is not before the end of the duration. -/
def ceilMillis (d : Duration) : Duration := ⟨(d.nanos + (perMilli - 1)) / perMilli * perMilli⟩

/-- The shorter of two durations. -/
def least (a b : Duration) : Duration := if b < a then b else a

theorem lt_def {a b : Duration} : a < b ↔ a.nanos < b.nanos := Iff.rfl
theorem le_def {a b : Duration} : a ≤ b ↔ a.nanos ≤ b.nanos := Iff.rfl

theorem least_le_right (a b : Duration) : least a b ≤ b := by
  unfold least
  split
  · exact Nat.le_refl _
  · next h => exact Nat.le_of_not_lt h

theorem secs_add_subsecNanos (d : Duration) : d.secs * perSecond + d.subsecNanos = d.nanos :=
  Nat.div_add_mod' d.nanos perSecond

/-! ## Text

A duration is written in the largest of the units s, ms, µs and ns in which it is at least one,
with as many decimals as it takes to be exact and no trailing zeros. -/

/-- A number padded on the left with zeros to a width. -/
def padded (width n : Nat) : List Char :=
  let digits := (toString n).toList
  List.replicate (width - digits.length) '0' ++ digits

/-- A decimal number from its whole part and its fraction of `places` digits, without trailing
zeros and without a point when the fraction is zero. -/
def decimalText (whole fraction places : Nat) : String :=
  let kept := ((padded places fraction).reverse.dropWhile (· == '0')).reverse
  toString whole ++ if kept.isEmpty then "" else "." ++ String.ofList kept

/-- The text of a duration, such as `30s`, `1.5s`, `1.001ms` or `0ns`. -/
def text (d : Duration) : String :=
  if d.nanos ≥ perSecond then decimalText d.secs d.subsecNanos 9 ++ "s"
  else if d.nanos ≥ perMilli then decimalText d.millis (d.nanos % perMilli) 6 ++ "ms"
  else if d.nanos ≥ 1000 then decimalText (d.nanos / 1000) (d.nanos % 1000) 3 ++ "µs"
  else toString d.nanos ++ "ns"

end Duration

namespace Instant

/-- The instant at which the service starts. -/
def start : Instant := ⟨0⟩

/-- The time passed from `earlier` to `t`; zero when `t` comes first. -/
def since (t earlier : Instant) : Duration := ⟨t.nanos - earlier.nanos⟩

/-- The instant a duration later. -/
def after (t : Instant) (d : Duration) : Instant := ⟨t.nanos + d.nanos⟩

/-- The whole milliseconds since the start, rounded down. -/
def millis (t : Instant) : Nat := t.nanos / Duration.perMilli

/-- The first whole millisecond that is not before the instant: timers fire on whole
milliseconds only. -/
def ceilMillis (t : Instant) : Instant :=
  ⟨(t.nanos + (Duration.perMilli - 1)) / Duration.perMilli * Duration.perMilli⟩

instance : LT Instant := ⟨fun a b => a.nanos < b.nanos⟩
instance : LE Instant := ⟨fun a b => a.nanos ≤ b.nanos⟩
instance (a b : Instant) : Decidable (a < b) := inferInstanceAs (Decidable (a.nanos < b.nanos))
instance (a b : Instant) : Decidable (a ≤ b) := inferInstanceAs (Decidable (a.nanos ≤ b.nanos))

theorem lt_def {a b : Instant} : a < b ↔ a.nanos < b.nanos := Iff.rfl
theorem le_def {a b : Instant} : a ≤ b ↔ a.nanos ≤ b.nanos := Iff.rfl

@[simp] theorem since_self (t : Instant) : t.since t = Duration.zero := by
  simp [since, Duration.zero]

@[simp] theorem after_since (t : Instant) (d : Duration) : (t.after d).since t = d := by
  simp [since, after]

end Instant

end RemoteShell
