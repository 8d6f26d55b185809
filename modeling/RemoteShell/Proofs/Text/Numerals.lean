import Mathlib.Data.List.Basic
import RemoteShell.Text.Basic

/-!
# Numerals

Which texts the reader of unsigned numbers takes for a number, and for which one: an optional plus
sign and decimal digits, whose value is the one that the standard library gives them.

## Main definitions

* `Numeral`: a text is a numeral of a number

## Main results

* `natOf?_eq_some_iff`: a text is read as a number just if it is a numeral of it within the bound
* `numeral_toDigits`: the digits that a number is printed with are a numeral of it
-/

namespace RemoteShell.Text

variable {c : Char} {s : List Char} {n bound : Nat}

/-- **A numeral of a number**: an optional plus sign, then one or more decimal digits. -/
def Numeral (s : List Char) (n : Nat) : Prop :=
  ∃ digits, (s = digits ∨ s = '+' :: digits) ∧ digits ≠ [] ∧
    (∀ c ∈ digits, c.isDigit = true) ∧ Nat.ofDigitChars 10 digits 0 = n

theorem digit?_of_isDigit (h : c.isDigit = true) : digit? c = some (c.toNat - '0'.toNat) := by
  have hrange : '0' ≤ c ∧ c ≤ '9' := by simpa [Char.isDigit, Char.le_def] using h
  rw [digit?, if_pos hrange]

theorem digit?_of_not_isDigit (h : ¬ c.isDigit = true) : digit? c = none := by
  have hrange : ¬ ('0' ≤ c ∧ c ≤ '9') := by simpa [Char.isDigit, Char.le_def] using h
  rw [digit?, if_neg hrange]

theorem isBlank_of_isDigit (h : c.isDigit = true) : isBlank c = false := by
  have hrange : 48 ≤ c.toNat ∧ c.toNat ≤ 57 := by
    simpa [Char.isDigit, UInt32.le_iff_toNat_le] using h
  simp only [isBlank, Bool.or_eq_false_iff, Bool.and_eq_false_iff, decide_eq_false_iff_not,
    beq_eq_false_iff_ne]
  omega

/-- Digits behind a number are read to their end, and nothing else is. -/
theorem digitsFrom_eq (n : Nat) (s : List Char) :
    digitsFrom n s =
      if s.all Char.isDigit then some (Nat.ofDigitChars 10 s n) else none := by
  induction s generalizing n with
  | nil => simp [digitsFrom]
  | cons c s ih =>
    by_cases hc : c.isDigit = true
    · rw [digitsFrom, digit?_of_isDigit hc, Option.bind_some, ih, Nat.ofDigitChars_cons,
        List.all_cons, hc, Bool.true_and]
    · rw [digitsFrom, digit?_of_not_isDigit hc, Option.bind_none, if_neg]
      exact fun h => hc (List.all_eq_true.mp h c List.mem_cons_self)

theorem digits?_eq_some_iff :
    digits? s = some n ↔
      s ≠ [] ∧ (∀ c ∈ s, c.isDigit = true) ∧ Nat.ofDigitChars 10 s 0 = n := by
  cases s with
  | nil => simp [digits?]
  | cons c s =>
    rw [digits?, digitsFrom_eq, Option.ite_none_right_eq_some, Option.some.injEq]
    · simp
    · exact List.cons_ne_nil c s

/-- **A text is read as a number** just if it is a numeral of it and the number is within the
bound. -/
theorem natOf?_eq_some_iff : natOf? bound s = some n ↔ Numeral s n ∧ n ≤ bound := by
  unfold natOf?
  simp only [Option.filter_eq_some_iff, digits?_eq_some_iff, decide_eq_true_iff]
  refine and_congr_left fun _ => ⟨?_, ?_⟩
  · intro hbody
    split at hbody
    · exact ⟨_, .inr rfl, hbody⟩
    · exact ⟨s, .inl rfl, hbody⟩
  · rintro ⟨digits, rfl | rfl, hdigits⟩
    · split
      -- A plus sign is no digit, so digits alone do not begin with one.
      · exact absurd (hdigits.2.1 '+' List.mem_cons_self) (by decide)
      · exact hdigits
    · exact hdigits

/-- The digits that a number is printed with are a numeral of it. -/
theorem numeral_toDigits (n : Nat) : Numeral (Nat.toDigits 10 n) n :=
  ⟨Nat.toDigits 10 n, .inl rfl, Nat.toDigits_ne_nil,
    fun _ hc => Nat.isDigit_of_mem_toDigits (by decide) (by decide) hc,
    Nat.ofDigitChars_toDigits (by decide) (by decide)⟩

theorem notMem_of_numeral (h : Numeral s n) (hplus : c ≠ '+') (hc : ¬ c.isDigit = true) :
    c ∉ s := by
  obtain ⟨digits, hs, -, hdigits, -⟩ := h
  have hdigit : c ∉ digits := fun hmem => hc (hdigits c hmem)
  rcases hs with rfl | rfl
  · exact hdigit
  · simp [hplus, hdigit]

end RemoteShell.Text
