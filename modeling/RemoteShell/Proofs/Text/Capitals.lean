import Mathlib.Data.List.TakeWhile
import RemoteShell.Proofs.Text.Lowering
import RemoteShell.Terminal

/-!
# Capitals and their small letters

What lowering does to one character, said once for all rows of the table.  A character becomes one
character, but for the dotted capital I, which becomes two.  Nothing beyond ASCII becomes ASCII, but
for that I and the Kelvin sign.  And a small letter takes as many bytes as its capital, but for
twenty-seven capitals.

## Main definitions

* `uneven`: the capitals whose small letters take more bytes, or fewer

## Main results

* `lowerChar_cases`: what a character becomes
* `width_lowerChar_iff`: which characters keep their number of bytes
* `infix_lowered_trimmed_iff`, `infix_lowered_filter`: blanks have no part in a word
-/

namespace RemoteShell.Text

open Terminal (width)

variable {c d : Char} {p s t : List Char} {n m : Nat}

/-! ## One character -/

/-- **The uneven capitals**: their small letters take more bytes than they do, or fewer. -/
def uneven : List Nat := [
  0x130, 0x23A, 0x23E, 0x1E9E, 0x2126, 0x212A, 0x212B, 0x2C62, 0x2C64, 0x2C6D, 0x2C6E, 0x2C6F,
  0x2C70, 0x2C7E, 0x2C7F, 0xA78D, 0xA7AA, 0xA7AB, 0xA7AC, 0xA7AD, 0xA7AE, 0xA7B0, 0xA7B1, 0xA7B2,
  0xA7C5, 0xA7CB, 0xA7DC]

/-- A run has a small letter for the capitals that it counts. -/
theorem lower?_eq_some {r : CaseRun} (h : r.lower? n = some m) :
    ∃ i < r.count, n = r.first + i * r.stride ∧ m = Int.toNat (n + r.shift) := by
  rw [CaseRun.lower?, Option.ite_none_right_eq_some] at h
  obtain ⟨hrun, hm⟩ := h
  simp only [Bool.and_eq_true, decide_eq_true_eq, beq_iff_eq] at hrun
  obtain ⟨⟨hfirst, hlast⟩, hstride⟩ := hrun
  obtain ⟨i, hi⟩ := Nat.dvd_of_mod_eq_zero hstride
  have hn : n = r.first + i * r.stride := by
    rw [Nat.mul_comm]
    omega
  have hcount : i * r.stride < r.count * r.stride := by omega
  exact ⟨i, Nat.lt_of_mul_lt_mul_right hcount, hn, (Option.some.inj hm).symm⟩

/-- The rows of the table, one by one. -/
theorem small_of_mem_caseRuns : ∀ r ∈ caseRuns, ∀ i < r.count,
    let n := r.first + i * r.stride
    let d := Char.ofNat (Int.toNat (n + r.shift))
    (128 ≤ d.toNat ∨ n = 0x212A ∧ d = 'k') ∧
      (d.utf8Size = (Char.ofNat n).utf8Size ∨ n ∈ uneven) := by
  decide +kernel

/-- **What a character becomes**: ASCII stays ASCII, and every other character but the dotted
capital I becomes one character, which is not ASCII unless it comes from the Kelvin sign. -/
theorem lowerChar_cases (c : Char) :
    (c.toNat < 128 ∧ lowerChar c = [c.toLower]) ∨
      (c.toNat = 0x130 ∧ lowerChar c = ['i', Char.ofNat 0x307]) ∨
      (128 ≤ c.toNat ∧ ∃ d, lowerChar c = [d] ∧ (128 ≤ d.toNat ∨ c.toNat = 0x212A ∧ d = 'k') ∧
        (d.utf8Size = c.utf8Size ∨ c.toNat ∈ uneven)) := by
  unfold lowerChar
  split
  · next hascii => exact .inl ⟨hascii, rfl⟩
  · next hbig =>
    have hbig : 128 ≤ c.toNat := Nat.le_of_not_lt hbig
    split
    · next hdotted => exact .inr (.inl ⟨hdotted, rfl⟩)
    · refine .inr (.inr ⟨hbig, ?_⟩)
      split
      · next m hm =>
        obtain ⟨r, hr, hlower⟩ := List.exists_of_findSome?_eq_some hm
        obtain ⟨i, hi, hn, rfl⟩ := lower?_eq_some hlower
        have hrow := small_of_mem_caseRuns r hr i hi
        simp only [← hn, Char.ofNat_toNat] at hrow
        exact ⟨_, rfl, hrow⟩
      · exact ⟨c, rfl, .inl hbig, .inl rfl⟩

/-- ASCII, one by one: a small letter takes one byte as its capital does, and blanks stay. -/
theorem toLower_of_ascii (h : c.toNat < 128) :
    c.toLower.utf8Size = c.utf8Size ∧
      (isBlank c = true ∨ isBlank c.toLower = true → c.toLower = c) ∧ c.toNat ∉ uneven := by
  have hall : ∀ n < 128, (Char.ofNat n).toLower.utf8Size = (Char.ofNat n).utf8Size ∧
      (isBlank (Char.ofNat n) = true ∨ isBlank (Char.ofNat n).toLower = true →
        (Char.ofNat n).toLower = Char.ofNat n) ∧ n ∉ uneven := by decide +kernel
  simpa using hall c.toNat h

/-- **Which characters keep their number of bytes.** -/
theorem width_lowerChar_iff (c : Char) :
    width (lowerChar c) = c.utf8Size ↔ c.toNat ∉ uneven := by
  have huneven : ∀ n ∈ uneven, width (lowerChar (Char.ofNat n)) ≠ (Char.ofNat n).utf8Size := by
    decide +kernel
  refine ⟨fun hwidth hmem => huneven c.toNat hmem (by rwa [Char.ofNat_toNat]), fun heven => ?_⟩
  rcases lowerChar_cases c with ⟨hascii, hlower⟩ | ⟨hdotted, -⟩ | ⟨-, d, hlower, -, hsize⟩
  · rw [hlower]
    exact (toLower_of_ascii hascii).1
  · exact absurd (by rw [hdotted]; decide) heven
  · rw [hlower]
    exact hsize.resolve_right heven

/-- A blank becomes a blank, or stays beyond ASCII. -/
theorem blank_of_mem_lowerChar (hc : isBlank c = true) (hd : d ∈ lowerChar c) :
    isBlank d = true ∨ 128 ≤ d.toNat := by
  rcases lowerChar_cases c with ⟨hascii, hlower⟩ | ⟨hdotted, -⟩ | ⟨-, e, hlower, he, -⟩
  · rw [hlower, List.mem_singleton, (toLower_of_ascii hascii).2.1 (.inl hc)] at hd
    exact .inl (hd ▸ hc)
  · simp [isBlank, hdotted] at hc
  · rw [hlower, List.mem_singleton] at hd
    rcases he with he | ⟨hkelvin, -⟩
    · exact .inr (hd ▸ he)
    · simp [isBlank, hkelvin] at hc

/-- Only a blank of ASCII becomes one. -/
theorem eq_of_blank_mem_lowerChar (hd : d ∈ lowerChar c) (hascii : d.toNat < 128)
    (hblank : isBlank d = true) : c = d := by
  rcases lowerChar_cases c with ⟨hc, hlower⟩ | ⟨-, hlower⟩ | ⟨-, e, hlower, he, -⟩
  · rw [hlower, List.mem_singleton] at hd
    subst hd
    exact ((toLower_of_ascii hc).2.1 (.inr hblank)).symm
  · rw [hlower] at hd
    rcases List.mem_pair.mp hd with rfl | rfl
    · exact absurd hblank (by decide)
    · exact absurd hascii (by decide)
  · rw [hlower, List.mem_singleton] at hd
    subst hd
    rcases he with he | ⟨-, rfl⟩
    · omega
    · exact absurd hblank (by decide)

/-! ## Words between blanks -/

/-- What is in no word can be taken off in front. -/
theorem infix_append_left_iff (h : ∀ c ∈ s, c ∉ p) : p <:+: s ++ t ↔ p <:+: t := by
  induction s with
  | nil => rfl
  | cons c s ih =>
    obtain ⟨hc, hs⟩ := List.forall_mem_cons.mp h
    have hfront : p <:+: [] ++ c :: (s ++ t) ↔ p <:+: [] ∨ p <:+: s ++ t := infix_append_cons hc
    rw [List.nil_append, List.infix_nil, ih hs] at hfront
    rw [List.cons_append, hfront]
    exact or_iff_right_of_imp fun hp => hp ▸ List.nil_infix

theorem infix_append_right_iff (h : ∀ c ∈ t, c ∉ p) : p <:+: s ++ t ↔ p <:+: s := by
  have hreverse : p.reverse <:+: t.reverse ++ s.reverse ↔ p.reverse <:+: s.reverse :=
    infix_append_left_iff (by simpa using h)
  rwa [← List.reverse_append, List.reverse_infix, List.reverse_infix] at hreverse

/-- A word of visible ASCII characters. -/
def Visible (p : List Char) : Prop := ∀ c ∈ p, c.toNat < 128 ∧ isBlank c = false

instance (p : List Char) : Decidable (Visible p) :=
  List.decidableBAll (fun c : Char => c.toNat < 128 ∧ isBlank c = false) p

theorem Visible.not_mem (hp : Visible p) (hs : ∀ c ∈ s, isBlank c = true) :
    ∀ d ∈ loweredAlone s, d ∉ p := by
  intro d hd hdp
  obtain ⟨c, hc, hd⟩ := List.mem_flatMap.mp hd
  obtain ⟨hascii, hvisible⟩ := hp d hdp
  rcases blank_of_mem_lowerChar (hs c hc) hd with hblank | hbig
  · exact absurd hblank (by simp [hvisible])
  · omega

theorem infix_loweredAlone_trimFront_iff (hp : Visible p) :
    p <:+: loweredAlone (trimFront s) ↔ p <:+: loweredAlone s := by
  conv_rhs => rw [← List.takeWhile_append_dropWhile (p := isBlank) (l := s), loweredAlone_append]
  refine (infix_append_left_iff (hp.not_mem fun c hc => ?_)).symm
  exact List.mem_takeWhile_imp hc

theorem infix_loweredAlone_trimBack_iff (hp : Visible p) :
    p <:+: loweredAlone (trimBack s) ↔ p <:+: loweredAlone s := by
  have hsplit : s = trimBack s ++ (s.reverse.takeWhile isBlank).reverse := by
    rw [trimBack, trimFront, ← List.reverse_append, List.takeWhile_append_dropWhile,
      List.reverse_reverse]
  conv_rhs => rw [hsplit, loweredAlone_append]
  refine (infix_append_right_iff (hp.not_mem fun c hc => ?_)).symm
  exact List.mem_takeWhile_imp (List.mem_reverse.mp hc)

/-- **The blanks around a text** have no part in a word. -/
theorem infix_lowered_trimmed_iff (hp : Visible p) :
    p <:+: lowered (trimmed s) ↔ p <:+: lowered s := by
  have hascii : ∀ c ∈ p, c.toNat < 128 := fun c hc => (hp c hc).1
  rw [infix_lowered_iff hascii, infix_lowered_iff hascii, trimmed,
    infix_loweredAlone_trimBack_iff hp, infix_loweredAlone_trimFront_iff hp]

theorem loweredAlone_filter (hd : d.toNat < 128) (hblank : isBlank d = true) (s : List Char) :
    loweredAlone (s.filter (· != d)) = (loweredAlone s).filter (· != d) := by
  induction s with
  | nil => rfl
  | cons c s ih =>
    rw [loweredAlone, loweredAlone, List.flatMap_cons, List.filter_append]
    by_cases hc : c = d
    · subst hc
      have hself : lowerChar c = [c] := by
        rw [lowerChar, if_pos hd, (toLower_of_ascii hd).2.1 (.inl hblank)]
      rw [hself, List.filter_cons_of_neg (by simp), List.filter_cons_of_neg (by simp)]
      exact ih
    · have hkept : (lowerChar c).filter (· != d) = lowerChar c := by
        refine List.filter_eq_self.mpr fun e he => ?_
        have hne : e ≠ d := by
          rintro rfl
          exact hc (eq_of_blank_mem_lowerChar he hd hblank)
        simpa using hne
      rw [List.filter_cons_of_pos (by simpa using hc), List.flatMap_cons, hkept]
      exact congrArg _ ih

/-- A word stays when blanks of one kind are taken out of the text. -/
theorem infix_lowered_filter (hp : Visible p) (hd : d.toNat < 128) (hblank : isBlank d = true)
    (h : p <:+: lowered s) : p <:+: lowered (s.filter (· != d)) := by
  have hascii : ∀ c ∈ p, c.toNat < 128 := fun c hc => (hp c hc).1
  rw [infix_lowered_iff hascii] at h ⊢
  have hword : p.filter (· != d) = p := by
    refine List.filter_eq_self.mpr fun c hc => ?_
    have hne : c ≠ d := by
      rintro rfl
      exact absurd hblank (by simp [(hp c hc).2])
    simpa using hne
  rw [← hword, loweredAlone_filter hd hblank]
  exact h.filter _

end RemoteShell.Text
