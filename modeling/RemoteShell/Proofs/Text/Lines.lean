import Mathlib.Data.List.Infix
import Mathlib.Data.List.TakeWhile
import RemoteShell.Text.Basic

/-!
# Lines

What splitting a text into lines makes of a text of which the first line is known, how long a text
is that is joined from lines, and what trimming leaves at the end of a text.

## Main definitions

* `extent`: how many characters lines have

## Main results

* `lines_append_cons`: a line in front of a text is the first of its lines
* `length_joined`: joined lines take a character each more than they have, but for the last one
* `splitFirst?_eq_some_iff`, `splitLast?_eq_some_iff`: the parts around the first and the last
  occurrence of a character
* `mem_of_mem_lines`: lines have no other characters than the text
* `getLast?_trimmed`: a trimmed text ends with the last character that is not blank
* `trimmed_eq_self`: a text that neither begins nor ends with a blank
* `trimmed_eq_nil_iff`: a text of blanks only
-/

namespace RemoteShell.Text

variable {c : Char} {l s before after : List Char} {ls : List (List Char)}

/-! ## Splitting -/

theorem pieces_ne_nil (sep : Char → Bool) (s : List Char) : pieces sep s ≠ [] := by
  cases s with
  | nil => simp [pieces]
  | cons c s =>
    rw [pieces]
    split
    · simp
    · split <;> simp

theorem pieces_append_cons {sep : Char → Bool} (hl : ∀ d ∈ l, sep d = false) (hc : sep c = true) :
    pieces sep (l ++ c :: s) = l :: pieces sep s := by
  induction l with
  | nil => simp [pieces, hc]
  | cons d l ih =>
    obtain ⟨hd, hl⟩ := List.forall_mem_cons.mp hl
    rw [List.cons_append, pieces, ih hl, hd]
    rfl

theorem withoutReturn_of_not_mem (h : '\r' ∉ l) : withoutReturn l = l := by
  have hlast : l.getLast? ≠ some '\r' := fun e => h (List.mem_of_getLast? e)
  rw [withoutReturn, if_neg hlast]

/-- **A line in front of a text** is the first of its lines. -/
theorem lines_append_cons (hfeed : '\n' ∉ l) (hreturn : '\r' ∉ l) :
    lines (l ++ '\n' :: s) = l :: lines s := by
  have hpieces : pieces (· == '\n') (l ++ '\n' :: s) = l :: pieces (· == '\n') s := by
    refine pieces_append_cons (fun d hd => ?_) rfl
    have hne : d ≠ '\n' := by
      rintro rfl
      exact hfeed hd
    simpa using hne
  obtain ⟨p, ps, hps⟩ := List.exists_cons_of_ne_nil (pieces_ne_nil (· == '\n') s)
  simp only [lines, hpieces, hps, List.dropLast_cons_cons, List.getLast?_cons_cons, List.map_cons,
    withoutReturn_of_not_mem hreturn, List.cons_append]

theorem mem_of_mem_pieces {sep : Char → Bool} (hl : l ∈ pieces sep s) (hc : c ∈ l) : c ∈ s := by
  induction s generalizing l with
  | nil =>
    rw [pieces, List.mem_singleton] at hl
    exact hl ▸ hc
  | cons d s ih =>
    rw [pieces] at hl
    split at hl
    · rcases List.mem_cons.mp hl with rfl | hl
      · cases hc
      · exact List.mem_cons_of_mem d (ih hl hc)
    · obtain ⟨p, ps, hps⟩ := List.exists_cons_of_ne_nil (pieces_ne_nil sep s)
      rw [hps] at hl ih
      rcases List.mem_cons.mp hl with rfl | hl
      · rcases List.mem_cons.mp hc with rfl | hc
        · exact List.mem_cons_self
        · exact List.mem_cons_of_mem d (ih List.mem_cons_self hc)
      · exact List.mem_cons_of_mem d (ih (List.mem_cons_of_mem p hl) hc)

/-- The lines of a text have no other characters than the text. -/
theorem mem_of_mem_lines (hl : l ∈ lines s) (hc : c ∈ l) : c ∈ s := by
  have hlast : (pieces (· == '\n') s).getLast?.getD [] ∈ pieces (· == '\n') s := by
    rw [List.getLast?_eq_some_getLast (pieces_ne_nil _ s)]
    exact List.getLast_mem _
  rcases List.mem_append.mp hl with hl | hl
  · obtain ⟨p, hp, rfl⟩ := List.mem_map.mp hl
    have hsub : c ∈ p := by
      rw [withoutReturn] at hc
      split at hc
      · exact List.mem_of_mem_dropLast hc
      · exact hc
    exact mem_of_mem_pieces (List.mem_of_mem_dropLast hp) hsub
  · split at hl
    · cases hl
    · rw [List.mem_singleton] at hl
      exact mem_of_mem_pieces hlast (hl ▸ hc)

/-- The parts around the first occurrence of a character. -/
theorem splitFirst?_eq_some_iff :
    splitFirst? c s = some (before, after) ↔ s = before ++ c :: after ∧ c ∉ before := by
  induction s generalizing before with
  | nil => simp [splitFirst?]
  | cons d s ih =>
    rw [splitFirst?]
    by_cases hd : d = c
    · subst hd
      rw [if_pos rfl]
      cases before with
      | nil => simp
      | cons e before => simpa using fun (he : d = e) _ hne => absurd he hne
    · rw [if_neg hd, Option.map_eq_some_iff]
      constructor
      · rintro ⟨⟨front, back⟩, hsplit, heq⟩
        obtain ⟨rfl, rfl⟩ := Prod.mk.inj heq
        obtain ⟨rfl, hfront⟩ := ih.mp hsplit
        exact ⟨rfl, by simp [Ne.symm hd, hfront]⟩
      · rintro ⟨hs, hbefore⟩
        cases before with
        | nil => exact absurd (List.cons.inj hs).1 hd
        | cons e before =>
          obtain ⟨rfl, rfl⟩ := List.cons.inj hs
          exact ⟨(before, after), ih.mpr ⟨rfl, fun h => hbefore (List.mem_cons_of_mem _ h)⟩, rfl⟩

theorem splitFirst?_eq_none_iff : splitFirst? c s = none ↔ c ∉ s := by
  induction s with
  | nil => simp [splitFirst?]
  | cons d s ih =>
    rw [splitFirst?]
    split
    · next hd => simp [hd]
    · next hd => simp [ih, Ne.symm hd]

theorem splitLast?_eq_none_iff : splitLast? c s = none ↔ c ∉ s := by
  induction s with
  | nil => simp [splitLast?]
  | cons d s ih =>
    rw [splitLast?, List.mem_cons, not_or, ← ih]
    cases splitLast? c s with
    | none => simp [eq_comm]
    | some parts => simp

/-- The parts around the last occurrence of a character. -/
theorem splitLast?_eq_some_iff :
    splitLast? c s = some (before, after) ↔ s = before ++ c :: after ∧ c ∉ after := by
  induction s generalizing before with
  | nil => simp [splitLast?]
  | cons d s ih =>
    cases hrest : splitLast? c s with
    | some parts =>
      obtain ⟨front, back⟩ := parts
      have hmem : c ∈ s := by
        by_contra h
        rw [splitLast?_eq_none_iff.mpr h] at hrest
        cases hrest
      simp only [splitLast?, hrest]
      constructor
      · intro h
        obtain ⟨rfl, rfl⟩ := Prod.mk.inj (Option.some.inj h)
        obtain ⟨hs, hback⟩ := ih.mp hrest
        exact ⟨by rw [hs, List.cons_append], hback⟩
      · rintro ⟨hs, hafter⟩
        cases before with
        | nil => exact absurd ((List.cons.inj hs).2 ▸ hmem) hafter
        | cons e before =>
          obtain ⟨rfl, htail⟩ := List.cons.inj hs
          have hparts := hrest.symm.trans (ih.mpr ⟨htail, hafter⟩)
          obtain ⟨rfl, rfl⟩ := Prod.mk.inj (Option.some.inj hparts)
          rfl
    | none =>
      have hmem : c ∉ s := splitLast?_eq_none_iff.mp hrest
      simp only [splitLast?, hrest, Option.ite_none_right_eq_some, Option.some.injEq,
        Prod.mk.injEq]
      constructor
      · rintro ⟨rfl, rfl, rfl⟩
        exact ⟨rfl, hmem⟩
      · rintro ⟨hs, -⟩
        cases before with
        | nil =>
          obtain ⟨rfl, rfl⟩ := List.cons.inj hs
          exact ⟨rfl, rfl, rfl⟩
        | cons e before =>
          obtain ⟨-, rfl⟩ := List.cons.inj hs
          exact absurd (by simp) hmem

/-- What stands before and behind the last separator. -/
theorem append_sep_inj {front back : List Char} (hback : c ∉ back) (hafter : c ∉ after)
    (h : front ++ c :: back = before ++ c :: after) : front = before ∧ back = after := by
  have hsplit : splitLast? c (front ++ c :: back) = some (front, back) :=
    splitLast?_eq_some_iff.mpr ⟨rfl, hback⟩
  rw [splitLast?_eq_some_iff.mpr ⟨h, hafter⟩] at hsplit
  obtain ⟨rfl, rfl⟩ := Prod.mk.inj (Option.some.inj hsplit)
  exact ⟨rfl, rfl⟩

/-! ## Joining -/

theorem joined_cons_cons (sep l l' : List Char) (ls : List (List Char)) :
    joined sep (l :: l' :: ls) = l ++ (sep ++ joined sep (l' :: ls)) := by
  simp [joined, List.intercalate]

/-- The characters of lines, with a line feed behind each. -/
def extent : List (List Char) → Nat
  | [] => 0
  | l :: ls => l.length + 1 + extent ls

/-- **Joined lines** take one character each more than they have, but for the last one. -/
theorem length_joined (ls : List (List Char)) : (joined ['\n'] ls).length = extent ls - 1 := by
  induction ls with
  | nil => rfl
  | cons l ls ih =>
    cases ls with
    | nil => simp [joined, List.intercalate, extent]
    | cons l' ls =>
      rw [joined_cons_cons, List.length_append, List.length_append, ih, List.length_singleton]
      simp only [extent]
      omega

/-! ## Trimming -/

theorem length_trimFront_le (s : List Char) : (trimFront s).length ≤ s.length :=
  (List.dropWhile_sublist isBlank).length_le

theorem trimmed_sublist (s : List Char) : (trimmed s).Sublist s := by
  have hback : (trimBack (trimFront s)).Sublist (trimFront s) := by
    have hdrop : ((trimFront s).reverse.dropWhile isBlank).Sublist (trimFront s).reverse :=
      List.dropWhile_sublist isBlank
    simpa [trimBack, trimFront] using hdrop.reverse
  exact hback.trans (List.dropWhile_sublist isBlank)

/-- **A trimmed text** ends with the last character that is not blank. -/
theorem getLast?_trimmed (hc : isBlank c = false) (hafter : ∀ d ∈ after, isBlank d = true) :
    (trimmed (before ++ c :: after)).getLast? = some c := by
  have hfront : ∃ front, trimFront (before ++ c :: after) = front ++ c :: after := by
    rw [trimFront, List.dropWhile_append]
    split
    · exact ⟨[], List.dropWhile_cons_of_neg (by simp [hc])⟩
    · exact ⟨_, rfl⟩
  obtain ⟨front, hfront⟩ := hfront
  have hback : trimFront (after.reverse ++ c :: front.reverse) = c :: front.reverse := by
    rw [trimFront, List.dropWhile_append_of_pos (by simpa using hafter),
      List.dropWhile_cons_of_neg (by simp [hc])]
  rw [trimmed, hfront, trimBack]
  simp [hback]

/-- A text that neither begins nor ends with a blank is trimmed as it stands. -/
theorem trimmed_eq_self (hfirst : ∀ c, s.head? = some c → isBlank c = false)
    (hlast : ∀ c, s.getLast? = some c → isBlank c = false) : trimmed s = s := by
  have hkept (l : List Char) (h : ∀ c, l.head? = some c → isBlank c = false) :
      trimFront l = l := by
    cases l with
    | nil => rfl
    | cons c l => exact List.dropWhile_cons_of_neg (by simp [h c rfl])
  rw [trimmed, hkept s hfirst, trimBack, hkept s.reverse (by simpa using hlast),
    List.reverse_reverse]

theorem isBlank_of_head?_trimFront (h : (trimFront s).head? = some c) : isBlank c = false := by
  have hne : trimFront s ≠ [] := by
    rintro hnil
    rw [hnil] at h
    cases h
  rw [List.head?_eq_some_head hne] at h
  exact Option.some.inj h ▸ List.head_dropWhile_not isBlank hne

/-- **A trimmed text** neither begins nor ends with a blank. -/
theorem isBlank_of_getLast?_trimmed (h : (trimmed s).getLast? = some c) : isBlank c = false := by
  rw [trimmed, trimBack, List.getLast?_reverse] at h
  exact isBlank_of_head?_trimFront h

theorem isBlank_of_head?_trimmed (h : (trimmed s).head? = some c) : isBlank c = false := by
  have hprefix : trimmed s <+: trimFront s := by
    rw [← List.reverse_suffix, trimmed, trimBack, List.reverse_reverse]
    exact List.dropWhile_suffix isBlank
  obtain ⟨rest, hrest⟩ := hprefix
  refine isBlank_of_head?_trimFront (s := s) ?_
  rw [← hrest, List.head?_append, h, Option.some_or]

/-- Nothing is left of a text of blanks only. -/
theorem trimmed_eq_nil_iff : trimmed s = [] ↔ ∀ c ∈ s, isBlank c = true := by
  rw [trimmed, trimBack, List.reverse_eq_nil_iff, trimFront, List.dropWhile_eq_nil_iff]
  constructor
  · intro h
    -- A character of the text that is not blank is still there behind the blanks in front.
    by_contra hvisible
    have hfront : trimFront s ≠ [] := by
      rw [trimFront, Ne, List.dropWhile_eq_nil_iff]
      exact hvisible
    have hhead := isBlank_of_head?_trimFront (List.head?_eq_some_head hfront)
    rw [h _ (List.mem_reverse.mpr (List.head_mem hfront))] at hhead
    cases hhead
  · intro h c hc
    exact h c ((List.dropWhile_sublist isBlank).subset (List.mem_reverse.mp hc))

end RemoteShell.Text
