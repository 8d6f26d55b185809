import Mathlib.Data.List.Forall2
import Mathlib.Data.List.Infix
import RemoteShell.Text.Basic
import RemoteShell.Text.Case

/-!
# Words in lower-case text

Texts are searched for words after their letters were lowered.  The words are ASCII, and as far as
ASCII goes lowering works on each character by itself: the form of a sigma depends on the letters
around it, but both of its forms are beyond ASCII.  So a text that is put together can be searched
part by part, and what remains are words that begin in one part and end in another.

## Main definitions

* `Alike`: the same character, or two beyond ASCII
* `loweredAlone`: the letters of a text lowered one by one

## Main results

* `contains_lowercase_iff`: a word is searched for in the letters lowered one by one
* `loweredAlone_map_toLower`: the case of the letters of ASCII does not matter
* `infix_append_cons`, `infix_append_of_no_start`, `infix_append_of_no_end`: words in two parts of a
  text, with nothing that begins in the one and ends in the other
-/

namespace RemoteShell.Text

variable {c d : Char} {p s t : List Char}

/-! ## Lowering -/

/-- The letters of a text, lowered one by one. -/
def loweredAlone (s : List Char) : List Char := s.flatMap lowerChar

theorem loweredAlone_append (s t : List Char) :
    loweredAlone (s ++ t) = loweredAlone s ++ loweredAlone t :=
  List.flatMap_append

/-- Beyond ASCII no letter is a capital of ASCII. -/
theorem toLower_of_not_ascii (h : 128 ≤ c.toNat) : c.toLower = c := by
  have hcapital : ¬ (c.val ≥ 'A'.val ∧ c.val ≤ 'Z'.val) := by
    rintro ⟨-, hlast⟩
    have hlast : c.toNat ≤ 90 := UInt32.le_iff_toNat_le.mp hlast
    omega
  exact dif_neg hcapital

/-- ASCII, one by one: a small letter is its own small letter. -/
theorem toLower_toLower_of_ascii (h : c.toNat < 128) :
    c.toLower.toNat < 128 ∧ c.toLower.toLower = c.toLower := by
  have hall : ∀ n < 128, (Char.ofNat n).toLower.toNat < 128 ∧
      (Char.ofNat n).toLower.toLower = (Char.ofNat n).toLower := by decide +kernel
  simpa using hall c.toNat h

/-- The lower case does not depend on the case of the letters of ASCII. -/
theorem lowerChar_toLower (c : Char) : lowerChar c.toLower = lowerChar c := by
  by_cases hascii : c.toNat < 128
  · obtain ⟨hsmall, hfixed⟩ := toLower_toLower_of_ascii hascii
    rw [lowerChar, lowerChar, if_pos hsmall, if_pos hascii, hfixed]
  · rw [toLower_of_not_ascii (Nat.le_of_not_lt hascii)]

theorem loweredAlone_map_toLower (s : List Char) :
    loweredAlone (s.map Char.toLower) = loweredAlone s := by
  simp only [loweredAlone, List.flatMap_map, lowerChar_toLower]

/-- **The same character**, or two beyond ASCII. -/
def Alike (c d : Char) : Prop := c = d ∨ (128 ≤ c.toNat ∧ 128 ≤ d.toNat)

theorem Alike.refl (c : Char) : Alike c c := .inl rfl

theorem Alike.symm (h : Alike c d) : Alike d c := h.imp Eq.symm And.symm

/-- A sigma is lowered to one of its forms, each beyond ASCII. -/
theorem alike_sigma (hc : c.toNat = 0x3A3) (ends : Bool) :
    List.Forall₂ Alike [Char.ofNat (if ends then 0x3C2 else 0x3C3)] (lowerChar c) := by
  have hsigma : c = Char.ofNat 0x3A3 := by rw [← hc, Char.ofNat_toNat]
  have hlower : lowerChar (Char.ofNat 0x3A3) = [Char.ofNat 0x3C3] := by decide
  rw [hsigma, hlower]
  refine .cons (.inr ⟨?_, by decide⟩) .nil
  cases ends <;> decide

/-- Lowering in context differs from lowering one by one beyond ASCII only. -/
theorem alike_loweredAfter (before s : List Char) :
    List.Forall₂ Alike (loweredAfter before s) (loweredAlone s) := by
  induction s generalizing before with
  | nil => exact .nil
  | cons c rest ih =>
    rw [loweredAfter]
    refine List.rel_append ?_ (ih (c :: before))
    split
    · next hc => exact alike_sigma hc (endsWord before rest)
    · exact List.forall₂_same.mpr fun d _ => .refl d

/-! ## Words -/

theorem occurs_iff_infix : occurs p s = true ↔ p <:+: s := by
  induction s with
  | nil => rw [occurs, List.isEmpty_iff, List.infix_nil]
  | cons c s ih =>
    rw [occurs, Bool.or_eq_true, ih, List.isPrefixOf_iff_prefix, List.infix_cons_iff]

/-- A word of ASCII letters stands at the beginning of texts that are alike. -/
theorem prefix_of_alike (hp : ∀ c ∈ p, c.toNat < 128) (h : List.Forall₂ Alike s t)
    (hs : p <+: s) : p <+: t := by
  induction h generalizing p with
  | nil => exact hs
  | @cons c d s t hcd _ ih =>
    cases p with
    | nil => exact List.nil_prefix
    | cons b p =>
      obtain ⟨rfl, hrest⟩ := List.cons_prefix_cons.mp hs
      obtain ⟨hb, hp⟩ := List.forall_mem_cons.mp hp
      rcases hcd with rfl | ⟨hbig, -⟩
      · exact List.cons_prefix_cons.mpr ⟨rfl, ih hp hrest⟩
      · omega

theorem infix_of_alike (hp : ∀ c ∈ p, c.toNat < 128) (h : List.Forall₂ Alike s t)
    (hs : p <:+: s) : p <:+: t := by
  induction h with
  | nil => exact hs
  | cons hcd h ih =>
    rcases List.infix_cons_iff.mp hs with hfront | hbehind
    · exact (prefix_of_alike hp (.cons hcd h) hfront).isInfix
    · exact List.infix_cons_iff.mpr (.inr (ih hbehind))

theorem infix_lowered_iff (hp : ∀ c ∈ p, c.toNat < 128) :
    p <:+: lowered s ↔ p <:+: loweredAlone s := by
  have halike : List.Forall₂ Alike (lowered s) (loweredAlone s) := alike_loweredAfter [] s
  constructor
  · exact infix_of_alike hp halike
  · exact infix_of_alike hp (halike.flip.imp fun _ _ h => Alike.symm h)

/-- **A word is searched for** in the letters lowered one by one. -/
theorem contains_lowercase_iff {word : String} (hword : ∀ c ∈ word.toList, c.toNat < 128)
    (s : String) :
    contains (lowercase s) word = true ↔ word.toList <:+: loweredAlone s.toList := by
  unfold contains lowercase
  rw [String.toList_ofList, occurs_iff_infix, infix_lowered_iff hword]

/-! ## Words in two parts -/

/-- A word of a text in two parts: it stands in one of them, or it begins in the first part and ends
in the second. -/
theorem infix_append_iff_cut :
    p <:+: s ++ t ↔ p <:+: s ∨ p <:+: t ∨
      ∃ i < p.length, 0 < i ∧ p.take i <:+ s ∧ p.drop i <+: t := by
  rw [List.infix_append_iff]
  constructor
  · rintro (hs | ht | ⟨front, back, rfl, hfront, hback⟩)
    · exact .inl hs
    · exact .inr (.inl ht)
    · rcases eq_or_ne front [] with rfl | hfirst
      · exact .inr (.inl hback.isInfix)
      rcases eq_or_ne back [] with rfl | hlast
      · rw [List.append_nil]
        exact .inl hfront.isInfix
      have hlength : front.length < (front ++ back).length := by
        have := List.length_pos_of_ne_nil hlast
        rw [List.length_append]
        omega
      refine .inr (.inr ⟨front.length, hlength, List.length_pos_of_ne_nil hfirst, ?_, ?_⟩)
      · rwa [List.take_left]
      · rwa [List.drop_left]
  · rintro (hs | ht | ⟨i, -, -, hfront, hback⟩)
    · exact .inl hs
    · exact .inr (.inl ht)
    · exact .inr (.inr ⟨_, _, (List.take_append_drop i p).symm, hfront, hback⟩)

/-- No beginning of the word ends the first part. -/
theorem infix_append_of_no_start (h : ∀ i < p.length, 0 < i → ¬ p.take i <:+ s) :
    p <:+: s ++ t ↔ p <:+: s ∨ p <:+: t := by
  rw [infix_append_iff_cut, ← or_assoc, or_iff_left]
  rintro ⟨i, hi, hpos, hfront, -⟩
  exact h i hi hpos hfront

/-- No end of the word begins the second part. -/
theorem infix_append_of_no_end (h : ∀ i < p.length, 0 < i → ¬ p.drop i <+: t) :
    p <:+: s ++ t ↔ p <:+: s ∨ p <:+: t := by
  rw [infix_append_iff_cut, ← or_assoc, or_iff_left]
  rintro ⟨i, hi, hpos, -, hback⟩
  exact h i hi hpos hback

/-- A character that is not in the word stands between the parts. -/
theorem infix_append_cons (hc : c ∉ p) : p <:+: s ++ c :: t ↔ p <:+: s ∨ p <:+: t := by
  have hback (i : Nat) (hi : i < p.length) : ¬ p.drop i <+: c :: t := by
    rw [List.drop_eq_getElem_cons hi, List.cons_prefix_cons]
    rintro ⟨rfl, -⟩
    exact hc (List.getElem_mem hi)
  rw [infix_append_of_no_end fun i hi _ => hback i hi, List.infix_cons_iff]
  refine or_congr_right (or_iff_right_of_imp fun h => ?_)
  cases p with
  | nil => exact List.nil_infix
  | cons d p => exact absurd h (hback 0 (by simp))

end RemoteShell.Text
